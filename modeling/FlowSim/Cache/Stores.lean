import FlowSim.Cache.Lookup
import FlowSim.Cache.Outcomes
import FlowSim.Lib.Transition

/-!
Which blocks of a cache have been stored to, and whether the cache still knows. A hit makes
its line modified, but a fill always brings an exclusive line, whatever the miss was and
whatever the line in its place was: `stores_kept_iff` tells when no store is forgotten.
-/
namespace FlowSim.Cache
open FlowSim.Lib
set_option linter.unusedSimpArgs false

/-- `pending` has the blocks of the stores that missed and wait with an entry, and `stored`
    those to which a store has taken effect and that are still there. -/
structure StoreSession where
  cache : SetAssociativeCache
  pending : List UInt64
  stored : List UInt64

namespace StoreSession

inductive Action where
  | access (addr vaddr : UInt64) (instrID : Nat) (accessType : AccessType) (cycle : Nat)
  | handleFill (addr : UInt64) (cycle : Nat)

/-- A cache in any mode, with or without a lower level. -/
def new (cache : SetAssociativeCache) (attached standalone : Bool) : StoreSession where
  cache := (if attached then cache.setLowerLevel else cache).setStandaloneMode standalone
  pending := []
  stored := []

/-- Those of the blocks that the cache has. -/
def resident (cache : SetAssociativeCache) (blocks : List UInt64) : List UInt64 :=
  blocks.filter fun block => (cache.core.find block).isSome

/-- A store takes effect when its block is there: at once, or with the fill that it waits
    for. -/
def step (s : StoreSession) : Action → Option StoreSession
  | .access addr vaddr instrID accessType cycle =>
    let block := s.cache.blockAddr addr
    let (accessed,_,cache) := s.cache.access addr vaddr instrID accessType cycle
    some {
      cache
      pending := if accessType = .store ∧ accessed.hit = false ∧ block ∈ cache.mshr.blocks then block :: s.pending else s.pending
      stored := resident cache (if accessType = .store then block :: s.stored else s.stored) }
  | .handleFill addr cycle =>
    let block := s.cache.blockAddr addr
    let cache := s.cache.handleFill addr cycle
    some {
      cache
      pending := s.pending.filter fun b => b ≠ block
      stored := resident cache (if block ∈ s.pending then block :: s.stored else s.stored) }

/-- All that has been stored to is modified, and what had to go was counted as a
    write-back. -/
def Remembers (s s' : StoreSession) : Prop :=
  (∀ block ∈ s'.stored, s'.cache.core.getState block = .modified) ∧
  ∀ block ∈ s.stored, block ∉ s'.stored → s'.cache.writebacks = s.cache.writebacks + 1

instance (s s' : StoreSession) : Decidable (s.Remembers s') := inferInstanceAs (Decidable (_ ∧ _))

/-- A standalone cache fills the block of a miss at once when there is room for it. -/
def FillsAtOnce (s : StoreSession) (addr : UInt64) : Prop :=
  s.cache.core.find addr = none ∧ s.cache.blockAddr addr ∉ s.cache.mshr.blocks ∧
  s.cache.mshr.blocks.length < s.cache.mshr.maxSize ∧ s.cache.lowerLevel = false ∧ s.cache.standaloneMode = true

/-- No store is filled at once, and no fill comes for a block that a store waits for, or that
    has been stored to. -/
def Spared (s : StoreSession) : Action → Prop
  | .access addr _ _ accessType _ => accessType = .store → ¬ s.FillsAtOnce addr
  | .handleFill addr _ => s.cache.blockAddr addr ∉ s.pending ∧ s.cache.blockAddr addr ∉ s.stored

instance (s : StoreSession) (addr : UInt64) : Decidable (s.FillsAtOnce addr) :=
  inferInstanceAs (Decidable (_ ∧ _ ∧ _ ∧ _ ∧ _))

instance (s : StoreSession) : (action : Action) → Decidable (s.Spared action)
  | .access _ _ _ _ _ => inferInstanceAs (Decidable (_ → _))
  | .handleFill _ _ => inferInstanceAs (Decidable (_ ∧ _))

/-! ### What an access does -/

section
variable {s s' : StoreSession}

/-- An access uses a line, leaves all lines as they are, or fills its block at once. -/
theorem access_core (c : SetAssociativeCache) (addr vaddr : UInt64) (instrID : Nat) (accessType : AccessType) (cycle : Nat) :
    let cache := (c.access addr vaddr instrID accessType cycle).2.2
    cache.config = c.config ∧
    ((∃ way, c.core.find addr = some way) ∧ cache.core = (c.core.access addr (decide (accessType = .store))).2 ∧
        cache.writebacks = c.writebacks ∨
      c.core.find addr = none ∧ cache.core = c.core ∧ cache.writebacks = c.writebacks ∧
        ¬ (c.blockAddr addr ∉ c.mshr.blocks ∧ c.mshr.blocks.length < c.mshr.maxSize ∧ c.lowerLevel = false ∧
          c.standaloneMode = true) ∨
      c.core.find addr = none ∧ (c.blockAddr addr ∉ c.mshr.blocks ∧ c.mshr.blocks.length < c.mshr.maxSize ∧
          c.lowerLevel = false ∧ c.standaloneMode = true) ∧
        let filled := c.core.fill (c.blockAddr addr) SetAssociativeCache.fillBytes .exclusive
        cache.core = filled.2 ∧ cache.writebacks = if filled.1.2 then c.writebacks + 1 else c.writebacks) := by
  obtain ⟨_,made⟩ := c.access_cases addr vaddr instrID accessType cycle
  dsimp only at made ⊢
  rw [Storage.hit_access] at made
  revert made
  generalize (c.access addr vaddr instrID accessType cycle).2 = result
  obtain ⟨request,cache⟩ := result
  intro made
  cases found : c.core.find addr with
  | some way =>
    rw [found,if_pos (by rfl)] at made
    obtain ⟨rfl,rfl⟩ := Prod.mk.inj made
    exact ⟨rfl,.inl ⟨⟨way,rfl⟩,rfl,rfl⟩⟩
  | none =>
    have same : (c.core.access addr (decide (accessType = .store))).2 = c.core := by
      rcases c.core.access_cases addr (decide (accessType = .store)) with ⟨_,missed⟩ | ⟨way,_,there,_⟩
      · rw [missed]
      · rw [found] at there
        cases there
    rw [found,if_neg (by decide),same] at made
    cases made with
    | merged entry mshr blocks maxSize => exact ⟨rfl,.inr (.inl ⟨rfl,rfl,rfl,fun alone => alone.1 entry⟩)⟩
    | uncovered no_entry full =>
      refine ⟨rfl,.inr (.inl ⟨rfl,rfl,rfl,fun alone => ?_⟩)⟩
      have room := alone.2.1
      dsimp only at full
      omega
    | requested no_entry room lower =>
      refine ⟨rfl,.inr (.inl ⟨rfl,rfl,rfl,fun alone => ?_⟩)⟩
      exact absurd (lower.symm.trans alone.2.2.1) (by decide)
    | filled no_entry room alone standalone mshr blocks maxSize cycle' =>
      refine ⟨rfl,.inr (.inr ⟨rfl,⟨no_entry,room,alone,standalone⟩,?_,?_⟩)⟩
      · exact congrArg (fun block => (c.core.fill block SetAssociativeCache.fillBytes .exclusive).2) (c.blockAddr_blockAddr addr)
      · exact congrArg (fun block => if (c.core.fill block SetAssociativeCache.fillBytes .exclusive).1.2 then c.writebacks + 1
          else c.writebacks) (c.blockAddr_blockAddr addr)
    | waiting no_entry room alone standalone =>
      refine ⟨rfl,.inr (.inl ⟨rfl,rfl,rfl,fun at_once => ?_⟩)⟩
      exact absurd (standalone.symm.trans at_once.2.2.2) (by decide)

/-! ### What is kept -/

structure Sound (s : StoreSession) : Prop where
  wellFormed : s.cache.core.WellFormed
  blocks : s.cache.core.blockSize = s.cache.config.blockSize.toUInt64
  aligned : ∀ block ∈ s.stored, s.cache.blockAddr block = block
  modified : ∀ block ∈ s.stored, s.cache.core.getState block = .modified

theorem Sound.getBlockAddr (sound : s.Sound) (addr : UInt64) : s.cache.core.getBlockAddr addr = s.cache.blockAddr addr := by
  unfold Storage.getBlockAddr SetAssociativeCache.blockAddr
  rw [sound.blocks]

theorem isSome_find {c : Storage} (wf : c.WellFormed) (addr : UInt64) : (c.find addr).isSome = (c.lineOf addr).isSome := by
  cases found : c.find addr with
  | none =>
    rw [wf.lineOf_eq_none_iff.mpr found]
    rfl
  | some way =>
    cases line : c.lineOf addr with
    | none =>
      rw [wf.lineOf_eq_none_iff.mp line] at found
      cases found
    | some l => rfl

/-- A block in a state that is not invalid is there. -/
theorem isSome_of_getState {c : Storage} (wf : c.WellFormed) {addr : UInt64} {state : State} (has : c.getState addr = state)
    (valid : state ≠ .invalid) : (c.find addr).isSome = true := by
  rw [isSome_find wf]
  cases line : c.lineOf addr with
  | none =>
    rw [Storage.getState,line] at has
    exact absurd has.symm valid
  | some l => rfl

theorem mem_resident {cache : SetAssociativeCache} {blocks : List UInt64} {block : UInt64} :
    block ∈ resident cache blocks ↔ block ∈ blocks ∧ (cache.core.find block).isSome = true := by
  rw [resident,List.mem_filter]

/-- A fill brings an exclusive line, and every block stored to but that of the fill stays
    modified, or has to be written back. -/
theorem Sound.filled (sound : s.Sound) {block : UInt64} (aligned : s.cache.blockAddr block = block) :
    let filled := s.cache.core.fill block SetAssociativeCache.fillBytes .exclusive
    filled.2.WellFormed ∧ filled.2.getState block = .exclusive ∧
    ∀ b ∈ s.stored, b ≠ block → filled.2.getState b = .modified ∨ (filled.2.find b).isSome = false ∧ filled.1.2 = true := by
  intro filled
  obtain ⟨wf,here,others⟩ := sound.wellFormed.fill block SetAssociativeCache.fillBytes (show State.exclusive ≠ .invalid by decide)
  refine ⟨wf,?_,?_⟩
  · rw [Storage.getState,here block rfl]
    rfl
  · intro b member different
    have apart : s.cache.core.getBlockAddr b ≠ s.cache.core.getBlockAddr block := by
      rw [sound.getBlockAddr,sound.getBlockAddr,sound.aligned b member,aligned]
      exact different
    have before := sound.modified b member
    rcases others b apart with same | ⟨gone,l,held,reported⟩
    · left
      rw [Storage.getState,same]
      exact before
    · right
      rw [isSome_find wf,gone]
      refine ⟨rfl,?_⟩
      rw [Storage.getState,held] at before
      show filled.1.2 = true
      rw [show filled.1 = _ from reported]
      exact decide_eq_true before

/-- After a step with these lines, the session remembers its stores, once the blocks stored to
    that are left are known to be modified and those that are gone to be written back. -/
theorem Sound.remembers_filled (sound : s.Sound) {block : UInt64} (aligned : s.cache.blockAddr block = block)
    (apart : ∀ b ∈ s.stored, b ≠ block) (core : s'.cache.core = (s.cache.core.fill block SetAssociativeCache.fillBytes .exclusive).2)
    (counted : s'.cache.writebacks = if (s.cache.core.fill block SetAssociativeCache.fillBytes .exclusive).1.2 then
      s.cache.writebacks + 1 else s.cache.writebacks)
    (stored : s'.stored = resident s'.cache s.stored) : s.Remembers s' := by
  obtain ⟨_,_,others⟩ := sound.filled aligned
  rw [← core] at others
  refine ⟨?_,?_⟩
  · intro b member
    rw [stored,mem_resident] at member
    rcases others b member.1 (apart b member.1) with modified | ⟨gone,_⟩
    · exact modified
    · rw [gone] at member
      cases member.2
  · intro b member left_
    rcases others b member (apart b member) with modified | ⟨_,needs⟩
    · have there : (s'.cache.core.find b).isSome = true := by
        rw [core] at modified ⊢
        exact isSome_of_getState (sound.filled aligned).1 modified (by decide)
      exact absurd (by rw [stored,mem_resident]; exact ⟨member,there⟩) left_
    · rw [counted,needs,if_pos rfl]

theorem Sound.block_of (sound : s.Sound) (addr : UInt64) :
    s.cache.core.getBlockAddr (s.cache.blockAddr addr) = s.cache.core.getBlockAddr addr := by
  rw [sound.getBlockAddr,sound.getBlockAddr,SetAssociativeCache.blockAddr_blockAddr]

/-- A hit leaves modified what is modified, and a store's line is modified. -/
theorem Sound.remembers_used (sound : s.Sound) {addr : UInt64} {accessType : AccessType}
    (core : s'.cache.core = (s.cache.core.access addr (decide (accessType = .store))).2)
    (stored : s'.stored = resident s'.cache (if accessType = .store then s.cache.blockAddr addr :: s.stored else s.stored)) :
    s.Remembers s' := by
  obtain ⟨wf,here,others⟩ := sound.wellFormed.access addr (decide (accessType = .store))
  rw [← core] at wf here others
  have kept : ∀ b ∈ s.stored, s'.cache.core.getState b = .modified := by
    intro b member
    have before := sound.modified b member
    unfold Storage.getState at before ⊢
    by_cases same : s.cache.core.getBlockAddr b = s.cache.core.getBlockAddr addr
    · rw [here b same]
      cases held : s.cache.core.lineOf b with
      | none =>
        rw [held] at before
        cases before
      | some l =>
        rw [held] at before
        rw [Option.map_some]
        show (if _ then State.modified else l.state) = .modified
        split_ifs
        · rfl
        · exact before
    · rw [others b same]
      exact before
  refine ⟨?_,?_⟩
  · intro b member
    rw [stored,mem_resident] at member
    obtain ⟨member,there⟩ := member
    split_ifs at member with store
    · rcases List.mem_cons.mp member with rfl | member
      · rw [isSome_find wf,here _ (sound.block_of addr),Option.isSome_map] at there
        obtain ⟨l,held⟩ := Option.isSome_iff_exists.mp there
        rw [Storage.getState,here _ (sound.block_of addr),held,decide_eq_true store]
        rfl
      · exact kept b member
    · exact kept b member
  · intro b member left_
    refine absurd ?_ left_
    rw [stored,mem_resident]
    refine ⟨?_,isSome_of_getState wf (kept b member) (by decide)⟩
    split_ifs
    · exact List.mem_cons_of_mem _ member
    · exact member

/-- A block with an exclusive line that counts as stored to has been forgotten. -/
theorem Sound.forgotten (sound : s.Sound) {block : UInt64} (aligned : s.cache.blockAddr block = block)
    (core : s'.cache.core = (s.cache.core.fill block SetAssociativeCache.fillBytes .exclusive).2) {blocks : List UInt64}
    (stored : s'.stored = resident s'.cache blocks) (member : block ∈ blocks) : ¬ s.Remembers s' := by
  intro remembers
  obtain ⟨wf,exclusive,_⟩ := sound.filled aligned
  rw [← core] at wf exclusive
  have there := isSome_of_getState wf exclusive (by decide)
  have modified := remembers.1 block (by rw [stored,mem_resident]; exact ⟨member,there⟩)
  rw [exclusive] at modified
  cases modified

theorem remembers_iff (sound : s.Sound) {action : Action} (stepped : s.step action = some s') :
    s.Remembers s' ↔ s.Spared action := by
  cases action with
  | handleFill addr cycle =>
    obtain rfl := Option.some.inj stepped
    have aligned := s.cache.blockAddr_blockAddr addr
    constructor
    · intro remembers
      refine ⟨?_,?_⟩
      · intro waiting
        refine sound.forgotten aligned rfl rfl ?_ remembers
        rw [if_pos waiting]
        exact List.mem_cons_self ..
      · intro before
        refine sound.forgotten aligned rfl rfl ?_ remembers
        split_ifs
        · exact List.mem_cons_of_mem _ before
        · exact before
    · rintro ⟨no_wait,untouched⟩
      refine sound.remembers_filled aligned ?_ rfl rfl ?_
      · rintro b member rfl
        exact untouched member
      · dsimp only
        rw [if_neg no_wait]
  | access addr vaddr instrID accessType cycle =>
    obtain ⟨config,cases_⟩ := access_core s.cache addr vaddr instrID accessType cycle
    have aligned := s.cache.blockAddr_blockAddr addr
    have after : s'.cache = (s.cache.access addr vaddr instrID accessType cycle).2.2 ∧
        s'.stored = resident s'.cache (if accessType = .store then s.cache.blockAddr addr :: s.stored else s.stored) := by
      obtain rfl := Option.some.inj stepped
      exact ⟨rfl,rfl⟩
    obtain ⟨cache,stored⟩ := after
    dsimp only at cases_
    rw [← cache] at cases_
    rcases cases_ with ⟨⟨way,found⟩,core,counted⟩ | ⟨nowhere,core,counted,not_alone⟩ | ⟨nowhere,alone,core,counted⟩
    · refine ⟨fun _ _ at_once => ?_,fun _ => sound.remembers_used core stored⟩
      have nowhere := at_once.1
      rw [found] at nowhere
      cases nowhere
    · refine ⟨fun _ _ at_once => not_alone at_once.2,fun _ => ?_⟩
      have same : s'.stored = resident s'.cache s.stored := by
        rw [stored]
        split_ifs with store
        · rw [resident,List.filter_cons_of_neg]
          · rfl
          · rw [core,isSome_find sound.wellFormed,sound.wellFormed.lineOf_congr (sound.block_of addr),
              sound.wellFormed.lineOf_eq_none_iff.mpr nowhere]
            decide
        · rfl
      refine ⟨?_,?_⟩
      · intro b member
        rw [same,mem_resident] at member
        rw [core]
        exact sound.modified b member.1
      · intro b member left_
        refine absurd ?_ left_
        rw [same,mem_resident,core]
        exact ⟨member,isSome_of_getState sound.wellFormed (sound.modified b member) (by decide)⟩
    · by_cases store : accessType = .store
      · rw [if_pos store] at stored
        refine ⟨fun remembers => absurd remembers (sound.forgotten aligned core stored (List.mem_cons_self ..)),fun spared => ?_⟩
        exact absurd ⟨nowhere,alone⟩ (spared store)
      · rw [if_neg store] at stored
        refine ⟨fun _ is_store => absurd is_store store,fun _ => ?_⟩
        refine sound.remembers_filled aligned ?_ core counted stored
        rintro b member rfl
        have there := isSome_of_getState sound.wellFormed (sound.modified _ member) (by decide)
        rw [isSome_find sound.wellFormed,sound.wellFormed.lineOf_congr (sound.block_of addr),
          sound.wellFormed.lineOf_eq_none_iff.mpr nowhere] at there
        cases there

/-- What is stored is in the storage, whose lines stay in order. -/
theorem Sound.storage (sound : s.Sound) {action : Action} (stepped : s.step action = some s') :
    s'.cache.core.WellFormed ∧ s'.cache.core.blockSize = s.cache.core.blockSize ∧ s'.cache.config = s.cache.config := by
  cases action with
  | handleFill addr cycle =>
    obtain rfl := Option.some.inj stepped
    exact ⟨(sound.wellFormed.fill _ _ (by decide)).1,Storage.blockSize_fill ..,rfl⟩
  | access addr vaddr instrID accessType cycle =>
    obtain ⟨config,cases_⟩ := access_core s.cache addr vaddr instrID accessType cycle
    have cache : s'.cache = (s.cache.access addr vaddr instrID accessType cycle).2.2 := by
      obtain rfl := Option.some.inj stepped
      rfl
    dsimp only at config cases_
    rw [← cache] at config cases_
    rcases cases_ with ⟨_,core,_⟩ | ⟨_,core,_⟩ | ⟨_,_,core,_⟩
    · rw [core]
      exact ⟨(sound.wellFormed.access ..).1,Storage.blockSize_access ..,config⟩
    · rw [core]
      exact ⟨sound.wellFormed,rfl,config⟩
    · rw [core]
      exact ⟨(sound.wellFormed.fill _ _ (by decide)).1,Storage.blockSize_fill ..,config⟩

/-- What the next step may assume, once this one has forgotten no store. -/
theorem Sound.step (sound : s.Sound) {action : Action} (stepped : s.step action = some s') (spared : s.Spared action) : s'.Sound := by
  obtain ⟨wf,size,config⟩ := sound.storage stepped
  have blockAddr : ∀ addr, s'.cache.blockAddr addr = s.cache.blockAddr addr := by
    intro addr
    unfold SetAssociativeCache.blockAddr
    rw [config]
  refine ⟨wf,by rw [size,config,sound.blocks],?_,((remembers_iff sound stepped).mpr spared).1⟩
  intro b member
  rw [blockAddr]
  -- a step adds at most the block of its address
  have aligned : ∀ {added : Prop} [Decidable added] {addr : UInt64},
      b ∈ (if added then s.cache.blockAddr addr :: s.stored else s.stored) → s.cache.blockAddr b = b := by
    intro added _ addr listed
    split_ifs at listed
    · rcases List.mem_cons.mp listed with rfl | before
      · exact s.cache.blockAddr_blockAddr addr
      · exact sound.aligned b before
    · exact sound.aligned b listed
  cases action with
  | handleFill addr cycle =>
    obtain rfl := Option.some.inj stepped
    exact aligned (mem_resident.mp member).1
  | access addr vaddr instrID accessType cycle =>
    obtain rfl := Option.some.inj stepped
    exact aligned (mem_resident.mp member).1

end

theorem sound_new {config : CacheConfig} {cache : SetAssociativeCache}
    (made : SetAssociativeCache.newSetAssociativeCache config = .ok cache) (attached standalone : Bool) :
    (new cache attached standalone).Sound := by
  have core : (new cache attached standalone).cache.core = cache.core ∧ (new cache attached standalone).cache.config = cache.config := by
    cases attached with
    | true => exact ⟨rfl,rfl⟩
    | false => exact ⟨rfl,rfl⟩
  obtain ⟨core,same⟩ := core
  have fresh : cache.core.WellFormed ∧ cache.core.blockSize = cache.config.blockSize.toUInt64 := by
    obtain ⟨valid,rfl⟩ := SetAssociativeCache.valid_of_new made
    refine ⟨Storage.wellFormed_new ..,if_neg fun zero => ?_⟩
    have positive : config.blockSize ≠ 0 := by
      rintro none_given
      unfold SetAssociativeCache.validateConfig at valid
      split_ifs at valid with _ _ sized
      exact sized (.inl none_given)
    exact positive (UInt32.toNat.inj (congrArg UInt64.toNat zero))
  refine ⟨by rw [core]; exact fresh.1,by rw [core,same]; exact fresh.2,?_,?_⟩
  · exact fun _ member => absurd member List.not_mem_nil
  · exact fun _ member => absurd member List.not_mem_nil

/-- In a run of a cache in any mode, every block stored to stays modified until it is evicted
    and counted as a write-back, exactly when every step spares the stores. -/
theorem stores_kept_iff {config : CacheConfig} {cache : SetAssociativeCache}
    (made : SetAssociativeCache.newSetAssociativeCache config = .ok cache) (attached standalone : Bool) (actions : List Action) :
    (∀ taken ∈ trace step (new cache attached standalone) actions, taken.1.Remembers taken.2.2) ↔
      ∀ taken ∈ trace step (new cache attached standalone) actions, taken.1.Spared taken.2.1 :=
  @trace_forall_iff _ _ step Sound (fun s _ s' => s.Remembers s') Spared (fun sound stepped => remembers_iff sound stepped)
    (fun sound stepped spared => sound.step stepped spared) actions _ (sound_new made attached standalone)

/-- A cache of one line, with room for one miss. -/
def oneLine : CacheConfig where
  numSets := 1
  numWays := 1
  blockSize := 64
  mshrSize := 1
  hitLatency := 4
  fillLatency := 4

def oneLineCache : SetAssociativeCache := (SetAssociativeCache.newSetAssociativeCache oneLine).toOption.get (by decide)

theorem made_oneLineCache : SetAssociativeCache.newSetAssociativeCache oneLine = .ok oneLineCache := rfl

/-- A block is loaded, stored to and evicted by the fill of another block. -/
def storeToLoaded : List Action :=
  [.access 0 0 1 .load 0,.handleFill 0 9,.access 8 8 2 .store 10,.access 64 64 3 .load 11,.handleFill 64 20]

theorem allowed_storeToLoaded : (runActions step Spared storeToLoaded (new oneLineCache true false)).isSome = true := by
  decide +kernel

theorem stores_kept_loaded : (runActions step Spared storeToLoaded (new oneLineCache true false)).isSome = true ∧
    ∀ taken ∈ trace step (new oneLineCache true false) storeToLoaded, taken.1.Remembers taken.2.2 :=
  ⟨allowed_storeToLoaded,
    (stores_kept_iff made_oneLineCache true false storeToLoaded).mpr (allowed_of_runActions allowed_storeToLoaded)⟩

/-- A store that misses and the fill that answers it leave the line exclusive. -/
theorem forgotten_store : ¬ ∀ taken ∈ trace step (new oneLineCache true false) [.access 0 0 1 .store 0,.handleFill 0 9],
    taken.1.Remembers taken.2.2 := by
  intro remembers
  have filled : ((runActions step (fun _ _ => True) [.access 0 0 1 .store 0] (new oneLineCache true false)).bind fun s =>
      s.step (.handleFill 0 9)).map (fun s => (s.stored,s.cache.core.getState 0)) = some ([0],.exclusive) := by decide +kernel
  obtain ⟨s',ran,same⟩ := Option.map_eq_some_iff.mp filled
  obtain ⟨s,before,stepped⟩ := Option.bind_eq_some_iff.mp ran
  obtain ⟨stored,exclusive⟩ := Prod.mk.inj same
  have modified := (remembers _ (mem_trace_of_run stepped before)).1 0 (by rw [stored]; decide)
  rw [exclusive] at modified
  cases modified

end StoreSession
end FlowSim.Cache
