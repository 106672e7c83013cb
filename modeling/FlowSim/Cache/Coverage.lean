import FlowSim.Cache.Outcomes
import FlowSim.Lib.Transition

/-!
What covers a miss until its block is there: an entry of the registers, for which one
request was accepted below. A miss that finds the registers full has no entry, and the
cache does not look at what becomes of its request; `misses_covered_iff` tells when
neither happens.
-/
namespace FlowSim.Cache
open FlowSim.Lib
set_option linter.unusedSimpArgs false

/-- A cache with a lower level. `accepted` has the blocks of the requests that the lower
    level accepted, and `missed` those of the accesses that missed, both since the last
    fill of the block. -/
structure CoverageSession where
  cache : SetAssociativeCache
  accepted : List UInt64
  missed : List UInt64

namespace CoverageSession

/-- `accepts` tells what the lower level answers to a request of the access. -/
inductive Action where
  | access (addr vaddr : UInt64) (instrID : Nat) (accessType : AccessType) (cycle : Nat) (accepts : Bool)
  | handleFill (addr : UInt64) (cycle : Nat)

def new (cache : SetAssociativeCache) : CoverageSession where
  cache := cache.setLowerLevel
  accepted := []
  missed := []

def step (s : CoverageSession) : Action → Option CoverageSession
  | .access addr vaddr instrID accessType cycle accepts =>
    let (accessed,request,cache) := s.cache.access addr vaddr instrID accessType cycle
    some {
      cache
      accepted := s.accepted ++ (request.filter fun _ => accepts).toList.map MemoryRequest.address
      missed := if accessed.hit then s.missed else s.cache.blockAddr addr :: s.missed }
  | .handleFill addr cycle =>
    let block := s.cache.blockAddr addr
    some {
      cache := s.cache.handleFill addr cycle
      accepted := s.accepted.filter fun b => b ≠ block
      missed := s.missed.filter fun b => b ≠ block }

/-- One entry for a block, and no more entries than configured. -/
structure Registered (s : CoverageSession) : Prop where
  one_entry : s.cache.mshr.blocks.Nodup
  bounded : s.cache.mshr.entries.length ≤ s.cache.config.mshrSize.toNat

/-- Every miss has an entry, for which one request was accepted. -/
def Covered (s : CoverageSession) : Prop :=
  ∀ block ∈ s.missed, block ∈ s.cache.mshr.blocks ∧ s.accepted.count block = 1

instance (s : CoverageSession) : Decidable s.Covered := inferInstanceAs (Decidable (∀ _ ∈ _, _ ∧ _))

/-- A miss on a block without an entry finds room for one, and its request is accepted. -/
def Admitted (s : CoverageSession) : Action → Prop
  | .access addr _ _ _ _ accepts => (s.cache.core.find addr).isSome = true ∨ s.cache.blockAddr addr ∈ s.cache.mshr.blocks ∨
      s.cache.mshr.entries.length < s.cache.config.mshrSize.toNat ∧ accepts = true
  | .handleFill _ _ => True

instance (s : CoverageSession) : (action : Action) → Decidable (s.Admitted action)
  | .access _ _ _ _ _ _ => inferInstanceAs (Decidable (_ ∨ _ ∨ _ ∧ _))
  | .handleFill _ _ => inferInstanceAs (Decidable True)

/-! ### What a step does -/

section
variable {s s' : CoverageSession}

/-- A step finds its block, joins an entry, finds the registers full, makes an entry with a
    request, or fills the block. -/
theorem step_cases (lower : s.cache.lowerLevel = true) {action : Action} (stepped : s.step action = some s') :
    s'.cache.config = s.cache.config ∧ s'.cache.lowerLevel = true ∧ s'.cache.mshr.maxSize = s.cache.mshr.maxSize ∧
    ((∃ addr vaddr instrID accessType cycle accepts, action = .access addr vaddr instrID accessType cycle accepts ∧
        let block := s.cache.blockAddr addr
        ((s.cache.core.find addr).isSome = true ∧ s'.cache.mshr.blocks = s.cache.mshr.blocks ∧ s'.accepted = s.accepted ∧
            s'.missed = s.missed) ∨
        (s.cache.core.find addr).isSome = false ∧ s'.missed = block :: s.missed ∧
        (block ∈ s.cache.mshr.blocks ∧ s'.cache.mshr.blocks = s.cache.mshr.blocks ∧ s'.accepted = s.accepted ∨
          block ∉ s.cache.mshr.blocks ∧ s.cache.mshr.maxSize ≤ s.cache.mshr.blocks.length ∧
            s'.cache.mshr.blocks = s.cache.mshr.blocks ∧ s'.accepted = s.accepted ∨
          block ∉ s.cache.mshr.blocks ∧ s.cache.mshr.blocks.length < s.cache.mshr.maxSize ∧
            s'.cache.mshr.blocks = s.cache.mshr.blocks ++ [block] ∧ s'.accepted = s.accepted ++ if accepts then [block] else [])) ∨
      ∃ addr cycle, action = .handleFill addr cycle ∧
        let block := s.cache.blockAddr addr
        s'.cache.mshr.blocks = s.cache.mshr.blocks.erase block ∧ s'.accepted = s.accepted.filter (fun b => b ≠ block) ∧
          s'.missed = s.missed.filter fun b => b ≠ block) := by
  cases action with
  | handleFill addr cycle =>
    obtain rfl := Option.some.inj stepped
    exact ⟨rfl,lower,rfl,.inr ⟨addr,cycle,rfl,MSHRQueue.blocks_removeByAddress,rfl,rfl⟩⟩
  | access addr vaddr instrID accessType cycle accepts =>
    obtain ⟨same,made⟩ := s.cache.access_cases addr vaddr instrID accessType cycle
    rw [Storage.hit_access] at same made
    unfold step at stepped
    dsimp only at stepped
    revert stepped same made
    generalize s.cache.access addr vaddr instrID accessType cycle = result
    obtain ⟨accessed,request,cache⟩ := result
    intro stepped same made
    obtain rfl := Option.some.inj stepped
    dsimp only at same made ⊢
    by_cases hit : (s.cache.core.find addr).isSome = true
    · rw [if_pos hit] at made
      obtain ⟨rfl,rfl⟩ := Prod.mk.inj made
      rw [same,if_pos hit]
      exact ⟨rfl,lower,rfl,.inl ⟨addr,vaddr,instrID,accessType,cycle,accepts,rfl,.inl ⟨hit,rfl,List.append_nil _,rfl⟩⟩⟩
    · rw [if_neg hit] at made
      rw [same,if_neg hit]
      have missed : (s.cache.core.find addr).isSome = false := by simpa using hit
      cases made with
      | merged entry mshr blocks maxSize =>
        exact ⟨rfl,lower,maxSize,.inl ⟨addr,vaddr,instrID,accessType,cycle,accepts,rfl,
          .inr ⟨missed,rfl,.inl ⟨entry,blocks,List.append_nil _⟩⟩⟩⟩
      | uncovered no_entry full =>
        exact ⟨rfl,lower,rfl,.inl ⟨addr,vaddr,instrID,accessType,cycle,accepts,rfl,
          .inr ⟨missed,rfl,.inr (.inl ⟨no_entry,full,rfl,List.append_nil _⟩)⟩⟩⟩
      | requested no_entry room lower' mshr blocks maxSize request address =>
        refine ⟨rfl,lower,maxSize,.inl ⟨addr,vaddr,instrID,accessType,cycle,accepts,rfl,
          .inr ⟨missed,rfl,.inr (.inr ⟨no_entry,room,blocks,?_⟩)⟩⟩⟩
        cases accepts with
        | true => rw [← address]; rfl
        | false => rfl
      | filled _ _ alone => exact absurd (lower.symm.trans alone) (by decide)
      | waiting _ _ alone => exact absurd (lower.symm.trans alone) (by decide)

/-- What is kept by every step. -/
structure Sound (s : CoverageSession) : Prop where
  registered : s.Registered
  maxSize : s.cache.mshr.maxSize = s.cache.config.mshrSize.toNat
  lower : s.cache.lowerLevel = true

/-- And what is kept while misses are admitted: the requests accepted are those of the
    entries, one for each. -/
structure Backed (s : CoverageSession) : Prop where
  sound : s.Sound
  answered : ∀ block ∈ s.cache.mshr.blocks, s.accepted.count block = 1
  entries : ∀ block ∈ s.accepted, block ∈ s.cache.mshr.blocks
  missed : ∀ block ∈ s.missed, block ∈ s.cache.mshr.blocks

theorem length_blocks (mq : MSHRQueue) : mq.blocks.length = mq.entries.length := List.length_map _

theorem Sound.step (sound : s.Sound) {action : Action} (stepped : s.step action = some s') : s'.Sound := by
  obtain ⟨config,lower,maxSize,cases_⟩ := step_cases sound.lower stepped
  refine ⟨?_,by rw [maxSize,config,sound.maxSize],lower⟩
  have bounded := sound.registered.bounded
  rw [← length_blocks] at bounded
  suffices kept : s'.cache.mshr.blocks.Nodup ∧ s'.cache.mshr.blocks.length ≤ s.cache.config.mshrSize.toNat from
    ⟨kept.1,by rw [← length_blocks,config]; exact kept.2⟩
  rcases cases_ with ⟨addr,_,_,_,_,accepts,_,⟨_,blocks,_⟩ | ⟨_,_,⟨_,blocks,_⟩ | ⟨_,_,blocks,_⟩ | ⟨no_entry,room,blocks,_⟩⟩⟩ |
    ⟨addr,_,_,blocks,_⟩
  · rw [blocks]
    exact ⟨sound.registered.one_entry,bounded⟩
  · rw [blocks]
    exact ⟨sound.registered.one_entry,bounded⟩
  · rw [blocks]
    exact ⟨sound.registered.one_entry,bounded⟩
  · rw [blocks,List.length_append,List.length_singleton,← sound.maxSize]
    refine ⟨?_,room⟩
    rw [List.nodup_append]
    exact ⟨sound.registered.one_entry,List.nodup_singleton _,fun a member b same => by
      rw [List.mem_singleton.mp same]
      exact fun equal => no_entry (equal ▸ member)⟩
  · rw [blocks]
    exact ⟨sound.registered.one_entry.erase _,(List.length_erase_le ..).trans bounded⟩

theorem Backed.covered (backed : s.Backed) : s.Covered := fun block member =>
  ⟨backed.missed block member,backed.answered block (backed.missed block member)⟩

theorem Backed.step (backed : s.Backed) {action : Action} (stepped : s.step action = some s') (admitted : s.Admitted action) :
    s'.Backed := by
  obtain ⟨config,lower,maxSize,cases_⟩ := step_cases backed.sound.lower stepped
  have sound := backed.sound.step stepped
  rcases cases_ with ⟨addr,_,_,_,_,accepts,rfl,⟨_,blocks,accepted,missed⟩ | ⟨absent,missed,joined | full | started⟩⟩ |
    ⟨addr,_,rfl,blocks,accepted,missed⟩
  · refine ⟨sound,?_,?_,?_⟩
    · rw [blocks,accepted]
      exact backed.answered
    · rw [blocks,accepted]
      exact backed.entries
    · rw [blocks,missed]
      exact backed.missed
  · obtain ⟨entry,blocks,accepted⟩ := joined
    refine ⟨sound,?_,?_,?_⟩
    · rw [blocks,accepted]
      exact backed.answered
    · rw [blocks,accepted]
      exact backed.entries
    · rw [blocks,missed]
      exact List.forall_mem_cons.mpr ⟨entry,backed.missed⟩
  · obtain ⟨no_entry,full,_⟩ := full
    rw [backed.sound.maxSize,length_blocks] at full
    rcases admitted with found | entry | ⟨room,_⟩
    · rw [absent] at found
      cases found
    · exact absurd entry no_entry
    · omega
  · obtain ⟨no_entry,room,blocks,accepted⟩ := started
    have accepts : accepts = true := by
      rcases admitted with found | entry | ⟨_,accepts⟩
      · rw [absent] at found
        cases found
      · exact absurd entry no_entry
      · exact accepts
    rw [accepts,if_pos rfl] at accepted
    refine ⟨sound,?_,?_,?_⟩
    · rw [blocks,accepted]
      intro block member
      rw [List.count_append,List.count_singleton]
      by_cases same : block = s.cache.blockAddr addr
      · have fresh : s.accepted.count block = 0 := List.count_eq_zero.mpr fun before => no_entry (same ▸ backed.entries block before)
        rw [fresh,if_pos (by simp [same])]
      · have before : block ∈ s.cache.mshr.blocks := by simpa [same] using member
        simp [backed.answered block before,Ne.symm same]
    · rw [blocks,accepted]
      intro block member
      rcases List.mem_append.mp member with before | new
      · exact List.mem_append_left _ (backed.entries block before)
      · exact List.mem_append_right _ new
    · rw [blocks,missed]
      intro block member
      rcases List.mem_cons.mp member with rfl | before
      · exact List.mem_append_right _ (List.mem_singleton_self _)
      · exact List.mem_append_left _ (backed.missed block before)
  · have stays : ∀ block, block ≠ s.cache.blockAddr addr → (block ∈ s'.cache.mshr.blocks ↔ block ∈ s.cache.mshr.blocks) := by
      intro block other
      rw [blocks]
      exact List.mem_erase_of_ne other
    refine ⟨sound,?_,?_,?_⟩
    · intro block member
      have other : block ≠ s.cache.blockAddr addr := by
        rintro rfl
        rw [blocks] at member
        exact backed.sound.registered.one_entry.not_mem_erase member
      rw [accepted,List.count_filter (by simpa using other)]
      exact backed.answered block ((stays block other).mp member)
    · intro block member
      rw [accepted,List.mem_filter,decide_eq_true_eq] at member
      exact (stays block member.2).mpr (backed.entries block member.1)
    · intro block member
      rw [missed,List.mem_filter,decide_eq_true_eq] at member
      exact (stays block member.2).mpr (backed.missed block member.1)

/-- A miss that is not admitted is not covered. -/
theorem covered_step_iff (backed : s.Backed) {action : Action} (stepped : s.step action = some s') :
    s'.Covered ↔ s.Admitted action := by
  refine ⟨?_,fun admitted => (backed.step stepped admitted).covered⟩
  intro covered
  obtain ⟨_,_,_,cases_⟩ := step_cases backed.sound.lower stepped
  rcases cases_ with ⟨addr,_,_,_,_,accepts,rfl,⟨found,_⟩ | ⟨_,missed,joined | full | started⟩⟩ | ⟨addr,_,rfl,_⟩
  · exact .inl found
  · exact .inr (.inl joined.1)
  · obtain ⟨no_entry,_,blocks,_⟩ := full
    have here := (covered (s.cache.blockAddr addr) (by rw [missed]; exact List.mem_cons_self ..)).1
    rw [blocks] at here
    exact absurd here no_entry
  · obtain ⟨no_entry,room,_,accepted⟩ := started
    rw [backed.sound.maxSize,length_blocks] at room
    refine .inr (.inr ⟨room,?_⟩)
    have once := (covered (s.cache.blockAddr addr) (by rw [missed]; exact List.mem_cons_self ..)).2
    cases accepts with
    | true => rfl
    | false =>
      rw [accepted,if_neg (by decide),List.append_nil,List.count_eq_zero.mpr fun before => no_entry (backed.entries _ before)] at once
      cases once
  · trivial

end

theorem backed_new {config : CacheConfig} {cache : SetAssociativeCache}
    (made : SetAssociativeCache.newSetAssociativeCache config = .ok cache) : (new cache).Backed := by
  have empty : cache.mshr.entries = [] ∧ cache.mshr.maxSize = cache.config.mshrSize.toNat := by
    obtain ⟨_,rfl⟩ := SetAssociativeCache.valid_of_new made
    exact ⟨rfl,rfl⟩
  have none_yet : (new cache).cache.mshr.blocks = [] := congrArg (List.map MSHREntry.address) empty.1
  constructor
  case sound =>
    refine ⟨⟨by rw [none_yet]; exact List.nodup_nil,?_⟩,empty.2,rfl⟩
    rw [← length_blocks,none_yet]
    exact Nat.zero_le _
  case answered =>
    rw [none_yet]
    exact fun block member => absurd member List.not_mem_nil
  case entries => exact fun block member => absurd member List.not_mem_nil
  case missed => exact fun block member => absurd member List.not_mem_nil

/-- In a run of a cache with a lower level there is always one entry for a block, and no more
    than configured; and every miss is covered until its fill exactly when each miss without
    an entry finds room for one and has its request accepted. -/
theorem misses_covered_iff {config : CacheConfig} {cache : SetAssociativeCache}
    (made : SetAssociativeCache.newSetAssociativeCache config = .ok cache) (actions : List Action) :
    (∀ taken ∈ trace step (new cache) actions, taken.2.2.Registered) ∧
    ((∀ taken ∈ trace step (new cache) actions, taken.2.2.Covered) ↔
      ∀ taken ∈ trace step (new cache) actions, taken.1.Admitted taken.2.1) := by
  have backed := backed_new made
  refine ⟨?_,?_⟩
  · exact (@trace_forall_iff _ _ step Sound (fun _ _ s' => s'.Registered) (fun _ _ => True)
      (fun sound stepped => ⟨fun _ => trivial,fun _ => (sound.step stepped).registered⟩)
      (fun sound stepped _ => sound.step stepped) actions _ backed.sound).mpr fun _ _ => trivial
  · exact @trace_forall_iff _ _ step Backed (fun _ _ s' => s'.Covered) Admitted
      (fun backed stepped => covered_step_iff backed stepped) (fun backed stepped admitted => backed.step stepped admitted)
      actions _ backed

/-- A cache of one line, with room for one miss. -/
def oneRegister : CacheConfig where
  numSets := 1
  numWays := 1
  blockSize := 64
  mshrSize := 1
  hitLatency := 4
  fillLatency := 4

def oneRegisterCache : SetAssociativeCache := (SetAssociativeCache.newSetAssociativeCache oneRegister).toOption.get (by decide)

theorem made_oneRegisterCache : SetAssociativeCache.newSetAssociativeCache oneRegister = .ok oneRegisterCache := rfl

/-- Loads of one block, the second while the first is under way. -/
def mergedLoads : List Action :=
  [.access 0 0 1 .load 0 true,.access 8 8 2 .load 1 true,.handleFill 0 9,.access 64 64 3 .load 10 true]

theorem allowed_mergedLoads : (runActions step Admitted mergedLoads (new oneRegisterCache)).isSome = true := by decide +kernel

theorem misses_covered_merged : (runActions step Admitted mergedLoads (new oneRegisterCache)).isSome = true ∧
    ∀ taken ∈ trace step (new oneRegisterCache) mergedLoads, taken.2.2.Covered :=
  ⟨allowed_mergedLoads,
    (misses_covered_iff made_oneRegisterCache mergedLoads).2.mpr (allowed_of_runActions allowed_mergedLoads)⟩

/-- Loads of two blocks, when there is room for one: the second miss has no entry. -/
theorem uncovered_miss : ¬ ∀ taken ∈ trace step (new oneRegisterCache) [.access 0 0 1 .load 0 true,.access 64 64 2 .load 0 true],
    taken.2.2.Covered := by
  intro covered
  have full : ((runActions step (fun _ _ => True) [.access 0 0 1 .load 0 true] (new oneRegisterCache)).bind fun s =>
      s.step (.access 64 64 2 .load 0 true)).map (fun s => (s.missed,s.cache.mshr.blocks)) = some ([64,0],[0]) := by decide +kernel
  obtain ⟨s',ran,same⟩ := Option.map_eq_some_iff.mp full
  obtain ⟨s,before,stepped⟩ := Option.bind_eq_some_iff.mp ran
  obtain ⟨missed,blocks⟩ := Prod.mk.inj same
  have entry := (covered _ (mem_trace_of_run stepped before) 64 (by rw [missed]; decide)).1
  rw [blocks] at entry
  exact absurd entry (by decide)

end CoverageSession
end FlowSim.Cache
