import FlowSim.Cache.Snoop

/-!
The fully associative cache: a bounded map from addresses to lines, which gives up a line
chosen at random when it is full; an operation that may allocate is given the victim, and
fails when the victim is no line. Accesses and fills go to the block of their address, all
other operations to the address itself. `snoop_contract_iff` tells for which snoops it and
the set-associative storage honour one contract, and when they answer alike.
-/
namespace FlowSim.Cache
open FlowSim.Lib
set_option linter.unusedSimpArgs false

/-- The lock, the random number generator, the evict callback and the statistics are left
    out. -/
structure FullyAssociativeCache where
  capacity : Nat
  lines : AList (fun _ : UInt64 => CacheLine)
  blockSize : UInt64

namespace FullyAssociativeCache

/-- A cache of 64 lines unless another capacity is given, and of blocks of 64 bytes. -/
def newFullyAssociativeCache (capacity : Int) : FullyAssociativeCache where
  capacity := if capacity ≤ 0 then 64 else capacity.toNat
  lines := ∅
  blockSize := 64

def newFullyAssociativeCacheWithBlockSize (capacity : Int) (blockSize : UInt64) : FullyAssociativeCache :=
  { newFullyAssociativeCache capacity with blockSize }

def getState (c : FullyAssociativeCache) (addr : UInt64) : State := (c.lines.lookup addr).elim .invalid CacheLine.state

/-- The data of a line that is not invalid. -/
def getData (c : FullyAssociativeCache) (addr : UInt64) : Option (List UInt8) :=
  ((c.lines.lookup addr).filter fun line => line.state ≠ .invalid).bind CacheLine.data

def isPresent (c : FullyAssociativeCache) (addr : UInt64) : Bool := (c.lines.lookup addr).isSome

def putLine (c : FullyAssociativeCache) (addr : UInt64) (line : CacheLine) : FullyAssociativeCache :=
  { c with lines := c.lines.insert addr line }

/-- Gives up the victim, with its address and whether it has to be written back. -/
def evictOne (c : FullyAssociativeCache) (victim : UInt64) : Option ((UInt64 × Bool) × FullyAssociativeCache) :=
  (c.lines.lookup victim).map fun line => ((victim,decide (line.state = .modified)),{ c with lines := c.lines.erase victim })

def ensureCapacity (c : FullyAssociativeCache) (victim : UInt64) : Option FullyAssociativeCache :=
  if c.lines.keys.length < c.capacity then some c else (c.evictOne victim).map Prod.snd

def setState (c : FullyAssociativeCache) (victim addr : UInt64) (state : State) : Option FullyAssociativeCache :=
  match c.lines.lookup addr with
  | none => (c.ensureCapacity victim).map fun c => c.putLine addr { addr, state, data := none }
  | some line => some (c.putLine addr { line with state })

def setData (c : FullyAssociativeCache) (victim addr : UInt64) (data : Option (List UInt8)) : Option FullyAssociativeCache :=
  match c.lines.lookup addr with
  | none => (c.ensureCapacity victim).map fun c => c.putLine addr { addr, state := .modified, data }
  | some line => some (c.putLine addr
      { line with data, state := if data.isSome ∧ line.state = .invalid then .modified else line.state })

def invalidate (c : FullyAssociativeCache) (addr : UInt64) : FullyAssociativeCache := { c with lines := c.lines.erase addr }

/-- The block of an address; none when the code divides by zero. -/
def getBlockAddr (c : FullyAssociativeCache) (addr : UInt64) : Option UInt64 :=
  if c.blockSize = 0 then none else some (addr / c.blockSize * c.blockSize)

def access (c : FullyAssociativeCache) (addr : UInt64) (isWrite : Bool) : Option (AccessResult × FullyAssociativeCache) :=
  (c.getBlockAddr addr).map fun blockAddr =>
    match (c.lines.lookup blockAddr).filter fun line => line.state ≠ .invalid with
    | none => ({ hit := false, data := none, needFill := true, oldState := .invalid, newState := .invalid, writeback := false },c)
    | some line =>
      let newState := if isWrite then .modified else line.state
      ({ hit := true, data := line.data, needFill := false, oldState := line.state, newState, writeback := false },
        c.putLine blockAddr { line with state := newState })

/-- A fill over a line keeps the slice it is given; one for a new line copies it. -/
def fill (c : FullyAssociativeCache) (victim addr : UInt64) (data : Option (List UInt8)) (state : State) :
    Option ((UInt64 × Bool) × FullyAssociativeCache) :=
  (c.getBlockAddr addr).bind fun blockAddr =>
    match c.lines.lookup blockAddr with
    | some line => some ((0,false),c.putLine blockAddr { line with data, state })
    | none =>
      (if c.capacity ≤ c.lines.keys.length then c.evictOne victim else some ((0,false),c)).map fun (evicted,c) =>
        (evicted,c.putLine blockAddr { addr := blockAddr, state, data := some (data.getD []) })

/-- The answer does not depend on the opcode; a line that can be forwarded is shared then. -/
def handleSnoop (c : FullyAssociativeCache) (_op : SnoopOpcode) (addr : UInt64) : SnoopResponse × FullyAssociativeCache :=
  match (c.lines.lookup addr).filter fun line => line.state ≠ .invalid with
  | none => ({ responseOpcode := 0, data := none, hasData := false },c)
  | some line =>
    let shouldProvideData := line.state = .modified ∨ line.state = .exclusive ∨ line.state = .owned
    if shouldProvideData then
      ({ responseOpcode := 1, data := line.data, hasData := true },c.putLine addr { line with state := .shared })
    else ({ responseOpcode := 1, data := none, hasData := false },c)

/-- An operation, and the line that goes when there is no room. -/
def step (c : FullyAssociativeCache) : LineOp × UInt64 → Option FullyAssociativeCache
  | (.access addr isWrite,_) => (c.access addr isWrite).map Prod.snd
  | (.fill addr data state,victim) => (c.fill victim addr data state).map Prod.snd
  | (.setState addr state,victim) => c.setState victim addr state
  | (.setData addr data,victim) => c.setData victim addr data
  | (.invalidate addr,_) => some (c.invalidate addr)
  | (.handleSnoop op addr,_) => some (c.handleSnoop op addr).2

/-! ### States of the lines -/

section
variable {c c' : FullyAssociativeCache} {victim addr x : UInt64} {state : State} {line : CacheLine}

theorem getState_putLine : (c.putLine addr line).getState x = if x = addr then line.state else c.getState x := by
  unfold getState putLine
  by_cases same : x = addr
  · subst same
    rw [if_pos rfl,AList.lookup_insert]
    rfl
  · rw [if_neg same,AList.lookup_insert_ne same]

/-- The line of an address is kept, unless it goes as the victim. -/
def Spares (c : FullyAssociativeCache) (victim x : UInt64) (c' : FullyAssociativeCache) : Prop :=
  c'.lines.lookup x = c.lines.lookup x ∨ x = victim ∧ c'.lines.lookup x = none

theorem Spares.getState (spares : c.Spares victim x c') : c'.getState x = c.getState x ∨ c'.getState x = .invalid := by
  unfold FullyAssociativeCache.getState
  rcases spares with same | ⟨-,gone⟩
  · exact .inl (by rw [same])
  · exact .inr (by rw [gone]; rfl)

theorem spares_ensureCapacity (made : c.ensureCapacity victim = some c') (x : UInt64) : c.Spares victim x c' := by
  unfold ensureCapacity at made
  split at made
  · obtain rfl := Option.some.inj made
    exact .inl rfl
  · obtain ⟨⟨evicted,rest⟩,evictedOne,rfl⟩ := Option.map_eq_some_iff.mp made
    obtain ⟨line,-,same⟩ := Option.map_eq_some_iff.mp evictedOne
    obtain ⟨-,rfl⟩ := Prod.mk.inj same
    by_cases here : x = victim
    · subst here
      exact .inr ⟨rfl,AList.lookup_erase ..⟩
    · exact .inl (AList.lookup_erase_ne here)

/-- What setting the line of an address keeps, with room made for it or in its place. -/
theorem spares_putLine {x : UInt64} (other : x ≠ addr) (spares : c.Spares victim x c') :
    c.Spares victim x (c'.putLine addr line) := by
  have same : (c'.putLine addr line).lines.lookup x = c'.lines.lookup x := AList.lookup_insert_ne other
  rwa [Spares,same]

theorem setState_spec (set : c.setState victim addr state = some c') :
    (∃ line, c'.lines.lookup addr = some line ∧ line.state = state ∧
      ∀ old, c.lines.lookup addr = some old → line.data = old.data) ∧ ∀ x ≠ addr, c.Spares victim x c' := by
  unfold setState at set
  split at set
  · next absent =>
    obtain ⟨room,made,rfl⟩ := Option.map_eq_some_iff.mp set
    exact ⟨⟨_,AList.lookup_insert ..,rfl,fun old found => by rw [absent] at found; cases found⟩,
      fun x other => spares_putLine other (spares_ensureCapacity made x)⟩
  · next old found =>
    obtain rfl := Option.some.inj set
    exact ⟨⟨_,AList.lookup_insert ..,rfl,fun old' found' => by rw [Option.some.inj (found.symm.trans found')]⟩,
      fun x other => spares_putLine other (.inl rfl)⟩

theorem setData_spec {data : Option (List UInt8)} (set : c.setData victim addr data = some c') :
    (∃ line, c'.lines.lookup addr = some line ∧ line.data = data) ∧ ∀ x ≠ addr, c.Spares victim x c' := by
  unfold setData at set
  split at set
  · obtain ⟨room,made,rfl⟩ := Option.map_eq_some_iff.mp set
    exact ⟨⟨_,AList.lookup_insert ..,rfl⟩,fun x other => spares_putLine other (spares_ensureCapacity made x)⟩
  · obtain rfl := Option.some.inj set
    exact ⟨⟨_,AList.lookup_insert ..,rfl⟩,fun x other => spares_putLine other (.inl rfl)⟩

/-- Installing a line may take another away. -/
theorem install_spec {c'' : FullyAssociativeCache} {data : Option (List UInt8)} (filled : c.setData victim addr data = some c')
    (set : c'.setState victim addr state = some c'') :
    (∃ line, c''.lines.lookup addr = some line ∧ line.state = state ∧ line.data = data) ∧
      ∀ x ≠ addr, c.Spares victim x c'' := by
  obtain ⟨⟨old,found,data_eq⟩,first⟩ := setData_spec filled
  obtain ⟨⟨line,there,state_eq,kept⟩,second⟩ := setState_spec set
  refine ⟨⟨line,there,state_eq,(kept old found).trans data_eq⟩,fun x other => ?_⟩
  rcases second x other with same | gone
  · rw [Spares,same]
    exact first x other
  · exact .inr gone

end

/-! ### What the cache answers -/

section
variable (c : FullyAssociativeCache)

theorem lookup_putLine (addr : UInt64) (line : CacheLine) : (c.putLine addr line).lines.lookup addr = some line :=
  AList.lookup_insert ..

/-- Whatever the opcode, a valid line is shared after a snoop, and gives its data unless it was
    shared before. -/
theorem handleSnoop_spec (op : SnoopOpcode) (addr : UInt64) :
    (c.handleSnoop op addr).2.getState addr = (if c.getState addr = .invalid then .invalid else .shared) ∧
    (c.handleSnoop op addr).1 =
      if c.getState addr = .invalid then { responseOpcode := 0, data := none, hasData := false }
      else if c.getState addr = .shared then { responseOpcode := 1, data := none, hasData := false }
      else { responseOpcode := 1, data := c.getData addr, hasData := true } := by
  cases held : c.lines.lookup addr with
  | none =>
    have state : c.getState addr = .invalid := by
      rw [getState,held]
      rfl
    have answered : c.handleSnoop op addr = ({ responseOpcode := 0, data := none, hasData := false },c) := by
      rw [handleSnoop,held]
      rfl
    rw [answered,state]
    exact ⟨rfl,rfl⟩
  | some line =>
    have state : c.getState addr = line.state := by
      rw [getState,held]
      rfl
    by_cases invalid : line.state = .invalid
    · have none_valid : (some line).filter (fun line : CacheLine => line.state ≠ .invalid) = none := by
        simp [Option.filter,invalid]
      have answered : c.handleSnoop op addr = ({ responseOpcode := 0, data := none, hasData := false },c) := by
        rw [handleSnoop,held,none_valid]
      rw [answered,state,invalid]
      exact ⟨rfl,rfl⟩
    · have is_valid : (some line).filter (fun line : CacheLine => line.state ≠ .invalid) = some line := by
        simp [Option.filter,invalid]
      have data : c.getData addr = line.data := by
        rw [getData,held,is_valid]
        rfl
      rw [if_neg (by rw [state]; exact invalid),if_neg (by rw [state]; exact invalid),data,state]
      unfold handleSnoop
      rw [held,is_valid]
      dsimp only
      by_cases shared : line.state = .shared
      · rw [if_neg (by rw [shared]; decide),if_pos shared]
        exact ⟨state.trans shared,rfl⟩
      · have forwards : line.state = .modified ∨ line.state = .exclusive ∨ line.state = .owned := by
          cases at_ : line.state <;> simp_all
        rw [if_pos forwards,if_neg shared]
        refine ⟨?_,rfl⟩
        rw [getState,lookup_putLine]
        rfl

/-- The contract of a snoop of the cache. -/
def HonoursSnoop (op : SnoopOpcode) (addr : UInt64) : Prop :=
  Honours op (c.lines.lookup addr) (c.handleSnoop op addr).1 ((c.handleSnoop op addr).2.getState addr)

/-- The cache honours a snoop unless it is to invalidate a line that is there. -/
theorem honours_iff (op : SnoopOpcode) (addr : UInt64) :
    c.HonoursSnoop op addr ↔ (op.Invalidating → c.getState addr = .invalid) := by
  obtain ⟨after,answer⟩ := c.handleSnoop_spec op addr
  unfold HonoursSnoop
  rw [after,answer]
  constructor
  · intro honours invalidating
    by_contra valid
    have gone := honours.invalidated invalidating
    rw [if_neg valid] at gone
    cases gone
  · intro none_to_invalidate
    constructor
    case invalidated => exact fun invalidating => if_pos (none_to_invalidate invalidating)
    case downgraded =>
      intro _
      split_ifs <;> decide
    case returned =>
      intro line held dirty data has _
      have state : c.getState addr = line.state := by
        rw [getState,held]
        rfl
      have dirty_state : line.state ≠ .invalid ∧ line.state ≠ .shared := by
        rcases dirty with modified | owned
        · rw [modified]
          decide
        · rw [owned]
          decide
      have lineData : c.getData addr = some data := by
        rw [getData,held]
        simp [Option.filter,dirty_state.1,has]
      rw [if_neg (by rw [state]; exact dirty_state.1),if_neg (by rw [state]; exact dirty_state.2)]
      exact ⟨rfl,lineData⟩

end

end FullyAssociativeCache

/-! ### One contract -/

section
variable {c₁ : FullyAssociativeCache} {c₂ : Storage} {op : SnoopOpcode} {addr : UInt64}

/-- For one state and one data, the answers are the same when there is no line, or when the
    storage gives its data away. -/
theorem answers_alike_iff (wf : c₂.WellFormed) (sameState : c₁.getState addr = c₂.getState addr)
    (sameData : c₁.getData addr = c₂.getData addr) : (c₁.handleSnoop op addr).1 = (c₂.handleSnoop op addr).1 ↔
      c₂.getState addr = .invalid ∨ Storage.Known op ∧ Storage.Gives (c₂.getState addr) ∧ (c₂.getData addr).isSome = true := by
  rw [(c₁.handleSnoop_spec op addr).2,(wf.handleSnoop op addr).2,sameState,sameData]
  by_cases invalid : c₂.getState addr = .invalid
  · rw [if_pos invalid,if_neg fun all => by rw [invalid] at all; exact absurd all.2.1 (by decide)]
    exact ⟨fun _ => .inl invalid,fun _ => rfl⟩
  · rw [if_neg invalid,or_iff_right invalid]
    by_cases given : Storage.Known op ∧ Storage.Gives (c₂.getState addr) ∧ (c₂.getData addr).isSome = true
    · have not_shared : c₂.getState addr ≠ .shared := by
        intro shared
        rw [shared] at given
        exact absurd given.2.1 (by decide)
      rw [if_neg not_shared,if_pos given]
      exact ⟨fun _ => given,fun _ => rfl⟩
    · rw [if_neg given]
      refine ⟨fun same => ?_,fun all => absurd all given⟩
      have opcodes := congrArg SnoopResponse.responseOpcode same
      split_ifs at opcodes <;> cases opcodes

/-- For every fully associative cache, and for every set-associative storage that any
    operations lead to: when they honour the contract of a snoop, and when, for a line with
    the same state and data, they answer it alike. -/
theorem snoop_contract_iff {numSets numWays : Int} {blockSize : UInt64}
    (reached : Reachable Storage.step (.newStorage numSets numWays blockSize) c₂) (c₁ : FullyAssociativeCache)
    (op : SnoopOpcode) (addr : UInt64) :
    (c₁.HonoursSnoop op addr ↔ (op.Invalidating → c₁.getState addr = .invalid)) ∧
    (c₂.HonoursSnoop op addr ↔
      ¬ (Storage.Known op ∧ c₂.getState addr = .owned ∧ (c₂.getData addr).isSome = true) ∧
        (op = .upgrade → c₂.getState addr = .invalid)) ∧
    (c₁.getState addr = c₂.getState addr → c₁.getData addr = c₂.getData addr →
      ((c₁.handleSnoop op addr).1 = (c₂.handleSnoop op addr).1 ↔
        c₂.getState addr = .invalid ∨ Storage.Known op ∧ Storage.Gives (c₂.getState addr) ∧ (c₂.getData addr).isSome = true)) := by
  have wf : c₂.WellFormed := reached.invariant (Storage.wellFormed_new ..) fun _ wf _ stepped => wf.step stepped
  exact ⟨c₁.honours_iff op addr,wf.honours_iff op addr,answers_alike_iff wf⟩

end

/-- A modified line with data, in either cache. -/
def modifiedLine : LineOp := .fill 0 (some [7]) .modified

/-- Both caches then give the data to a reader. -/
theorem read_of_modified : ∃ c₁ c₂, Reachable FullyAssociativeCache.step (.newFullyAssociativeCache 1) c₁ ∧
    Reachable Storage.step (.newStorage 1 1 64) c₂ ∧ c₁.HonoursSnoop .read 0 ∧ c₂.HonoursSnoop .read 0 ∧
    (c₁.handleSnoop .read 0).1 = (c₂.handleSnoop .read 0).1 := by
  have filled₁ : ((FullyAssociativeCache.newFullyAssociativeCache 1).step (modifiedLine,0)).map (fun c => (c.getState 0,c.getData 0)) =
      some (.modified,some [7]) := by decide +kernel
  have filled₂ : ((Storage.newStorage 1 1 64).step modifiedLine).map (fun c => (c.getState 0,c.getData 0)) =
      some (.modified,some [7]) := by decide +kernel
  obtain ⟨c₁,stepped₁,same₁⟩ := Option.map_eq_some_iff.mp filled₁
  obtain ⟨c₂,stepped₂,same₂⟩ := Option.map_eq_some_iff.mp filled₂
  obtain ⟨state₁,data₁⟩ := Prod.mk.inj same₁
  obtain ⟨state₂,data₂⟩ := Prod.mk.inj same₂
  have reached : Reachable Storage.step (.newStorage 1 1 64) c₂ := Reaches.refl.step modifiedLine trivial stepped₂
  obtain ⟨honours₁,honours₂,alike⟩ := snoop_contract_iff reached c₁ .read 0
  refine ⟨c₁,c₂,Reaches.refl.step (modifiedLine,0) trivial stepped₁,reached,?_,?_,?_⟩
  · exact honours₁.mpr fun invalidating => absurd invalidating (by decide)
  · refine honours₂.mpr ⟨?_,fun upgrade => absurd upgrade (by decide)⟩
    rw [state₂]
    exact fun lost => absurd lost.2.1 (by decide)
  · refine (alike (state₁.trans state₂.symm) (data₁.trans data₂.symm)).mpr (.inr ?_)
    rw [state₂,data₂]
    decide

/-- A line of the fully associative cache outlives an invalidating snoop. -/
theorem line_not_invalidated : ¬ ∀ c, Reachable FullyAssociativeCache.step (.newFullyAssociativeCache 1) c →
    c.HonoursSnoop .invalidate 0 := by
  intro honours
  have filled : ((FullyAssociativeCache.newFullyAssociativeCache 1).step (modifiedLine,0)).map (fun c => c.getState 0) =
      some .modified := by decide +kernel
  obtain ⟨c,stepped,state⟩ := Option.map_eq_some_iff.mp filled
  have gone := (c.honours_iff .invalidate 0).mp (honours c (Reaches.refl.step (modifiedLine,0) trivial stepped)) (by decide)
  rw [state] at gone
  cases gone

end FlowSim.Cache
