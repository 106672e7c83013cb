import FlowSim.Cache.Snoop

/-!
The set-associative cache with its statistics and its evict callback. The lines are those of
the storage (`storage_step`); every valid line that has to make room for another block is
told to the callback before its way is written (`Replaced`).
-/
namespace FlowSim.Cache
open FlowSim.Lib
set_option linter.unusedSimpArgs false

structure CacheStats where
  hits : UInt64
  misses : UInt64
  accesses : UInt64
  evictions : UInt64
  writebacks : UInt64
deriving DecidableEq, Repr

/-- What the evict callback is told. -/
structure EvictReport where
  addr : UInt64
  state : State
  data : List UInt8
deriving DecidableEq, Repr

/-- The copy of the data of a line without data is empty. -/
def CacheLine.report (line : CacheLine) : EvictReport := { addr := line.addr, state := line.state, data := line.data.getD [] }

/-- The storage, its statistics, and what the callback was told, oldest first. -/
structure ReportingCache where
  storage : Storage
  stats : CacheStats
  reports : List EvictReport
deriving DecidableEq, Repr

/-- The operations on lines, and the reset of the statistics. -/
inductive CacheOp where
  | line (op : LineOp)
  | resetStats

namespace ReportingCache

def noStats : CacheStats := { hits := 0, misses := 0, accesses := 0, evictions := 0, writebacks := 0 }

def newSetAssociativeCache (numSets numWays : Int) (blockSize : UInt64) : ReportingCache :=
  { storage := .newStorage numSets numWays blockSize, stats := noStats, reports := [] }

/-- Tells the callback of the line in a way and takes it away; gives its address and whether
    it has to be written back. -/
def evictWay (c : ReportingCache) (setIdx way : Nat) : (UInt64 × Bool) × ReportingCache :=
  match (c.storage.set setIdx).line way with
  | none => ((0,false),c)
  | some line => ((line.addr,decide (line.state = .modified)),
      { c with storage := c.storage.putLine setIdx way none, reports := c.reports ++ [line.report] })

/-- Writes a way, which is then the one used last. -/
def put (c : ReportingCache) (setIdx way : Nat) (line : Option CacheLine) : ReportingCache :=
  { c with storage := c.storage.use setIdx way line }

def setState (c : ReportingCache) (addr : UInt64) (state : State) : ReportingCache :=
  let setIdx := c.storage.getSetIndex addr
  match c.storage.find addr with
  | some way => c.put setIdx way (((c.storage.set setIdx).line way).map fun line => { line with state })
  | none =>
    let way := (c.storage.set setIdx).findLRUWay
    (c.evictWay setIdx way).2.put setIdx way (some { addr := c.storage.getBlockAddr addr, state, data := none })

def setData (c : ReportingCache) (addr : UInt64) (data : Option (List UInt8)) : ReportingCache :=
  let setIdx := c.storage.getSetIndex addr
  match c.storage.find addr with
  | some way => c.put setIdx way (((c.storage.set setIdx).line way).map fun line =>
      { line with data, state := if data.isSome ∧ line.state = .invalid then .modified else line.state })
  | none =>
    let way := (c.storage.set setIdx).findLRUWay
    (c.evictWay setIdx way).2.put setIdx way (some { addr := c.storage.getBlockAddr addr, state := .modified, data })

def invalidate (c : ReportingCache) (addr : UInt64) : ReportingCache :=
  let setIdx := c.storage.getSetIndex addr
  match c.storage.find addr with
  | some way => { c with
      storage := c.storage.putLine setIdx way none
      reports := c.reports ++ (((c.storage.set setIdx).line way).map fun line =>
        { line.report with addr := c.storage.getBlockAddr addr }).toList }
  | none => c

def handleSnoop (c : ReportingCache) (op : SnoopOpcode) (addr : UInt64) : SnoopResponse × ReportingCache :=
  let (response,storage) := c.storage.handleSnoop op addr
  (response,{ c with storage })

def access (c : ReportingCache) (addr : UInt64) (isWrite : Bool) : AccessResult × ReportingCache :=
  let (result,storage) := c.storage.access addr isWrite
  let stats := { c.stats with accesses := c.stats.accesses + 1 }
  (result,{ c with
    storage
    stats := if result.hit then { stats with hits := stats.hits + 1 } else { stats with misses := stats.misses + 1 } })

def fill (c : ReportingCache) (addr : UInt64) (data : List UInt8) (state : State) : (UInt64 × Bool) × ReportingCache :=
  let blockAddr := c.storage.getBlockAddr addr
  let setIdx := c.storage.getSetIndex addr
  match c.storage.find addr with
  | some way => ((0,false),c.put setIdx way (some { addr := blockAddr, state, data := some data }))
  | none =>
    let way := (c.storage.set setIdx).findLRUWay
    let (evicted,after) := c.evictWay setIdx way
    let evictions := if ((c.storage.set setIdx).line way).isSome then c.stats.evictions + 1 else c.stats.evictions
    let writebacks := if evicted.2 then c.stats.writebacks + 1 else c.stats.writebacks
    (evicted,{ after.put setIdx way (some { addr := blockAddr, state, data := some data }) with
      stats := { c.stats with evictions, writebacks } })

/-- A fill without data leaves an empty slice. -/
def step (c : ReportingCache) : CacheOp → Option ReportingCache
  | .line (.access addr isWrite) => some (c.access addr isWrite).2
  | .line (.fill addr data state) => some (c.fill addr (data.getD []) state).2
  | .line (.setState addr state) => some (c.setState addr state)
  | .line (.setData addr data) => some (c.setData addr data)
  | .line (.invalidate addr) => some (c.invalidate addr)
  | .line (.handleSnoop op addr) => some (c.handleSnoop op addr).2
  | .resetStats => some { c with stats := noStats }

/-! ### The storage -/

section
variable {c c' : ReportingCache} {addr : UInt64} {setIdx way : Nat}

theorem use_putLine (c : Storage) (setIdx way : Nat) (line line' : Option CacheLine) :
    (c.putLine setIdx way line).use setIdx way line' = c.use setIdx way line' := by
  unfold Storage.putLine Storage.use
  simp only [Storage.mk.injEq,true_and,and_true]
  rw [List.modify_modify_eq]
  congr 1
  funext set
  simp only [Function.comp,CacheSet.setLine,List.set_set]

/-- Evicting a line first makes no difference to the way that is written. -/
theorem storage_put_evictWay (c : ReportingCache) (setIdx way : Nat) (line : Option CacheLine) :
    ((c.evictWay setIdx way).2.put setIdx way line).storage = c.storage.use setIdx way line := by
  unfold evictWay
  cases (c.storage.set setIdx).line way with
  | none => rfl
  | some old => exact use_putLine ..

@[simp] theorem storage_setState (c : ReportingCache) (addr : UInt64) (state : State) :
    (c.setState addr state).storage = c.storage.setState addr state := by
  unfold setState Storage.setState
  rcases found : c.storage.find addr with _ | way
  · simp only [storage_put_evictWay]
  · rfl

@[simp] theorem storage_setData (c : ReportingCache) (addr : UInt64) (data : Option (List UInt8)) :
    (c.setData addr data).storage = c.storage.setData addr data := by
  unfold setData Storage.setData
  rcases found : c.storage.find addr with _ | way
  · simp only [storage_put_evictWay]
  · rfl

@[simp] theorem storage_fill (c : ReportingCache) (addr : UInt64) (data : List UInt8) (state : State) :
    (c.fill addr data state).2.storage = (c.storage.fill addr data state).2 := by
  unfold fill Storage.fill
  rcases found : c.storage.find addr with _ | way
  · exact c.storage_put_evictWay ..
  · rfl

@[simp] theorem storage_invalidate (c : ReportingCache) (addr : UInt64) :
    (c.invalidate addr).storage = c.storage.invalidate addr := by
  unfold invalidate Storage.invalidate
  rcases found : c.storage.find addr with _ | way
  · rfl
  · rfl

/-- The operations are those of the storage. -/
theorem storage_step {op : LineOp} (stepped : c.step (.line op) = some c') : c.storage.step op = some c'.storage := by
  cases op with
  | access addr isWrite =>
    rw [← Option.some.inj stepped]
    rfl
  | handleSnoop op addr =>
    rw [← Option.some.inj stepped]
    rfl
  | invalidate addr =>
    rw [← Option.some.inj stepped,storage_invalidate]
    rfl
  | setState addr state =>
    rw [← Option.some.inj stepped,storage_setState]
    rfl
  | setData addr data =>
    rw [← Option.some.inj stepped,storage_setData]
    rfl
  | fill addr data state =>
    rw [← Option.some.inj stepped,storage_fill]
    rfl

/-! ### What is replaced -/

/-- An operation that puts a block into the cache: whatever line has to go is told first and
    its way emptied, then the way is written; every valid line of another block is still
    there, or is the one that was told. -/
structure Replaced (c : ReportingCache) (addr : UInt64) (old : Option CacheLine) (mid : ReportingCache) (way : Nat)
    (line : Option CacheLine) (c' : ReportingCache) : Prop where
  told : mid.reports = c.reports ++ (old.map CacheLine.report).toList
  emptied : ∀ l, old = some l → (c.storage.set (c.storage.getSetIndex addr)).line way = some l ∧
    (mid.storage.set (c.storage.getSetIndex addr)).line way = none
  written : c'.storage = mid.storage.use (c.storage.getSetIndex addr) way line ∧ c'.reports = mid.reports
  others : ∀ other l, c.storage.getBlockAddr other ≠ c.storage.getBlockAddr addr → c.storage.lineOf other = some l →
    c'.storage.lineOf other = some l ∨ old = some l ∧ c'.storage.lineOf other = none

/-- The address of the operations that put a block into the cache. -/
def placing : CacheOp → Option UInt64
  | .line (.fill addr _ _) | .line (.setState addr _) | .line (.setData addr _) => some addr
  | _ => none

theorem reports_evictWay (c : ReportingCache) (setIdx way : Nat) :
    (c.evictWay setIdx way).2.reports = c.reports ++ (((c.storage.set setIdx).line way).map CacheLine.report).toList := by
  unfold evictWay
  rcases (c.storage.set setIdx).line way with _ | l
  · exact (List.append_nil _).symm
  · rfl

/-- The way of a line that was evicted is empty. -/
theorem line_evictWay (wf : c.storage.WellFormed) (inside : setIdx < c.storage.sets.length) (within : way < c.storage.numWays) :
    ((c.evictWay setIdx way).2.storage.set setIdx).line way = none := by
  unfold evictWay
  rcases there : (c.storage.set setIdx).line way with _ | l
  · exact there
  · exact (Storage.wrote_putLine wf inside within).here

section
variable {line : Option CacheLine}

theorem lineOf_used (wf : c.storage.WellFormed) (may : Storage.MayWrite c.storage addr way line) {other : UInt64} {l : CacheLine}
    (different : c.storage.getBlockAddr other ≠ c.storage.getBlockAddr addr) (holds : c.storage.lineOf other = some l) :
    (c.storage.use (c.storage.getSetIndex addr) way line).lineOf other = some l ∨
      c.storage.find addr = none ∧ (c.storage.set (c.storage.getSetIndex addr)).line way = some l ∧
        (c.storage.use (c.storage.getSetIndex addr) way line).lineOf other = none := by
  have wrote := @Storage.wrote_use c.storage _ _ line wf (wf.getSetIndex_lt addr) may.within
  rcases wf.lineOf_wrote_other may wrote different with same | ⟨nowhere,gone,had,_⟩
  · exact .inl (same.trans holds)
  · exact .inr ⟨nowhere,had.symm.trans holds,gone⟩

/-- The block takes the place of the line used least recently. -/
theorem replaced_new (wf : c.storage.WellFormed) (nowhere : c.storage.find addr = none)
    (same : ∀ l, line = some l → l.addr = c.storage.getBlockAddr addr)
    (storage : c'.storage = ((c.evictWay (c.storage.getSetIndex addr)
      (c.storage.set (c.storage.getSetIndex addr)).findLRUWay).2.put (c.storage.getSetIndex addr)
      (c.storage.set (c.storage.getSetIndex addr)).findLRUWay line).storage)
    (reports : c'.reports = (c.evictWay (c.storage.getSetIndex addr)
      (c.storage.set (c.storage.getSetIndex addr)).findLRUWay).2.reports) :
    ∃ old mid way, Replaced c addr old mid way line c' := by
  have here : c.storage.wayFor addr = (c.storage.set (c.storage.getSetIndex addr)).findLRUWay := by
    rw [Storage.wayFor,nowhere]
    rfl
  have may := wf.mayWrite same
  rw [here] at may
  refine ⟨_,_,_,reports_evictWay c _ _,fun l there => ⟨there,line_evictWay wf (wf.getSetIndex_lt addr) may.within⟩,
    ⟨storage,reports⟩,fun other l different holds => ?_⟩
  rw [storage,storage_put_evictWay]
  rcases lineOf_used wf may different holds with kept | ⟨_,had,gone⟩
  · exact .inl kept
  · exact .inr ⟨had,gone⟩

/-- The block has a line, which is written over. -/
theorem replaced_old (wf : c.storage.WellFormed) (found : c.storage.find addr = some way)
    (same : ∀ l, line = some l → l.addr = c.storage.getBlockAddr addr)
    (storage : c'.storage = c.storage.use (c.storage.getSetIndex addr) way line) (reports : c'.reports = c.reports) :
    ∃ old mid way, Replaced c addr old mid way line c' := by
  have may : Storage.MayWrite c.storage addr way line := ⟨wf.find_lt found,.inl found,same⟩
  refine ⟨none,c,way,(List.append_nil _).symm,fun l nothing => absurd nothing (by simp),⟨storage,reports⟩,
    fun other l different holds => ?_⟩
  rw [storage]
  rcases lineOf_used wf may different holds with kept | ⟨nowhere,_⟩
  · exact .inl kept
  · rw [found] at nowhere
    cases nowhere

end

/-- A block's line keeps its address when it is changed. -/
theorem addr_changed {change : CacheLine → CacheLine} (found : c.storage.find addr = some way) (keeps : ∀ l, (change l).addr = l.addr) :
    ∀ l, ((c.storage.set (c.storage.getSetIndex addr)).line way).map change = some l → l.addr = c.storage.getBlockAddr addr := by
  intro l changed
  obtain ⟨old,there,home,_⟩ := Storage.findWay_eq_some found
  rw [there] at changed
  rw [← Option.some.inj changed,keeps,home]

theorem replaced_step (wf : c.storage.WellFormed) {op : CacheOp} (stepped : c.step op = some c') (places : placing op = some addr) :
    ∃ line old mid way, Replaced c addr old mid way line c' := by
  have fresh : ∀ {state : State} {data : Option (List UInt8)} {l : CacheLine},
      some { addr := c.storage.getBlockAddr addr, state, data } = some l → l.addr = c.storage.getBlockAddr addr := by
    intro state data l same
    rw [← Option.some.inj same]
  unfold placing at places
  split at places
  · next at_ data state =>
    cases places
    rw [← Option.some.inj stepped]
    unfold fill
    rcases found : c.storage.find addr with _ | way
    · exact ⟨_,replaced_new wf found (fun l => fresh) rfl rfl⟩
    · exact ⟨_,replaced_old wf found (fun l => fresh) rfl rfl⟩
  · next at_ state =>
    cases places
    rw [← Option.some.inj stepped]
    unfold setState
    rcases found : c.storage.find addr with _ | way
    · exact ⟨_,replaced_new wf found (fun l => fresh) rfl rfl⟩
    · refine ⟨_,replaced_old wf found ?_ rfl rfl⟩
      exact addr_changed found fun _ => rfl
  · next at_ data =>
    cases places
    rw [← Option.some.inj stepped]
    unfold setData
    rcases found : c.storage.find addr with _ | way
    · exact ⟨_,replaced_new wf found (fun l => fresh) rfl rfl⟩
    · refine ⟨_,replaced_old wf found ?_ rfl rfl⟩
      exact addr_changed found fun _ => rfl
  · cases places

/-! ### Whole runs -/

/-- The lines are where their addresses select, on block boundaries, and a block has one at
    most; and the hits and misses are the accesses. -/
structure Represented (c : ReportingCache) : Prop where
  home : ∀ {i way : Nat} {l : CacheLine}, (c.storage.set i).line way = some l → l.state ≠ .invalid →
    c.storage.getSetIndex l.addr = i ∧ c.storage.getBlockAddr l.addr = l.addr
  one : ∀ {i way i' way' : Nat} {l l' : CacheLine}, (c.storage.set i).line way = some l → (c.storage.set i').line way' = some l' →
    l.state ≠ .invalid → l'.state ≠ .invalid → c.storage.getBlockAddr l.addr = c.storage.getBlockAddr l'.addr →
      i = i' ∧ way = way'
  counted : c.stats.hits + c.stats.misses = c.stats.accesses

/-- What every operation keeps. -/
structure Sound (c : ReportingCache) : Prop where
  wf : c.storage.WellFormed
  counted : c.stats.hits + c.stats.misses = c.stats.accesses

theorem Sound.represented (sound : c.Sound) : c.Represented where
  home := sound.wf.home
  one := by
    intro i way i' way' l l' there there' valid valid' same
    have home := sound.wf.home there valid
    have home' := sound.wf.home there' valid'
    rw [home.2,home'.2] at same
    have index : i = i' := by rw [← home.1,← home'.1,same]
    subst index
    exact ⟨rfl,sound.wf.unique there there' valid valid' same⟩
  counted := sound.counted

theorem stats_evictWay (c : ReportingCache) (setIdx way : Nat) : (c.evictWay setIdx way).2.stats = c.stats := by
  unfold evictWay
  split <;> rfl

/-- Only an access counts hits, misses and accesses, and it counts one of the first two. -/
theorem counted_step {op : LineOp} (stepped : c.step (.line op) = some c') (counted : c.stats.hits + c.stats.misses = c.stats.accesses) :
    c'.stats.hits + c'.stats.misses = c'.stats.accesses := by
  cases op with
  | access addr isWrite =>
    rw [← Option.some.inj stepped]
    unfold access
    dsimp only
    split
    · show c.stats.hits + 1 + c.stats.misses = c.stats.accesses + 1
      rw [← counted,UInt64.add_assoc,UInt64.add_comm 1,← UInt64.add_assoc]
    · show c.stats.hits + (c.stats.misses + 1) = c.stats.accesses + 1
      rw [← counted,UInt64.add_assoc]
  | fill addr data state =>
    rw [← Option.some.inj stepped]
    unfold fill
    rcases c.storage.find addr with _ | way
    · exact counted
    · exact counted
  | setState addr state =>
    rw [← Option.some.inj stepped]
    unfold setState
    rcases c.storage.find addr with _ | way
    · show (c.evictWay _ _).2.stats.hits + (c.evictWay _ _).2.stats.misses = (c.evictWay _ _).2.stats.accesses
      rw [stats_evictWay]
      exact counted
    · exact counted
  | setData addr data =>
    rw [← Option.some.inj stepped]
    unfold setData
    rcases c.storage.find addr with _ | way
    · show (c.evictWay _ _).2.stats.hits + (c.evictWay _ _).2.stats.misses = (c.evictWay _ _).2.stats.accesses
      rw [stats_evictWay]
      exact counted
    · exact counted
  | invalidate addr =>
    rw [← Option.some.inj stepped]
    unfold invalidate
    rcases c.storage.find addr with _ | way
    · exact counted
    · exact counted
  | handleSnoop op addr =>
    rw [← Option.some.inj stepped]
    exact counted

theorem Sound.step (sound : c.Sound) {op : CacheOp} (stepped : c.step op = some c') : c'.Sound := by
  cases op with
  | resetStats =>
    rw [← Option.some.inj stepped]
    exact ⟨sound.wf,rfl⟩
  | line op =>
    exact ⟨sound.wf.step (storage_step stepped),counted_step stepped sound.counted⟩

end

/-- For every number of sets and ways, every block size and all operations: every valid line is
    where its address selects and alone has its block, hits and misses are the accesses, and
    a fill, a set state or a set data tells the callback of the line it replaces, once and
    before it is written over. -/
theorem represented_and_told (numSets numWays : Int) (blockSize : UInt64) (c : ReportingCache)
    (reached : Reachable step (newSetAssociativeCache numSets numWays blockSize) c) :
    c.Represented ∧ ∀ op c' addr, c.step op = some c' → placing op = some addr →
      ∃ line old mid way, Replaced c addr old mid way line c' := by
  have sound : c.Sound := by
    refine reached.invariant ⟨Storage.wellFormed_new numSets numWays blockSize,rfl⟩ ?_
    exact fun op sound _ stepped => sound.step stepped
  exact ⟨sound.represented,fun op c' addr stepped places => replaced_step sound.wf stepped places⟩

/-- A cache of one line: the fill of another block tells of the modified line that has to go. -/
theorem represented_and_told_replaced : ∃ c c' : ReportingCache, Reachable step (newSetAssociativeCache 1 1 16) c ∧
    c.step (.line (.fill 32 none .shared)) = some c' ∧ c'.reports = [⟨0,.modified,[7]⟩] ∧ c.Represented ∧
    ∃ line old mid way, Replaced c 32 old mid way line c' := by
  let before : List CacheOp := [.line (.fill 5 (some [7]) .exclusive),.line (.access 3 true)]
  have ends : ((runActions step (fun _ _ => True) before (newSetAssociativeCache 1 1 16)).bind fun c =>
      (c.step (.line (.fill 32 none .shared))).map ReportingCache.reports) = some [⟨0,.modified,[7]⟩] := by decide +kernel
  obtain ⟨c,ran,last⟩ := Option.bind_eq_some_iff.mp ends
  obtain ⟨c',stepped,told⟩ := Option.map_eq_some_iff.mp last
  have reached := reaches_runActions before ran
  obtain ⟨represented,replaced⟩ := represented_and_told 1 1 16 c reached
  exact ⟨c,c',reached,stepped,told,represented,replaced _ c' 32 stepped rfl⟩

end ReportingCache
end FlowSim.Cache
