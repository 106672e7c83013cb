import FlowSim.Cache.Lookup
import FlowSim.Lib.Transition

/-!
Snoops: what another cache asks of the line of a block, and what the set-associative
storage answers. The contract of a snoop (`Honours`) is stated for any cache, by the line
before and the state after.
-/
namespace FlowSim.Cache
open FlowSim.Lib
set_option linter.unusedSimpArgs false

/-! ### Opcodes and states -/

inductive SnoopOpcode where
  | read
  | readX
  | invalidate
  | upgrade
  | writeback
  | other (opcode : Int)
deriving DecidableEq, Repr

def snoopResponseNoData : Int := 0
def snoopResponseData : Int := 1

structure SnoopResponse where
  responseOpcode : Int
  data : Option (List UInt8)
  hasData : Bool
deriving DecidableEq, Repr

def noDataResponse : SnoopResponse := { responseOpcode := snoopResponseNoData, data := none, hasData := false }

/-- The state after a read snoop, and whether to provide the data. -/
def mesiHandleReadSnoop : State → State × Bool
  | .modified => (.shared,true)
  | .exclusive => (.shared,true)
  | .shared => (.shared,false)
  | .invalid => (.invalid,false)
  | .owned => (.invalid,false)

/-- The same for a snoop of a writer. -/
def mesiHandleWriteSnoop : State → State × Bool
  | .modified => (.invalid,true)
  | .exclusive => (.invalid,true)
  | .shared => (.invalid,false)
  | .invalid => (.invalid,false)
  | .owned => (.invalid,false)

/-! ### The contract -/

def SnoopOpcode.Invalidating (op : SnoopOpcode) : Prop := op = .readX ∨ op = .invalidate ∨ op = .upgrade

instance (op : SnoopOpcode) : Decidable op.Invalidating := inferInstanceAs (Decidable (_ ∨ _ ∨ _))

def CacheLine.Dirty (line : CacheLine) : Prop := line.state = .modified ∨ line.state = .owned

instance (line : CacheLine) : Decidable line.Dirty := inferInstanceAs (Decidable (_ ∨ _))

/-- The line is invalid after an invalidating snoop, and neither exclusive nor modified after
    a read; and a dirty line with data that does not keep its state gives its data away. -/
structure Honours (op : SnoopOpcode) (before : Option CacheLine) (response : SnoopResponse) (after : State) : Prop where
  invalidated : op.Invalidating → after = .invalid
  downgraded : op = .read → after ≠ .exclusive ∧ after ≠ .modified
  returned : ∀ line, before = some line → line.Dirty → ∀ data, line.data = some data → after ≠ line.state →
    response.hasData = true ∧ response.data = some data

/-! ### The set-associative storage -/

/-- The operations on a cache that hold, change or take away lines. -/
inductive LineOp where
  | access (addr : UInt64) (isWrite : Bool)
  | fill (addr : UInt64) (data : Option (List UInt8)) (state : State)
  | setState (addr : UInt64) (state : State)
  | setData (addr : UInt64) (data : Option (List UInt8))
  | invalidate (addr : UInt64)
  | handleSnoop (op : SnoopOpcode) (addr : UInt64)

namespace Storage

/-- Writes a way without using it. -/
def putLine (c : Storage) (setIdx way : Nat) (line : Option CacheLine) : Storage :=
  { c with sets := c.sets.modify setIdx (fun set => set.setLine way line) }

def getData (c : Storage) (addr : UInt64) : Option (List UInt8) := (c.lineOf addr).bind CacheLine.data

/-- Sets the state of a block; one that has no line gets a line without data, in the place
    of the line used least recently. -/
def setState (c : Storage) (addr : UInt64) (state : State) : Storage :=
  let setIdx := c.getSetIndex addr
  match c.find addr with
  | some way => c.use setIdx way (((c.set setIdx).line way).map fun line => { line with state })
  | none => c.use setIdx (c.set setIdx).findLRUWay (some { addr := c.getBlockAddr addr, state, data := none })

/-- Sets the data of a block, whose line is made modified if it is new. -/
def setData (c : Storage) (addr : UInt64) (data : Option (List UInt8)) : Storage :=
  let setIdx := c.getSetIndex addr
  match c.find addr with
  | some way => c.use setIdx way (((c.set setIdx).line way).map fun line =>
      { line with data, state := if data.isSome ∧ line.state = .invalid then .modified else line.state })
  | none => c.use setIdx (c.set setIdx).findLRUWay (some { addr := c.getBlockAddr addr, state := .modified, data })

def invalidate (c : Storage) (addr : UInt64) : Storage :=
  match c.find addr with
  | some way => c.putLine (c.getSetIndex addr) way none
  | none => c

/-- Moves the line to the new state, or takes it away; the data is provided if it is there. -/
def snooped (c : Storage) (addr : UInt64) (way : Nat) (line : CacheLine) (next : State × Bool) : SnoopResponse × Storage :=
  let (newState,shouldProvideData) := next
  let response := if shouldProvideData ∧ line.data.isSome then
    { responseOpcode := snoopResponseData, data := line.data, hasData := true } else noDataResponse
  (response,c.putLine (c.getSetIndex addr) way (if newState = .invalid then none else some { line with state := newState }))

/-- Opcodes other than those of reads, exclusive reads and invalidations are not known. -/
def handleSnoop (c : Storage) (op : SnoopOpcode) (addr : UInt64) : SnoopResponse × Storage :=
  match (c.find addr).bind (fun way => ((c.set (c.getSetIndex addr)).line way).map (fun line => (way,line))) with
  | none => (noDataResponse,c)
  | some (way,line) =>
    match op with
    | .read => c.snooped addr way line (mesiHandleReadSnoop line.state)
    | .readX | .invalidate => c.snooped addr way line (mesiHandleWriteSnoop line.state)
    | _ => (noDataResponse,c)

/-- A fill without data leaves an empty slice. -/
def step (c : Storage) : LineOp → Option Storage
  | .access addr isWrite => some (c.access addr isWrite).2
  | .fill addr data state => some (c.fill addr (data.getD []) state).2
  | .setState addr state => some (c.setState addr state)
  | .setData addr data => some (c.setData addr data)
  | .invalidate addr => some (c.invalidate addr)
  | .handleSnoop op addr => some (c.handleSnoop op addr).2

/-! ### The lines stay in order -/

section
variable {c c' : Storage} {addr : UInt64} {line : Option CacheLine}

theorem wrote_putLine {i way : Nat} (wf : c.WellFormed) (inside : i < c.sets.length) (within : way < c.numWays) :
    Wrote c (c.putLine i way line) i way line := by
  refine wrote_modify wf inside within _ ?_ ?_ c.lruClock
  · intro set
    exact ⟨List.length_set,rfl⟩
  · intro set w
    rfl

theorem WellFormed.used (wf : c.WellFormed) (same : ∀ l, line = some l → l.addr = c.getBlockAddr addr) :
    (c.use (c.getSetIndex addr) (c.wayFor addr) line).WellFormed := by
  have may := wf.mayWrite same
  exact wf.wrote may (wrote_use wf (wf.getSetIndex_lt addr) may.within)

theorem WellFormed.used_new (wf : c.WellFormed) (nowhere : c.find addr = none)
    (same : ∀ l, line = some l → l.addr = c.getBlockAddr addr) :
    (c.use (c.getSetIndex addr) (c.set (c.getSetIndex addr)).findLRUWay line).WellFormed := by
  have way : c.wayFor addr = (c.set (c.getSetIndex addr)).findLRUWay := by
    rw [wayFor,nowhere]
    rfl
  rw [← way]
  exact wf.used same

theorem WellFormed.used_old {way : Nat} {change : CacheLine → CacheLine} (wf : c.WellFormed) (found : c.find addr = some way)
    (same : ∀ l, (change l).addr = l.addr) :
    (c.use (c.getSetIndex addr) way (((c.set (c.getSetIndex addr)).line way).map change)).WellFormed := by
  obtain ⟨l,there,home,_⟩ := findWay_eq_some found
  have here : c.wayFor addr = way := by
    rw [wayFor,found]
    rfl
  rw [← here]
  refine wf.used ?_
  rw [here,there]
  intro l' equal
  rw [← Option.some.inj equal,same,home]

/-- A snoop finds no line and changes nothing, or its opcode decides what becomes of the line. -/
theorem handleSnoop_cases (c : Storage) (op : SnoopOpcode) (addr : UInt64) :
    (c.find addr = none ∧ c.handleSnoop op addr = (noDataResponse,c)) ∨
    ∃ way line, c.find addr = some way ∧ (c.set (c.getSetIndex addr)).line way = some line ∧ line.addr = c.getBlockAddr addr ∧
      line.state ≠ .invalid ∧ c.handleSnoop op addr =
        match op with
        | .read => c.snooped addr way line (mesiHandleReadSnoop line.state)
        | .readX | .invalidate => c.snooped addr way line (mesiHandleWriteSnoop line.state)
        | _ => (noDataResponse,c) := by
  unfold handleSnoop
  cases found : c.find addr with
  | none => exact .inl ⟨rfl,rfl⟩
  | some way =>
    obtain ⟨line,there,same,valid⟩ := findWay_eq_some found
    refine .inr ⟨way,line,rfl,there,same,valid,?_⟩
    rw [Option.bind_some,there]
    rfl

/-- The block of a snoop then has the line that was put, and the lines stay in order. -/
theorem WellFormed.putLine {way : Nat} (wf : c.WellFormed) (found : c.find addr = some way)
    (same : ∀ l, line = some l → l.addr = c.getBlockAddr addr) :
    (c.putLine (c.getSetIndex addr) way line).WellFormed ∧
      (c.putLine (c.getSetIndex addr) way line).lineOf addr = line.filter fun l => l.state ≠ .invalid := by
  have may : MayWrite c addr way line := ⟨wf.find_lt found,.inl found,same⟩
  have wrote : Wrote c (c.putLine (c.getSetIndex addr) way line) (c.getSetIndex addr) way line :=
    wrote_putLine wf (wf.getSetIndex_lt addr) may.within
  exact ⟨wf.wrote may wrote,wf.lineOf_wrote may wrote rfl⟩

theorem WellFormed.snooped {way : Nat} {l : CacheLine} (wf : c.WellFormed) (found : c.find addr = some way)
    (same : l.addr = c.getBlockAddr addr) (next : State × Bool) :
    (c.snooped addr way l next).2.WellFormed ∧ (c.snooped addr way l next).2.getState addr = next.1 := by
  have home : ∀ l', (if next.1 = .invalid then none else some { l with state := next.1 }) = some l' →
      l'.addr = c.getBlockAddr addr := by
    intro l' equal
    split_ifs at equal
    rw [← Option.some.inj equal]
    exact same
  have put := wf.putLine found home
  refine ⟨put.1,?_⟩
  show ((c.putLine _ way _).lineOf addr).elim State.invalid CacheLine.state = next.1
  rw [put.2]
  by_cases gone : next.1 = .invalid
  · rw [if_pos gone,gone]
    rfl
  · rw [if_neg gone,Option.filter_some_pos]
    · rfl
    · exact decide_eq_true gone

theorem WellFormed.step (wf : c.WellFormed) {op : LineOp} (stepped : c.step op = some c') : c'.WellFormed := by
  cases op with
  | access addr isWrite =>
    obtain rfl := Option.some.inj stepped
    exact (wf.access addr isWrite).1
  | fill addr data state =>
    obtain rfl := Option.some.inj stepped
    rw [fill_eq]
    exact wf.used fun l same => by rw [← Option.some.inj same]
  | setState addr state =>
    obtain rfl := Option.some.inj stepped
    unfold setState
    cases found : c.find addr with
    | none => exact wf.used_new found fun l same => by rw [← Option.some.inj same]
    | some way => exact wf.used_old found fun _ => rfl
  | setData addr data =>
    obtain rfl := Option.some.inj stepped
    unfold setData
    cases found : c.find addr with
    | none => exact wf.used_new found fun l same => by rw [← Option.some.inj same]
    | some way => exact wf.used_old found fun _ => rfl
  | invalidate addr =>
    obtain rfl := Option.some.inj stepped
    unfold invalidate
    cases found : c.find addr with
    | none => exact wf
    | some way => exact (wf.putLine found fun _ none_given => by cases none_given).1
  | handleSnoop op addr =>
    obtain rfl := Option.some.inj stepped
    rcases c.handleSnoop_cases op addr with ⟨_,nothing⟩ | ⟨way,line,found,_,same,_,done⟩
    · rw [nothing]
      exact wf
    · rw [done]
      cases op with
      | read => exact (wf.snooped found same _).1
      | readX => exact (wf.snooped found same _).1
      | invalidate => exact (wf.snooped found same _).1
      | upgrade => exact wf
      | writeback => exact wf
      | other => exact wf

/-! ### What the storage answers -/

/-- The opcodes that the storage knows. -/
def Known (op : SnoopOpcode) : Prop := op = .read ∨ op = .readX ∨ op = .invalidate

instance (op : SnoopOpcode) : Decidable (Known op) := inferInstanceAs (Decidable (_ ∨ _ ∨ _))

/-- Whether a state is one that gives its data away. -/
def Gives (state : State) : Prop := state = .modified ∨ state = .exclusive

instance (state : State) : Decidable (Gives state) := inferInstanceAs (Decidable (_ ∨ _))

/-- The state that a known snoop leaves, and the answer to any. -/
def stateAfter : SnoopOpcode → State → State
  | .read, state => (mesiHandleReadSnoop state).1
  | .readX, state => (mesiHandleWriteSnoop state).1
  | .invalidate, state => (mesiHandleWriteSnoop state).1
  | _, state => state

theorem WellFormed.handleSnoop (wf : c.WellFormed) (op : SnoopOpcode) (addr : UInt64) :
    (c.handleSnoop op addr).2.getState addr = stateAfter op (c.getState addr) ∧
    (c.handleSnoop op addr).1 = if Known op ∧ Gives (c.getState addr) ∧ (c.getData addr).isSome then
      { responseOpcode := snoopResponseData, data := c.getData addr, hasData := true } else noDataResponse := by
  rcases c.handleSnoop_cases op addr with ⟨nowhere,nothing⟩ | ⟨way,line,found,there,same,valid,done⟩
  · have state : c.getState addr = .invalid := by
      rw [getState,wf.lineOf_eq_none_iff.mpr nowhere]
      rfl
    rw [nothing,state]
    refine ⟨?_,?_⟩
    · cases op <;> rfl
    · rw [if_neg fun all => absurd all.2.1 (by decide)]
  · have held : c.lineOf addr = some line := wf.lineOf_eq_some_iff.mpr ⟨same,valid,way,there⟩
    have state : c.getState addr = line.state := by
      rw [getState,held]
      rfl
    have data : c.getData addr = line.data := by
      rw [getData,held]
      rfl
    rw [done,state,data]
    have provided : ∀ next, (c.snooped addr way line next).1 =
        if next.2 ∧ line.data.isSome then { responseOpcode := snoopResponseData, data := line.data, hasData := true }
        else noDataResponse := fun _ => rfl
    cases op with
    | read =>
      refine ⟨(wf.snooped found same _).2,?_⟩
      rw [provided]
      cases line.state <;> simp [mesiHandleReadSnoop,Known,Gives]
    | readX =>
      refine ⟨(wf.snooped found same _).2,?_⟩
      rw [provided]
      cases line.state <;> simp [mesiHandleWriteSnoop,Known,Gives]
    | invalidate =>
      refine ⟨(wf.snooped found same _).2,?_⟩
      rw [provided]
      cases line.state <;> simp [mesiHandleWriteSnoop,Known,Gives]
    | upgrade => exact ⟨state,(if_neg fun all => absurd all.1 (by decide)).symm⟩
    | writeback => exact ⟨state,(if_neg fun all => absurd all.1 (by decide)).symm⟩
    | other opcode => exact ⟨state,(if_neg fun all => by simp [Known] at all).symm⟩

theorem mesiHandleWriteSnoop_fst (state : State) : (mesiHandleWriteSnoop state).1 = .invalid := by
  cases state <;> rfl

theorem stateAfter_of_unknown {op : SnoopOpcode} (unknown : ¬ Known op) (state : State) : stateAfter op state = state := by
  cases op with
  | read => exact absurd (.inl rfl) unknown
  | readX => exact absurd (.inr (.inl rfl)) unknown
  | invalidate => exact absurd (.inr (.inr rfl)) unknown
  | upgrade => rfl
  | writeback => rfl
  | other opcode => rfl

/-- A snoop that the storage knows takes an owned line away. -/
theorem stateAfter_owned {op : SnoopOpcode} (known : Known op) : stateAfter op .owned = .invalid := by
  rcases known with rfl | rfl | rfl <;> rfl

/-- The contract of a snoop of the storage. -/
def HonoursSnoop (c : Storage) (op : SnoopOpcode) (addr : UInt64) : Prop :=
  Honours op (c.lineOf addr) (c.handleSnoop op addr).1 ((c.handleSnoop op addr).2.getState addr)

/-- The storage honours a snoop unless it loses the data of an owned line, or ignores that a
    line is upgraded elsewhere. -/
theorem WellFormed.honours_iff (wf : c.WellFormed) (op : SnoopOpcode) (addr : UInt64) : c.HonoursSnoop op addr ↔
    ¬ (Known op ∧ c.getState addr = .owned ∧ (c.getData addr).isSome = true) ∧ (op = .upgrade → c.getState addr = .invalid) := by
  obtain ⟨after,answer⟩ := wf.handleSnoop op addr
  unfold HonoursSnoop
  rw [after,answer]
  constructor
  · intro honours
    refine ⟨?_,?_⟩
    · rintro ⟨known,owned,some_data⟩
      obtain ⟨data,has⟩ := Option.isSome_iff_exists.mp some_data
      obtain ⟨line,held,lineData⟩ := Option.bind_eq_some_iff.mp has
      have state : line.state = .owned := by
        rw [← owned,getState,held]
        rfl
      have gone : stateAfter op (c.getState addr) ≠ line.state := by
        rw [owned,state,stateAfter_owned known]
        decide
      have given := (honours.returned line held (.inr state) data lineData gone).1
      rw [if_neg fun all => by rw [owned] at all; exact absurd all.2.1 (by decide)] at given
      cases given
    · rintro rfl
      exact honours.invalidated (.inr (.inr rfl))
  · rintro ⟨not_lost,upgraded⟩
    constructor
    case invalidated =>
      rintro (rfl | rfl | rfl)
      · exact mesiHandleWriteSnoop_fst _
      · exact mesiHandleWriteSnoop_fst _
      · exact upgraded rfl
    case downgraded =>
      rintro rfl
      show (mesiHandleReadSnoop (c.getState addr)).1 ≠ .exclusive ∧ (mesiHandleReadSnoop (c.getState addr)).1 ≠ .modified
      cases c.getState addr <;> decide
    case returned =>
      intro line held dirty data has changed
      have state : c.getState addr = line.state := by
        rw [getState,held]
        rfl
      have lineData : c.getData addr = some data := by
        rw [getData,held]
        exact has
      rw [state,lineData] at not_lost ⊢
      rw [state] at changed
      have known : Known op := by
        by_contra unknown
        exact changed (stateAfter_of_unknown unknown _)
      rcases dirty with modified | owned
      · rw [if_pos ⟨known,.inl modified,rfl⟩]
        exact ⟨rfl,rfl⟩
      · exact absurd ⟨known,owned,rfl⟩ not_lost

end

end Storage
end FlowSim.Cache
