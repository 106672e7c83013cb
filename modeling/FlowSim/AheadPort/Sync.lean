import FlowSim.Packet

/-!
The done mark and the readiness decisions that the two ends of a port share.
Decisions are kept as a cycle up to which everything is ready and a list of
states from that cycle on; `answer` is what the two together say of one cycle,
and each operation is described by what it does to `answer`.
-/
namespace FlowSim.AheadPort
set_option linter.unusedSimpArgs false

/-- The readiness of one cycle, as the dense array stores it. -/
inductive ReadyState where
  | unset
  | ready
  | notReady
deriving DecidableEq, Repr, Inhabited

/-- The shared synchronisation state of a component. The notification channels
    and the waiting flags carry no data: a wait is an operation that cannot step
    until its condition holds. -/
structure ComponentSync where
  done : Int
  readyUntil : Nat
  readyStates : List ReadyState
deriving DecidableEq, Repr

namespace ComponentSync

def newComponentSync : ComponentSync := { done := -1, readyUntil := 0, readyStates := [] }

/-! ### Done state management -/

def setDone (cs : ComponentSync) (cycle : Nat) : ComponentSync := { cs with done := cycle }

def getDone (cs : ComponentSync) : Int := cs.done

/-- Whether a wait for the cycle would return at once. -/
def waitDone (cs : ComponentSync) (cycle : Nat) : Bool := decide ((cycle : Int) ≤ cs.done)

/-! ### Ready state management -/

/-- Whether the cycle is decided, the decision, and the state after the check,
    which forgets the decisions up to the cycle. -/
def checkStatesAndPrune (cs : ComponentSync) (cycle : Nat) : (Bool × Bool) × ComponentSync :=
  if cycle < cs.readyUntil then ((true,true),cs)
  else
    let offset := cycle - cs.readyUntil
    match cs.readyStates[offset]? with
    | none => ((false,false),cs)
    | some .unset => ((false,false),cs)
    | some state =>
      ((true,state == .ready),{ cs with readyUntil := cycle + 1, readyStates := cs.readyStates.drop (offset + 1) })

/-- The decision for the cycle; `none` as long as the caller has to wait. -/
def ready (cs : ComponentSync) (cycle : Nat) : Option (Bool × ComponentSync) :=
  if cycle < cs.readyUntil then some (true,cs)
  else
    match cs.checkStatesAndPrune cycle with
    | ((true,result),cs) => some (result,cs)
    | ((false,_),_) => none

def isReadyNonBlocking (cs : ComponentSync) (cycle : Nat) : Bool × Bool :=
  if cycle < cs.readyUntil then (true,true)
  else
    match cs.readyStates[cycle - cs.readyUntil]? with
    | none => (false,false)
    | some .unset => (false,false)
    | some state => (true,state == .ready)

/-- The states with room for the offset. -/
def grow (states : List ReadyState) (offset : Nat) : List ReadyState :=
  if offset < states.length then states else states ++ List.replicate (offset + 1 - states.length) .unset

/-- Moves the leading ready states into the cycle up to which all is ready. -/
def compact (readyUntil : Nat) : List ReadyState → Nat × List ReadyState
  | .ready :: states => compact (readyUntil + 1) states
  | states => (readyUntil,states)

def stateOf (ready : Bool) : ReadyState := if ready then .ready else .notReady

/-- Records a decision; `none` when the code panics because the cycle has the
    opposite decision. -/
def updateReady (cs : ComponentSync) (cycle : Nat) (ready : Bool) : Option ComponentSync :=
  if ready = true ∧ cs.readyUntil = cycle ∧ cs.readyStates.length = 0 then
    some { cs with readyUntil := cycle + 1 }
  else if cycle < cs.readyUntil then
    if ready then some cs else none
  else
    let offset := cycle - cs.readyUntil
    let states := grow cs.readyStates offset
    if states.getD offset .unset ≠ .unset then
      if (states.getD offset .unset == .ready) = ready then some cs else none
    else
      let (readyUntil,states) := compact cs.readyUntil (states.set offset (stateOf ready))
      some { cs with readyUntil, readyStates := states }

def setReadyUntil (cs : ComponentSync) (cycle : Nat) : ComponentSync :=
  if cycle ≤ cs.readyUntil then cs
  else { cs with readyUntil := cycle, readyStates := cs.readyStates.drop (cycle - cs.readyUntil) }

def initReady (cs : ComponentSync) (limit : Nat) : ComponentSync := cs.setReadyUntil limit

/-! ### What the decisions say of a cycle -/

/-- The decision a stored state stands for. -/
def decisionOf : ReadyState → Option Bool
  | .unset => none
  | .ready => some true
  | .notReady => some false

/-- What is decided for the cycle when everything before `readyUntil` is ready
    and the states follow. -/
def decided (readyUntil : Nat) (states : List ReadyState) (cycle : Nat) : Option Bool :=
  if cycle < readyUntil then some true else states[cycle - readyUntil]?.bind decisionOf

/-- What a read of the cycle's decision would answer now; `none` while the
    cycle is undecided. -/
def answer (cs : ComponentSync) (cycle : Nat) : Option Bool := decided cs.readyUntil cs.readyStates cycle

@[simp] theorem answer_new (cycle : Nat) : newComponentSync.answer cycle = none := by
  simp [answer,decided,newComponentSync]

@[simp] theorem answer_setDone (cs : ComponentSync) (c cycle : Nat) : (cs.setDone c).answer cycle = cs.answer cycle :=
  rfl

@[simp] theorem done_setDone (cs : ComponentSync) (c : Nat) : (cs.setDone c).done = c := rfl

theorem decided_grow (readyUntil : Nat) (states : List ReadyState) (offset cycle : Nat) :
    decided readyUntil (grow states offset) cycle = decided readyUntil states cycle := by
  unfold grow
  split
  · rfl
  · next short =>
    unfold decided
    split
    · rfl
    · by_cases inside : cycle - readyUntil < states.length
      · rw [List.getElem?_append_left inside]
      · rw [List.getElem?_append_right (by omega),List.getElem?_eq_none (l := states) (by omega),
          List.getElem?_replicate]
        split <;> rfl

theorem decided_compact (cycle : Nat) : ∀ (states : List ReadyState) (readyUntil : Nat),
    decided (compact readyUntil states).1 (compact readyUntil states).2 cycle = decided readyUntil states cycle
  | [], readyUntil => rfl
  | .unset :: states, readyUntil => rfl
  | .notReady :: states, readyUntil => rfl
  | .ready :: states, readyUntil => by
    rw [compact,decided_compact cycle states]
    unfold decided
    rcases Nat.lt_trichotomy cycle readyUntil with lt | same | gt
    · rw [if_pos (by omega),if_pos lt]
    · rw [if_pos (by omega),if_neg (by omega)]
      simp [same,decisionOf]
    · rw [if_neg (by omega),if_neg (by omega)]
      have next : cycle - readyUntil = (cycle - (readyUntil + 1)) + 1 := by omega
      rw [next,List.getElem?_cons_succ]

theorem decisionOf_stateOf (b : Bool) : decisionOf (stateOf b) = some b := by cases b <;> rfl

theorem decided_set {readyUntil cycle : Nat} {states : List ReadyState} (late : readyUntil ≤ cycle)
    (inside : cycle - readyUntil < states.length) (b : Bool) (c : Nat) :
    decided readyUntil (states.set (cycle - readyUntil) (stateOf b)) c =
      if c = cycle then some b else decided readyUntil states c := by
  unfold decided
  by_cases same : c = cycle
  · subst same
    simp [inside,show ¬ c < readyUntil by omega,decisionOf_stateOf]
  · simp only [if_neg same]
    split
    · rfl
    · rw [List.getElem?_set_ne (by omega)]

theorem length_grow (states : List ReadyState) (offset : Nat) : offset < (grow states offset).length := by
  unfold grow
  split
  · assumption
  · simp only [List.length_append,List.length_replicate]; omega

/-- The non-blocking query tells whether a cycle is decided, and the decision. -/
theorem isReadyNonBlocking_eq (cs : ComponentSync) (cycle : Nat) :
    cs.isReadyNonBlocking cycle = ((cs.answer cycle).isSome,(cs.answer cycle).getD false) := by
  unfold isReadyNonBlocking answer decided
  split
  · rfl
  · rcases cs.readyStates[cycle - cs.readyUntil]? with _ | state
    · rfl
    · cases state <;> rfl

/-- A read waits exactly while the cycle is undecided. -/
theorem ready_eq_none (cs : ComponentSync) (cycle : Nat) : cs.ready cycle = none ↔ cs.answer cycle = none := by
  unfold ready answer decided checkStatesAndPrune
  by_cases early : cycle < cs.readyUntil
  · simp [early]
  · simp only [early,↓reduceIte]
    rcases cs.readyStates[cycle - cs.readyUntil]? with _ | state
    · simp
    · cases state <;> simp [decisionOf]

/-- A read answers the decision, and makes every decision up to its cycle read
    as ready from then on. -/
theorem ready_eq_some {cs cs' : ComponentSync} {cycle : Nat} {b : Bool} (read : cs.ready cycle = some (b,cs')) :
    cs.answer cycle = some b ∧ cs'.done = cs.done ∧
      ∀ c, cs'.answer c = if c ≤ cycle ∧ cs.readyUntil ≤ cycle then some true else cs.answer c := by
  unfold ready at read
  by_cases early : cycle < cs.readyUntil
  · simp only [early,↓reduceIte,Option.some.injEq,Prod.mk.injEq] at read
    obtain ⟨rfl,rfl⟩ := read
    refine ⟨by simp [answer,decided,early],rfl,fun c => ?_⟩
    rw [if_neg (by omega)]
  · simp only [early,↓reduceIte,checkStatesAndPrune] at read
    have pruned : ∀ c, decided (cycle + 1) (cs.readyStates.drop (cycle - cs.readyUntil + 1)) c =
        if c ≤ cycle ∧ cs.readyUntil ≤ cycle then some true else cs.answer c := by
      intro c
      unfold answer decided
      by_cases upTo : c ≤ cycle
      · rw [if_pos (by omega),if_pos (by omega)]
      · rw [if_neg (by omega),if_neg (by omega),if_neg (by omega),List.getElem?_drop]
        congr 2
        omega
    rcases found : cs.readyStates[cycle - cs.readyUntil]? with _ | state
    · simp [found] at read
    · cases state with
      | unset => simp [found] at read
      | ready =>
        simp only [found,Option.some.injEq,Prod.mk.injEq] at read
        obtain ⟨rfl,rfl⟩ := read
        exact ⟨by simp [answer,decided,early,found,decisionOf],rfl,pruned⟩
      | notReady =>
        simp only [found,Option.some.injEq,Prod.mk.injEq] at read
        obtain ⟨rfl,rfl⟩ := read
        exact ⟨by simp [answer,decided,early,found,decisionOf],rfl,pruned⟩

/-- An undecided cycle takes the decision; no other cycle's answer changes. -/
theorem updateReady_undecided {cs : ComponentSync} {cycle : Nat} (open_ : cs.answer cycle = none) (b : Bool) :
    ∃ cs', cs.updateReady cycle b = some cs' ∧ cs'.done = cs.done ∧
      ∀ c, cs'.answer c = if c = cycle then some b else cs.answer c := by
  have late : cs.readyUntil ≤ cycle := by
    by_contra early
    simp [answer,decided,show cycle < cs.readyUntil by omega] at open_
  unfold updateReady
  split
  · next fast =>
    obtain ⟨rfl,rfl,empty⟩ := fast
    refine ⟨_,rfl,rfl,fun c => ?_⟩
    have none_left : cs.readyStates = [] := List.eq_nil_of_length_eq_zero empty
    simp only [answer,decided,none_left,List.getElem?_nil,Option.bind_none]
    split_ifs <;> first | rfl | omega
  · rw [if_neg (by omega)]
    have room := length_grow cs.readyStates (cycle - cs.readyUntil)
    have unset : (grow cs.readyStates (cycle - cs.readyUntil)).getD (cycle - cs.readyUntil) .unset = .unset := by
      have stored := decided_grow cs.readyUntil cs.readyStates (cycle - cs.readyUntil) cycle
      rw [show decided cs.readyUntil cs.readyStates cycle = none from open_,decided,if_neg (by omega),
        List.getElem?_eq_getElem room,Option.bind_some] at stored
      rw [List.getD_eq_getElem _ _ room]
      cases state : (grow cs.readyStates (cycle - cs.readyUntil))[cycle - cs.readyUntil] with
      | unset => rfl
      | ready => simp [state,decisionOf] at stored
      | notReady => simp [state,decisionOf] at stored
    simp only [unset,ne_eq,not_true_eq_false,↓reduceIte]
    refine ⟨_,rfl,rfl,fun c => ?_⟩
    simp only [answer]
    rw [decided_compact,decided_set late room,decided_grow]

/-- A decided cycle keeps its decision: the same decision changes nothing, the
    opposite one makes the code panic. -/
theorem updateReady_decided {cs : ComponentSync} {cycle : Nat} {b : Bool} (closed : cs.answer cycle = some b)
    (ready : Bool) : cs.updateReady cycle ready = if ready = b then some cs else none := by
  unfold updateReady
  have slow : ¬ (ready = true ∧ cs.readyUntil = cycle ∧ cs.readyStates.length = 0) := by
    rintro ⟨_,same,empty⟩
    have none_left : cs.readyStates = [] := List.eq_nil_of_length_eq_zero empty
    simp [answer,decided,none_left,same] at closed
  rw [if_neg slow]
  by_cases early : cycle < cs.readyUntil
  · have isReady : b = true := by simpa [answer,decided,early] using closed.symm
    subst isReady
    cases ready <;> simp [early]
  · rw [if_neg early]
    simp only [answer,decided,early,↓reduceIte] at closed
    have inside : cycle - cs.readyUntil < cs.readyStates.length := by
      by_contra outside
      simp [List.getElem?_eq_none (Nat.not_lt.mp outside)] at closed
    simp only [grow,inside,↓reduceIte]
    rw [List.getD_eq_getElem _ _ inside]
    rw [List.getElem?_eq_getElem inside,Option.bind_some] at closed
    cases state : cs.readyStates[cycle - cs.readyUntil] with
    | unset => simp [state,decisionOf] at closed
    | ready =>
      simp only [state,decisionOf,Option.some.injEq] at closed
      subst closed
      cases ready <;> simp
    | notReady =>
      simp only [state,decisionOf,Option.some.injEq] at closed
      subst closed
      cases ready <;> simp

/-- An update that does not panic makes its decision the answer of its cycle
    and keeps every other answer. -/
theorem updateReady_some {cs cs' : ComponentSync} {cycle : Nat} {b : Bool} (updated : cs.updateReady cycle b = some cs') :
    cs'.done = cs.done ∧ ∀ c, cs'.answer c = if c = cycle then some b else cs.answer c := by
  rcases open_ : cs.answer cycle with _ | old
  · obtain ⟨next,updated',same,answers⟩ := updateReady_undecided open_ b
    rw [updated'] at updated
    obtain rfl := Option.some.inj updated
    exact ⟨same,answers⟩
  · rw [updateReady_decided open_] at updated
    split at updated
    · next same =>
      obtain rfl := Option.some.inj updated
      refine ⟨rfl,fun c => ?_⟩
      split
      · next here => rw [here,open_,same]
      · rfl
    · exact absurd updated (by simp)

end ComponentSync
end FlowSim.AheadPort
