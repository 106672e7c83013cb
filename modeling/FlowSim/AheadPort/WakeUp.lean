import FlowSim.AheadPort.Sync
import FlowSim.Lib.Transition

/-!
The wake-up protocol of a component's synchronisation state. One party waits,
for a done mark or for a readiness decision, and the other one sets them; both
run step by step, each atomic load or store, each critical section and each
channel operation being one step. A waiter advertises what it waits for and
checks again before it blocks, so a notifier that has changed the condition and
is between calls has left a token in the channel (`no_lost_wakeup`).
-/
namespace FlowSim.AheadPort
open FlowSim.Lib
set_option linter.unusedSimpArgs false

/-- The locked part of `UpdateReady`, with whether it recorded a new decision;
    `none` when it panics. -/
def ComponentSync.recordReady (cs : ComponentSync) (cycle : Nat) (ready : Bool) : Option (Bool × ComponentSync) :=
  if cycle < cs.readyUntil then
    if ready then some (false,cs) else none
  else
    let offset := cycle - cs.readyUntil
    let states := grow cs.readyStates offset
    if states.getD offset .unset ≠ .unset then
      if (states.getD offset .unset == .ready) = ready then some (false,cs) else none
    else
      let (readyUntil,states) := compact cs.readyUntil (states.set offset (stateOf ready))
      some (true,{ cs with readyUntil, readyStates := states })

/-- The first, unlocked test of `UpdateReady` only saves work: the locked part
    alone does the same. -/
theorem ComponentSync.updateReady_eq_recordReady (cs : ComponentSync) (cycle : Nat) (ready : Bool) :
    cs.updateReady cycle ready = (cs.recordReady cycle ready).map Prod.snd := by
  unfold updateReady
  split
  · next fast =>
    obtain ⟨rfl,rfl,empty⟩ := fast
    have none_left : cs.readyStates = [] := List.eq_nil_of_length_eq_zero empty
    simp [recordReady,none_left,grow,compact,stateOf]
  · unfold recordReady
    by_cases early : cycle < cs.readyUntil
    · simp only [if_pos early]
      split <;> rfl
    · simp only [if_neg early]
      split
      · split <;> rfl
      · rfl

/-- Where the waiting party is: in `WaitDone` up to `doneReset`, in `Ready` after it. -/
inductive Waiter where
  | idle
  | doneFast (target : Nat)
  | doneAdvertise (target : Nat)
  | doneRaise (target : Nat)
  | doneRecheck (target : Nat)
  | doneLoop (target : Nat)
  | doneReceive (target : Nat)
  | doneReset
  | readyFast (cycle : Nat)
  | readyAdvertise (cycle : Nat)
  | readyRaise (cycle : Nat)
  | readyLoop (cycle : Nat)
  | readyCheck (cycle : Nat)
  | readyReceive (cycle : Nat)
  | readyReset
deriving DecidableEq, Repr

/-- Where the notifying party is: in `SetDone` up to `doneSend`, in `UpdateReady`
    after it. `locked` tells whether it still holds the lock. -/
inductive Notifier where
  | idle
  | doneStore (cycle : Nat)
  | doneWaiting (cycle : Nat)
  | doneTarget (cycle : Nat)
  | doneSend
  | updateFast (cycle : Nat) (ready : Bool)
  | updateFastLock (cycle : Nat)
  | updateLock (cycle : Nat) (ready : Bool)
  | readyWaiting (cycle : Nat) (locked : Bool)
  | readyTarget (cycle : Nat) (locked : Bool)
  | readySend (locked : Bool)
  | unlock
deriving DecidableEq, Repr

/-- A component's synchronisation state with its flags, its two channels, each
    of which holds at most one token, and the places of both parties. -/
structure WakeUp where
  sync : ComponentSync
  doneNotify : Bool
  doneWaiting : Bool
  waitingFor : Nat
  readyNotify : Bool
  readyWaiting : Bool
  waitingForReady : Nat
  waiter : Waiter
  notifier : Notifier
deriving DecidableEq, Repr

namespace WakeUp

/-- A new component; both parties are between calls. -/
def start : WakeUp where
  sync := .newComponentSync
  doneNotify := false
  doneWaiting := false
  waitingFor := 0
  readyNotify := false
  readyWaiting := false
  waitingForReady := 0
  waiter := .idle
  notifier := .idle

/-- The notifier is inside the locked part of `UpdateReady`. -/
def lockHeld (s : WakeUp) : Bool :=
  match s.notifier with
  | .readyWaiting _ locked => locked
  | .readyTarget _ locked => locked
  | .readySend locked => locked
  | .unlock => true
  | _ => false

/-- The next step of the waiting party; `none` when it is between calls or has
    to wait for a token or for the lock. -/
def waiterStep (s : WakeUp) : Option WakeUp :=
  match s.waiter with
  | .idle => none
  | .doneFast target => some { s with waiter := if s.sync.waitDone target then .idle else .doneAdvertise target }
  | .doneAdvertise target => some { s with waitingFor := target, waiter := .doneRaise target }
  | .doneRaise target => some { s with doneWaiting := true, waiter := .doneRecheck target }
  | .doneRecheck target => some { s with waiter := if s.sync.waitDone target then .doneReset else .doneLoop target }
  | .doneLoop target => some { s with waiter := if s.sync.waitDone target then .doneReset else .doneReceive target }
  | .doneReceive target => if s.doneNotify then some { s with doneNotify := false, waiter := .doneLoop target } else none
  | .doneReset => some { s with doneWaiting := false, waiter := .idle }
  | .readyFast cycle =>
    some { s with waiter := if cycle < s.sync.readyUntil then .idle else .readyAdvertise cycle }
  | .readyAdvertise cycle => some { s with waitingForReady := cycle, waiter := .readyRaise cycle }
  | .readyRaise cycle => some { s with readyWaiting := true, waiter := .readyLoop cycle }
  | .readyLoop cycle =>
    some { s with waiter := if cycle < s.sync.readyUntil then .readyReset else .readyCheck cycle }
  | .readyCheck cycle =>
    if s.lockHeld then none
    else
      let ((found,_),sync) := s.sync.checkStatesAndPrune cycle
      some { s with sync, waiter := if found then .readyReset else .readyReceive cycle }
  | .readyReceive cycle =>
    if s.readyNotify then some { s with readyNotify := false, waiter := .readyLoop cycle } else none
  | .readyReset => some { s with readyWaiting := false, waiter := .idle }

/-- The end of `notifyReady`, which leaves `UpdateReady` at once or gives up the lock. -/
def afterNotify (locked : Bool) : Notifier := if locked then .unlock else .idle

/-- The next step of the notifying party; `none` when it is between calls, and
    for good when it panics. -/
def notifierStep (s : WakeUp) : Option WakeUp :=
  match s.notifier with
  | .idle => none
  | .doneStore cycle => some { s with sync := s.sync.setDone cycle, notifier := .doneWaiting cycle }
  | .doneWaiting cycle => some { s with notifier := if s.doneWaiting then .doneTarget cycle else .idle }
  | .doneTarget cycle => some { s with notifier := if s.waitingFor ≤ cycle then .doneSend else .idle }
  | .doneSend => some { s with doneNotify := true, notifier := .idle }
  | .updateFast cycle ready =>
    some { s with notifier := if ready = true ∧ s.sync.readyUntil = cycle then .updateFastLock cycle
                              else .updateLock cycle ready }
  | .updateFastLock cycle =>
    if s.sync.readyUntil = cycle ∧ s.sync.readyStates.length = 0 then
      some { s with sync := { s.sync with readyUntil := cycle + 1 }, notifier := .readyWaiting cycle false }
    else some { s with notifier := .updateLock cycle true }
  | .updateLock cycle ready =>
    match s.sync.recordReady cycle ready with
    | none => none
    | some (recorded,sync) => some { s with sync, notifier := if recorded then .readyWaiting cycle true else .idle }
  | .readyWaiting cycle locked =>
    some { s with notifier := if s.readyWaiting then .readyTarget cycle locked else afterNotify locked }
  | .readyTarget cycle locked =>
    some { s with notifier := if s.waitingForReady ≤ cycle then .readySend locked else afterNotify locked }
  | .readySend locked => some { s with readyNotify := true, notifier := afterNotify locked }
  | .unlock => some { s with notifier := .idle }

/-- What can happen next: a party between calls begins one, or a party makes its
    next step. -/
inductive Action where
  | waitDone (target : Nat)
  | ready (cycle : Nat)
  | setDone (cycle : Nat)
  | updateReady (cycle : Nat) (ready : Bool)
  | waiter
  | notifier
deriving DecidableEq, Repr

def step (s : WakeUp) : Action → Option WakeUp
  | .waitDone target => if s.waiter = .idle then some { s with waiter := .doneFast target } else none
  | .ready cycle => if s.waiter = .idle then some { s with waiter := .readyFast cycle } else none
  | .setDone cycle => if s.notifier = .idle then some { s with notifier := .doneStore cycle } else none
  | .updateReady cycle ready =>
    if s.notifier = .idle then some { s with notifier := .updateFast cycle ready } else none
  | .waiter => s.waiterStep
  | .notifier => s.notifierStep

/-! ### What a blocked waiter can rely on -/

/-- The notifier is about to leave a token for a waiter for the done mark. -/
def DoneComing (target : Nat) : Notifier → Prop
  | .doneWaiting cycle => target ≤ cycle
  | .doneTarget cycle => target ≤ cycle
  | .doneSend => True
  | _ => False

/-- The notifier is about to leave a token for a waiter for the cycle's readiness. -/
def ReadyComing (cycle : Nat) : Notifier → Prop
  | .readyWaiting decided _ => cycle ≤ decided
  | .readyTarget decided _ => cycle ≤ decided
  | .readySend _ => True
  | _ => False

/-- What the waiter has advertised at its place, and what it can rely on once it
    is about to block: a condition that holds comes with a token. -/
def Advertised (s : WakeUp) : Prop :=
  match s.waiter with
  | .doneRaise target => s.waitingFor = target
  | .doneRecheck target => s.waitingFor = target ∧ s.doneWaiting = true
  | .doneLoop target => s.waitingFor = target ∧ s.doneWaiting = true
  | .doneReceive target => s.waitingFor = target ∧ s.doneWaiting = true ∧
      ((target : Int) ≤ s.sync.done → s.doneNotify = true ∨ DoneComing target s.notifier)
  | .readyRaise cycle => s.waitingForReady = cycle
  | .readyLoop cycle => s.waitingForReady = cycle ∧ s.readyWaiting = true
  | .readyCheck cycle => s.waitingForReady = cycle ∧ s.readyWaiting = true
  | .readyReceive cycle => s.waitingForReady = cycle ∧ s.readyWaiting = true ∧
      (s.sync.answer cycle ≠ none → s.readyNotify = true ∨ ReadyComing cycle s.notifier)
  | _ => True

/-- A check that finds nothing leaves the state alone, and the cycle undecided. -/
theorem check_eq_false {cs cs' : ComponentSync} {cycle : Nat} {result : Bool}
    (checked : cs.checkStatesAndPrune cycle = ((false,result),cs')) : cs' = cs ∧ cs.answer cycle = none := by
  unfold ComponentSync.checkStatesAndPrune at checked
  unfold ComponentSync.answer ComponentSync.decided
  split at checked
  · simp at checked
  · next late =>
    rw [if_neg late]
    rcases found : cs.readyStates[cycle - cs.readyUntil]? with _ | state
    · simp [found] at checked
      exact ⟨checked.2.symm,rfl⟩
    · cases state <;> simp [found] at checked
      exact ⟨checked.2.symm,rfl⟩

theorem advertised_waiter {s s' : WakeUp} (holds : s.Advertised) (stepped : s.waiterStep = some s') :
    s'.Advertised := by
  unfold waiterStep at stepped
  unfold Advertised at holds
  cases at_ : s.waiter with
  | idle => simp [at_] at stepped
  | doneReceive target =>
    simp only [at_] at stepped holds
    split at stepped
    · cases stepped
      exact ⟨holds.1,holds.2.1⟩
    · cases stepped
  | readyReceive cycle =>
    simp only [at_] at stepped holds
    split at stepped
    · cases stepped
      exact ⟨holds.1,holds.2.1⟩
    · cases stepped
  | readyCheck cycle =>
    simp only [at_] at stepped holds
    split at stepped
    · cases stepped
    · rcases checked : s.sync.checkStatesAndPrune cycle with ⟨⟨found,result⟩,sync⟩
      simp only [checked,Option.some.injEq] at stepped
      subst stepped
      cases found with
      | true => exact trivial
      | false =>
        obtain ⟨rfl,undecided⟩ := check_eq_false checked
        exact ⟨holds.1,holds.2,fun decided => absurd undecided decided⟩
  | doneLoop target =>
    simp only [at_,Option.some.injEq] at stepped holds
    subst stepped
    by_cases done : s.sync.waitDone target = true
    · simp [Advertised,done]
    · simp only [Advertised,done]
      refine ⟨holds.1,holds.2,fun reached => absurd ?_ done⟩
      simpa [ComponentSync.waitDone] using reached
  | doneFast target =>
    simp only [at_,Option.some.injEq] at stepped
    subst stepped
    by_cases done : s.sync.waitDone target = true <;> simp [Advertised,done]
  | doneAdvertise target =>
    simp only [at_,Option.some.injEq] at stepped
    subst stepped
    rfl
  | doneRaise target =>
    simp only [at_,Option.some.injEq] at stepped holds
    subst stepped
    exact ⟨holds,rfl⟩
  | doneRecheck target =>
    simp only [at_,Option.some.injEq] at stepped holds
    subst stepped
    by_cases done : s.sync.waitDone target = true <;> simp [Advertised,done,holds]
  | doneReset =>
    simp only [at_,Option.some.injEq] at stepped
    subst stepped
    trivial
  | readyFast cycle =>
    simp only [at_,Option.some.injEq] at stepped
    subst stepped
    by_cases early : cycle < s.sync.readyUntil <;> simp [Advertised,early]
  | readyAdvertise cycle =>
    simp only [at_,Option.some.injEq] at stepped
    subst stepped
    rfl
  | readyRaise cycle =>
    simp only [at_,Option.some.injEq] at stepped holds
    subst stepped
    exact ⟨holds,rfl⟩
  | readyLoop cycle =>
    simp only [at_,Option.some.injEq] at stepped holds
    subst stepped
    by_cases early : cycle < s.sync.readyUntil <;> simp [Advertised,early,holds]
  | readyReset =>
    simp only [at_,Option.some.injEq] at stepped
    subst stepped
    trivial

theorem recordReady_some {cs cs' : ComponentSync} {cycle : Nat} {ready recorded : Bool}
    (updated : cs.recordReady cycle ready = some (recorded,cs')) :
    (recorded = false → cs' = cs) ∧ cs'.done = cs.done ∧ ∀ c, c ≠ cycle → cs'.answer c = cs.answer c := by
  have whole : cs.updateReady cycle ready = some cs' := by
    rw [ComponentSync.updateReady_eq_recordReady,updated]
    rfl
  obtain ⟨done,answers⟩ := ComponentSync.updateReady_some whole
  refine ⟨fun nothing => ?_,done,fun c other => by rw [answers c,if_neg other]⟩
  subst nothing
  unfold ComponentSync.recordReady at updated
  split at updated
  · split at updated
    · cases updated
      rfl
    · cases updated
  · dsimp only at updated
    split at updated
    · split at updated
      · cases updated
        rfl
      · cases updated
    · cases updated

/-- A step of the notifier that leaves the waiter at its place keeps what it has
    advertised, so only the two blocked places need a look. -/
theorem advertised_notifier {s s' : WakeUp} (holds : s.Advertised) (same : s'.waiter = s.waiter)
    (flags : s'.waitingFor = s.waitingFor ∧ s'.doneWaiting = s.doneWaiting ∧
      s'.waitingForReady = s.waitingForReady ∧ s'.readyWaiting = s.readyWaiting)
    (done : ∀ target, s.waiter = .doneReceive target → (target : Int) ≤ s'.sync.done →
      s'.doneNotify = true ∨ DoneComing target s'.notifier)
    (ready : ∀ cycle, s.waiter = .readyReceive cycle → s'.sync.answer cycle ≠ none →
      s'.readyNotify = true ∨ ReadyComing cycle s'.notifier) : s'.Advertised := by
  obtain ⟨flag₁,flag₂,flag₃,flag₄⟩ := flags
  unfold Advertised at holds ⊢
  rw [same,flag₁,flag₂,flag₃,flag₄]
  cases at_ : s.waiter with
  | doneReceive target =>
    rw [at_] at holds
    exact ⟨holds.1,holds.2.1,done target at_⟩
  | readyReceive cycle =>
    rw [at_] at holds
    exact ⟨holds.1,holds.2.1,ready cycle at_⟩
  | _ => rw [at_] at holds; exact holds

/-- A token, once there, stays until the waiter takes it, and one that is coming
    stays so; the condition of a blocked waiter comes true only in a step after
    which a token is coming. -/
theorem advertised_notifierStep {s s' : WakeUp} (holds : s.Advertised) (stepped : s.notifierStep = some s') :
    s'.Advertised := by
  have done : ∀ {target}, s.waiter = .doneReceive target → s.doneWaiting = true ∧ s.waitingFor = target ∧
      ((target : Int) ≤ s.sync.done → s.doneNotify = true ∨ DoneComing target s.notifier) := by
    intro target at_
    simp only [Advertised,at_] at holds
    exact ⟨holds.2.1,holds.1,holds.2.2⟩
  have ready : ∀ {cycle}, s.waiter = .readyReceive cycle → s.readyWaiting = true ∧ s.waitingForReady = cycle ∧
      (s.sync.answer cycle ≠ none → s.readyNotify = true ∨ ReadyComing cycle s.notifier) := by
    intro cycle at_
    simp only [Advertised,at_] at holds
    exact ⟨holds.2.1,holds.1,holds.2.2⟩
  unfold notifierStep at stepped
  cases at_ : s.notifier with
  | idle => simp [at_] at stepped
  | doneStore cycle =>
    simp only [at_,Option.some.injEq] at stepped
    subst stepped
    refine advertised_notifier holds rfl ⟨rfl,rfl,rfl,rfl⟩ (fun target _ reached => .inr ?_) (fun c blocked decided => ?_)
    · simpa [DoneComing] using reached
    · simpa [at_,ReadyComing] using (ready blocked).2.2 decided
  | doneWaiting cycle =>
    simp only [at_,Option.some.injEq] at stepped
    subst stepped
    refine advertised_notifier holds rfl ⟨rfl,rfl,rfl,rfl⟩ (fun target blocked reached => ?_) (fun c blocked decided => ?_)
    · obtain ⟨raised,_,coming⟩ := done blocked
      simpa [at_,DoneComing,raised] using coming reached
    · exact .inl (by simpa [at_,ReadyComing] using (ready blocked).2.2 decided)
  | doneTarget cycle =>
    simp only [at_,Option.some.injEq] at stepped
    subst stepped
    refine advertised_notifier holds rfl ⟨rfl,rfl,rfl,rfl⟩ (fun target blocked reached => ?_) (fun c blocked decided => ?_)
    · obtain ⟨_,advertised,coming⟩ := done blocked
      rcases coming reached with token | upTo
      · exact .inl token
      · rw [at_] at upTo
        right
        simp only [advertised,if_pos (show target ≤ cycle from upTo)]
        trivial
    · exact .inl (by simpa [at_,ReadyComing] using (ready blocked).2.2 decided)
  | doneSend =>
    simp only [at_,Option.some.injEq] at stepped
    subst stepped
    refine advertised_notifier holds rfl ⟨rfl,rfl,rfl,rfl⟩ (fun _ _ _ => .inl rfl) (fun c blocked decided => ?_)
    exact .inl (by simpa [at_,ReadyComing] using (ready blocked).2.2 decided)
  | updateFast cycle ready' =>
    simp only [at_,Option.some.injEq] at stepped
    subst stepped
    refine advertised_notifier holds rfl ⟨rfl,rfl,rfl,rfl⟩ (fun target blocked reached => ?_) (fun c blocked decided => ?_)
    · exact .inl (by simpa [at_,DoneComing] using (done blocked).2.2 reached)
    · exact .inl (by simpa [at_,ReadyComing] using (ready blocked).2.2 decided)
  | updateFastLock cycle =>
    simp only [at_] at stepped
    split at stepped
    · next fast =>
      cases stepped
      have whole : s.sync.updateReady cycle true = some { s.sync with readyUntil := cycle + 1 } := by
        simp [ComponentSync.updateReady,fast]
      refine advertised_notifier holds rfl ⟨rfl,rfl,rfl,rfl⟩ (fun target blocked reached => ?_)
        (fun c blocked decided => ?_)
      · exact .inl (by simpa [at_,DoneComing] using (done blocked).2.2 reached)
      · by_cases here : c = cycle
        · exact .inr (Nat.le_of_eq here)
        · have answers := (ComponentSync.updateReady_some whole).2 c
          rw [if_neg here] at answers
          exact .inl (by simpa [at_,ReadyComing] using (ready blocked).2.2 (answers ▸ decided))
    · cases stepped
      refine advertised_notifier holds rfl ⟨rfl,rfl,rfl,rfl⟩ (fun target blocked reached => ?_)
        (fun c blocked decided => ?_)
      · exact .inl (by simpa [at_,DoneComing] using (done blocked).2.2 reached)
      · exact .inl (by simpa [at_,ReadyComing] using (ready blocked).2.2 decided)
  | updateLock cycle ready' =>
    rcases updated : s.sync.recordReady cycle ready' with _ | ⟨recorded,sync⟩ <;> simp only [at_,updated] at stepped
    · cases stepped
    · cases stepped
      obtain ⟨unchanged,same,others⟩ := recordReady_some updated
      refine advertised_notifier holds rfl ⟨rfl,rfl,rfl,rfl⟩ (fun target blocked reached => ?_)
        (fun c blocked decided => ?_)
      · exact .inl (by simpa [at_,DoneComing] using (done blocked).2.2 (same ▸ reached))
      · cases recorded with
        | true =>
          by_cases here : c = cycle
          · exact .inr (Nat.le_of_eq here)
          · exact .inl (by simpa [at_,ReadyComing] using (ready blocked).2.2 (others c here ▸ decided))
        | false => exact .inl (by simpa [at_,ReadyComing] using (ready blocked).2.2 (unchanged rfl ▸ decided))
  | readyWaiting cycle locked =>
    simp only [at_,Option.some.injEq] at stepped
    subst stepped
    refine advertised_notifier holds rfl ⟨rfl,rfl,rfl,rfl⟩ (fun target blocked reached => ?_) (fun c blocked decided => ?_)
    · exact .inl (by simpa [at_,DoneComing] using (done blocked).2.2 reached)
    · obtain ⟨raised,_,coming⟩ := ready blocked
      simpa [at_,ReadyComing,raised] using coming decided
  | readyTarget cycle locked =>
    simp only [at_,Option.some.injEq] at stepped
    subst stepped
    refine advertised_notifier holds rfl ⟨rfl,rfl,rfl,rfl⟩ (fun target blocked reached => ?_) (fun c blocked decided => ?_)
    · exact .inl (by simpa [at_,DoneComing] using (done blocked).2.2 reached)
    · obtain ⟨_,advertised,coming⟩ := ready blocked
      rcases coming decided with token | upTo
      · exact .inl token
      · rw [at_] at upTo
        right
        simp only [advertised,if_pos (show c ≤ cycle from upTo)]
        trivial
  | readySend locked =>
    simp only [at_,Option.some.injEq] at stepped
    subst stepped
    refine advertised_notifier holds rfl ⟨rfl,rfl,rfl,rfl⟩ (fun target blocked reached => ?_) (fun _ _ _ => .inl rfl)
    exact .inl (by simpa [at_,DoneComing] using (done blocked).2.2 reached)
  | unlock =>
    simp only [at_,Option.some.injEq] at stepped
    subst stepped
    refine advertised_notifier holds rfl ⟨rfl,rfl,rfl,rfl⟩ (fun target blocked reached => ?_) (fun c blocked decided => ?_)
    · exact .inl (by simpa [at_,DoneComing] using (done blocked).2.2 reached)
    · exact .inl (by simpa [at_,ReadyComing] using (ready blocked).2.2 decided)

/-- A call of the notifier begins with no token on its way. -/
theorem advertised_call {s : WakeUp} (holds : s.Advertised) (idle : s.notifier = .idle) (called : Notifier) :
    { s with notifier := called }.Advertised := by
  refine advertised_notifier holds rfl ⟨rfl,rfl,rfl,rfl⟩ (fun target blocked reached => ?_) (fun c blocked decided => ?_)
  · simp only [Advertised,blocked,idle,DoneComing] at holds
    exact .inl (by simpa using holds.2.2 reached)
  · simp only [Advertised,blocked,idle,ReadyComing] at holds
    exact .inl (by simpa using holds.2.2 decided)

theorem advertised_step {s s' : WakeUp} {action : Action} (holds : s.Advertised) (stepped : step s action = some s') :
    s'.Advertised := by
  cases action with
  | waiter => exact advertised_waiter holds stepped
  | notifier => exact advertised_notifierStep holds stepped
  | waitDone target =>
    simp only [step] at stepped
    split at stepped
    · cases stepped
      trivial
    · cases stepped
  | ready cycle =>
    simp only [step] at stepped
    split at stepped
    · cases stepped
      trivial
    · cases stepped
  | setDone cycle =>
    simp only [step] at stepped
    split at stepped
    · next idle =>
      cases stepped
      exact advertised_call holds idle _
    · cases stepped
  | updateReady cycle ready =>
    simp only [step] at stepped
    split at stepped
    · next idle =>
      cases stepped
      exact advertised_call holds idle _
    · cases stepped

theorem advertised_reachable {s : WakeUp} (reach : Reachable step start s) : s.Advertised :=
  reach.invariant trivial (fun _ holds _ stepped => advertised_step holds stepped)

/-- Whatever calls the two parties make and however their steps interleave, the
    waiter is never blocked on an empty channel while its condition holds and the
    notifier is between calls. -/
theorem no_lost_wakeup (s : WakeUp) (reach : Reachable step start s) (between : s.notifier = .idle) :
    (∀ target, s.waiter = .doneReceive target → s.doneNotify = false → s.sync.done < target) ∧
    (∀ cycle, s.waiter = .readyReceive cycle → s.readyNotify = false → s.sync.answer cycle = none) := by
  have holds := advertised_reachable reach
  constructor
  · intro target blocked empty
    simp only [Advertised,blocked,between,empty,DoneComing] at holds
    by_contra reached
    simpa using holds.2.2 (Int.not_lt.mp reached)
  · intro cycle blocked empty
    simp only [Advertised,blocked,between,empty,ReadyComing] at holds
    by_contra decided
    simpa using holds.2.2 decided

/-- A wait for cycle 2 that the signal for cycle 1 passes over. -/
def passedOver : List Action :=
  [.waitDone 2,.waiter,.waiter,.waiter,.waiter,.waiter,.setDone 1,.notifier,.notifier,.notifier]

/-- The waiter that was passed over is blocked, and its condition does not hold yet. -/
theorem no_lost_wakeup_passed_over :
    ∃ s : WakeUp, runActions step (fun _ _ => True) passedOver start = some s ∧
      s.waiter = .doneReceive 2 ∧ s.doneNotify = false ∧ s.sync.done < 2 := by
  have ran : runActions step (fun _ _ => True) passedOver start =
      some { start with sync := { done := 1, readyUntil := 0, readyStates := [] }, doneWaiting := true,
                        waitingFor := 2, waiter := .doneReceive 2 } := by rfl
  exact ⟨_,ran,rfl,rfl,(no_lost_wakeup _ (reaches_runActions passedOver ran) rfl).1 2 rfl rfl⟩

end WakeUp
end FlowSim.AheadPort
