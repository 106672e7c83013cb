import FlowSim.AheadPort.Sync
import FlowSim.Lib.Transition

/-!
How long a readiness decision lasts. A run is a sequence of calls that return,
together with what `UpdateReady` has decided so far. A read forgets the
decisions up to its cycle, after which they all read as ready, so decisions last
exactly in the runs in which no read comes after a decision against its own or
an earlier cycle.
-/
namespace FlowSim.AheadPort
open FlowSim.Lib
set_option linter.unusedSimpArgs false

/-- A call on the readiness of a component. -/
inductive ReadyCall where
  | ready (cycle : Nat)
  | isReadyNonBlocking (cycle : Nat)
  | updateReady (cycle : Nat) (ready : Bool)
deriving DecidableEq, Repr

/-- The synchronisation state and what `UpdateReady` first decided for each cycle. -/
structure Decided where
  sync : ComponentSync
  first : Nat → Option Bool

namespace Decided

def start : Decided := { sync := .newComponentSync, first := fun _ => none }

/-- A call that returns; `none` when it waits or panics. -/
def step (s : Decided) : ReadyCall → Option Decided
  | .ready cycle => (s.sync.ready cycle).map fun (_,sync) => { s with sync }
  | .isReadyNonBlocking _ => some s
  | .updateReady cycle ready =>
    (s.sync.updateReady cycle ready).map fun sync =>
      { sync, first := Function.update s.first cycle (some ((s.first cycle).getD ready)) }

/-- Every decision is what each kind of read answers, and repeating it changes
    nothing. -/
def Stable (s : Decided) : Prop :=
  ∀ cycle v, s.first cycle = some v →
    (s.sync.ready cycle).map Prod.fst = some v ∧ s.sync.isReadyNonBlocking cycle = (true,v) ∧
      s.sync.updateReady cycle v = some s.sync

/-- The call is not a read for a cycle at or after one that was decided not ready. -/
def Spares (s : Decided) : ReadyCall → Prop
  | .ready cycle => ∀ c ≤ cycle, s.first c ≠ some false
  | _ => True

/-- Decisions last exactly when they are what the state answers. -/
theorem stable_iff (s : Decided) : s.Stable ↔ ∀ cycle v, s.first cycle = some v → s.sync.answer cycle = some v := by
  constructor
  · intro stable cycle v decided
    obtain ⟨read,_,_⟩ := stable cycle v decided
    obtain ⟨⟨answer,sync⟩,isRead,rfl⟩ := Option.map_eq_some_iff.mp read
    exact (ComponentSync.ready_eq_some isRead).1
  · intro answers cycle v decided
    have now := answers cycle v decided
    refine ⟨?_,by rw [ComponentSync.isReadyNonBlocking_eq,now]; rfl,
      by rw [ComponentSync.updateReady_decided now,if_pos rfl]⟩
    rcases read : s.sync.ready cycle with _ | ⟨answer,sync⟩
    · rw [(ComponentSync.ready_eq_none _ _).mp read] at now
      exact absurd now (by simp)
    · rw [(ComponentSync.ready_eq_some read).1] at now
      exact now

/-- A call that spares the decisions keeps them, and one that does not loses one. -/
theorem stable_step {s s' : Decided} {call : ReadyCall} (stable : s.Stable) (stepped : s.step call = some s') :
    s'.Stable ↔ s.Spares call := by
  rw [stable_iff] at stable ⊢
  cases call with
  | isReadyNonBlocking cycle =>
    obtain rfl := Option.some.inj stepped
    exact ⟨fun _ => trivial,fun _ => stable⟩
  | updateReady cycle ready =>
    obtain ⟨sync,updated,rfl⟩ := Option.map_eq_some_iff.mp stepped
    refine ⟨fun _ => trivial,fun _ c v decided => ?_⟩
    have answers := (ComponentSync.updateReady_some updated).2 c
    simp only [Function.update_apply] at decided
    by_cases here : c = cycle
    · subst here
      rw [if_pos rfl] at decided answers
      rcases before : s.first c with _ | old
      · rw [before] at decided
        exact answers.trans decided
      · -- a repeated decision is the old one, or the update would have panicked
        have held := stable c old before
        rw [ComponentSync.updateReady_decided held] at updated
        have same : ready = old := by by_contra other; rw [if_neg other] at updated; cases updated
        rw [before] at decided
        rw [answers,same]
        exact decided
    · rw [if_neg here] at decided answers
      exact answers.trans (stable c v decided)
  | ready cycle =>
    obtain ⟨⟨answer,sync⟩,read,rfl⟩ := Option.map_eq_some_iff.mp stepped
    obtain ⟨now,_,later⟩ := ComponentSync.ready_eq_some read
    constructor
    · intro stable' c upTo refused
      have before := stable c false refused
      have after := (later c).symm.trans (stable' c false refused)
      by_cases covered : s.sync.readyUntil ≤ cycle
      · rw [if_pos ⟨upTo,covered⟩] at after
        exact absurd after (by simp)
      · -- below the watermark everything reads as ready already
        simp [ComponentSync.answer,ComponentSync.decided,show c < s.sync.readyUntil by omega] at before
    · intro spares c v decided
      rw [later c]
      split
      · next pruned =>
        cases v with
        | true => rfl
        | false => exact absurd decided (spares c pruned.1)
      · exact stable c v decided

theorem stable_start : start.Stable := fun _ _ decided => absurd decided (by simp [start])

/-- For every sequence of calls, all decisions last in every state of the run
    exactly when no read in it comes after a decision against its own or an
    earlier cycle. -/
theorem decisions_last_iff (calls : List ReadyCall) :
    (∀ taken ∈ trace step start calls, taken.2.2.Stable) ↔
      ∀ taken ∈ trace step start calls, taken.1.Spares taken.2.1 := by
  suffices all : ∀ (calls : List ReadyCall) (s : Decided), s.Stable →
      ((∀ taken ∈ trace step s calls, taken.2.2.Stable) ↔ ∀ taken ∈ trace step s calls, taken.1.Spares taken.2.1) from
    all calls start stable_start
  intro calls
  induction calls with
  | nil => simp [trace]
  | cons call rest ih =>
    intro s stable
    rcases stepped : s.step call with _ | s'
    · simp [trace,stepped]
    · have here := stable_step stable stepped
      simp only [trace,stepped,List.forall_mem_cons]
      constructor
      · rintro ⟨now,later⟩
        exact ⟨here.mp now,(ih s' now).mp later⟩
      · rintro ⟨now,later⟩
        have kept := here.mpr now
        exact ⟨kept,(ih s' kept).mpr later⟩

/-- After a read of a cycle decided not ready, the same read answers ready. -/
theorem decision_flips : ∃ s, runActions step (fun _ _ => True) [.updateReady 0 false,.ready 0] start = some s ∧
    s.first 0 = some false ∧ (s.sync.ready 0).map Prod.fst = some true ∧ s.sync.updateReady 0 false = none :=
  ⟨_,rfl,rfl,rfl,rfl⟩

end Decided
end FlowSim.AheadPort
