import Mathlib

/-!
Runs of a system that takes one action after the other. `Reaches` is what runs
reach whose every step is allowed by a condition on the state before the step;
an invariant is shown once for the start and once for a step.
-/
namespace FlowSim.Lib
set_option linter.unusedSimpArgs false

section
variable {S A : Type} (step : S → A → Option S) (ok : S → A → Prop)

/-- The states that runs from `start` reach when every step is allowed. -/
inductive Reaches (start : S) : S → Prop where
  | refl : Reaches start start
  | step {s s' : S} (before : Reaches start s) (action : A) (allowed : ok s action)
      (stepped : step s action = some s') : Reaches start s'

/-- Runs on which nothing is forbidden. -/
abbrev Reachable (start s : S) : Prop := Reaches step (fun _ _ => True) start s

/-- A run that goes on for ever, every step allowed. -/
structure Run (start : S) where
  states : Nat → S
  actions : Nat → A
  first : states 0 = start
  allowed : ∀ n, ok (states n) (actions n)
  stepped : ∀ n, step (states n) (actions n) = some (states (n + 1))

/-- Takes the actions in turn, as long as each is allowed and possible. -/
def runActions [∀ s action, Decidable (ok s action)] : List A → S → Option S
  | [], s => some s
  | action :: rest, s => if ok s action then (step s action).bind (runActions rest) else none

/-- The steps of the run that takes the actions in turn, up to the first that is
    not possible: the state before, the action and the state after. -/
def trace : S → List A → List (S × A × S)
  | _, [] => []
  | s, action :: rest =>
    match step s action with
    | some s' => (s,action,s') :: trace s' rest
    | none => []

variable {step ok}

theorem Reaches.trans {s₁ s₂ s₃ : S} (first : Reaches step ok s₁ s₂) (second : Reaches step ok s₂ s₃) :
    Reaches step ok s₁ s₃ := by
  induction second with
  | refl => exact first
  | step _ action allowed stepped ih => exact ih.step action allowed stepped

theorem Reaches.mono {ok' : S → A → Prop} {start s : S} (weaker : ∀ s action, ok s action → ok' s action)
    (reach : Reaches step ok start s) : Reaches step ok' start s := by
  induction reach with
  | refl => exact .refl
  | step _ action allowed stepped ih => exact ih.step action (weaker _ _ allowed) stepped

theorem Run.reaches {start : S} (run : Run step ok start) : ∀ n, Reaches step ok start (run.states n)
  | 0 => by rw [run.first]; exact .refl
  | n + 1 => (run.reaches n).step _ (run.allowed n) (run.stepped n)

/-- An endless run after one more step. -/
def Run.cons {s s' : S} (action : A) (allowed : ok s action) (stepped : step s action = some s') (run : Run step ok s') :
    Run step ok s where
  states n := Nat.casesOn n s run.states
  actions n := Nat.casesOn n action run.actions
  first := rfl
  allowed n := by
    cases n with
    | zero => exact allowed
    | succ n => exact run.allowed n
  stepped n := by
    cases n with
    | zero => exact stepped.trans (congrArg some run.first.symm)
    | succ n => exact run.stepped n

/-- What is reached can be followed by an endless run. -/
theorem Reaches.endless {start s : S} (reach : Reaches step ok start s) (run : Run step ok s) :
    ∃ (longer : Run step ok start) (d : Nat), ∀ n, longer.states (n + d) = run.states n := by
  induction reach with
  | refl => exact ⟨run,0,fun _ => rfl⟩
  | step _ action allowed stepped ih =>
    obtain ⟨longer,d,same⟩ := ih (run.cons action allowed stepped)
    exact ⟨longer,d + 1,fun n => by rw [← Nat.succ_add_eq_add_succ,same]; rfl⟩

/-- What every step of an endless run keeps from some point on holds from there on. -/
theorem Run.onwards {start : S} (run : Run step ok start) {Q : S → Prop} {n : Nat} (now : Q (run.states n))
    (kept : ∀ m ≥ n, Q (run.states m) → Q (run.states (m + 1))) : ∀ m ≥ n, Q (run.states m) :=
  fun _ later => Nat.le_induction now kept _ later

/-- What holds at the start and is kept by every allowed step holds throughout. -/
theorem Reaches.invariant {P : S → Prop} {start s : S} (reach : Reaches step ok start s) (initially : P start)
    (kept : ∀ {s s'} action, P s → ok s action → step s action = some s' → P s') : P s := by
  induction reach with
  | refl => exact initially
  | step _ action allowed stepped ih => exact kept action ih allowed stepped

theorem reaches_runActions [∀ s action, Decidable (ok s action)] : ∀ (actions : List A) {s s' : S},
    runActions step ok actions s = some s' → Reaches step ok s s'
  | [], s, s', ran => by
    obtain rfl := Option.some.inj ran
    exact .refl
  | action :: rest, s, s', ran => by
    rw [runActions] at ran
    split at ran
    · next allowed =>
      obtain ⟨next,stepped,rested⟩ := Option.bind_eq_some_iff.mp ran
      exact (Reaches.refl.step action allowed stepped).trans (reaches_runActions rest rested)
    · exact absurd ran (by simp)

/-- The steps of a run start from states that runs reach. -/
theorem trace_reachable {start s s' : S} {action : A} : ∀ {actions : List A} {t : S}, Reachable step start t →
    (s,action,s') ∈ trace step t actions → Reachable step start s ∧ step s action = some s'
  | [], _, _, taken => by simp [trace] at taken
  | first :: rest, t, reached, taken => by
    rw [trace] at taken
    split at taken
    · next t' stepped =>
      rcases List.mem_cons.mp taken with here | later
      · cases here
        exact ⟨reached,stepped⟩
      · exact trace_reachable (reached.step first trivial stepped) later
    · exact absurd taken (by simp)

/-- The steps of a run take the actions it is given. -/
theorem action_mem_of_trace {taken : S × A × S} : ∀ {actions : List A} {s : S}, taken ∈ trace step s actions →
    taken.2.1 ∈ actions
  | [], _, member => by simp [trace] at member
  | action :: rest, s, member => by
    rw [trace] at member
    split at member
    · rcases List.mem_cons.mp member with here | later
      · rw [here]
        exact List.mem_cons_self ..
      · exact List.mem_cons_of_mem _ (action_mem_of_trace later)
    · cases member

/-- What holds of a step exactly when its condition does, as long as an invariant
    has held, holds of all steps of a run exactly when all conditions do. -/
theorem trace_forall_iff {Sound : S → Prop} {Good : S → A → S → Prop} {Cond : S → A → Prop}
    (exact_ : ∀ {s s' action}, Sound s → step s action = some s' → (Good s action s' ↔ Cond s action))
    (kept : ∀ {s s' action}, Sound s → step s action = some s' → Cond s action → Sound s') :
    ∀ {actions : List A} {s : S}, Sound s →
      ((∀ taken ∈ trace step s actions, Good taken.1 taken.2.1 taken.2.2) ↔
        ∀ taken ∈ trace step s actions, Cond taken.1 taken.2.1)
  | [], _, _ => by simp [trace]
  | action :: rest, s, sound => by
    rw [trace]
    split
    · next s' stepped =>
      simp only [List.forall_mem_cons]
      constructor
      · rintro ⟨good,later⟩
        have cond := (exact_ sound stepped).mp good
        exact ⟨cond,(trace_forall_iff exact_ kept (kept sound stepped cond)).mp later⟩
      · rintro ⟨cond,later⟩
        exact ⟨(exact_ sound stepped).mpr cond,(trace_forall_iff exact_ kept (kept sound stepped cond)).mpr later⟩
    · simp

/-- When a run takes its actions as far as they are allowed, all its steps are. -/
theorem allowed_of_runActions [∀ s action, Decidable (ok s action)] : ∀ {actions : List A} {s : S},
    (runActions step ok actions s).isSome = true → ∀ taken ∈ trace step s actions, ok taken.1 taken.2.1
  | [], _, _ => by simp [trace]
  | action :: rest, s, ran => by
    rw [runActions] at ran
    rw [trace]
    split at ran
    · next allowed =>
      split
      · next s' stepped =>
        rw [stepped,Option.bind_some] at ran
        exact List.forall_mem_cons.mpr ⟨allowed,allowed_of_runActions ran⟩
      · exact fun _ member => absurd member List.not_mem_nil
    · cases ran

/-- The step after a run is one of the steps of the longer run. -/
theorem mem_trace_of_run {s s' : S} {action : A} (stepped : step s action = some s') : ∀ {before : List A} {t : S},
    runActions step (fun _ _ => True) before t = some s → (s,action,s') ∈ trace step t (before ++ [action])
  | [], t, ran => by
    obtain rfl := Option.some.inj ran
    simp [trace,stepped]
  | first :: rest, t, ran => by
    rw [runActions,if_pos trivial] at ran
    obtain ⟨t',first_step,ran'⟩ := Option.bind_eq_some_iff.mp ran
    rw [List.cons_append,trace,first_step]
    exact List.mem_cons_of_mem _ (mem_trace_of_run stepped ran')

end
end FlowSim.Lib
