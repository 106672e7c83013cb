import FlowSim.Lib.Prog
import FlowSim.Lib.Transition

/-!
Workers that run programs over a shared state, one atomic operation at a time,
in any order. An operation may have to wait (`blocked`), may change the shared
state and have to go on (`again`), or may be finished with an answer. `Reach` is
what any schedule reaches; `Supports` is the one-step condition under which a
relation between the shared state and the workers' histories holds throughout.
-/
namespace FlowSim.Lib
set_option linter.unusedSimpArgs false

/-- What happens when a worker tries one atomic step of an operation. -/
inductive Outcome (S R : Type) where
  | blocked
  | again (shared : S)
  | done (answer : R) (shared : S)

/-- How the operations act on the shared state. -/
structure Machine (I : Interface) (S : Type) where
  exec : S → (op : I.Op) → Outcome S (I.Resp op)

/-- An operation that was finished, with its answer. -/
structure Event (I : Interface) where
  op : I.Op
  answer : I.Resp op

/-- The shared state, what each worker still has to run, and the operations it
    has finished, oldest first. -/
structure Config (I : Interface) (S : Type) {W : Type} (α : W → Type) where
  shared : S
  prog : (w : W) → Prog I (α w)
  log : W → List (Event I)

section
variable {I : Interface} {S W : Type} {α : W → Type}

/-- The configuration in which nothing has happened yet. -/
def Config.start (shared : S) (prog : (w : W) → Prog I (α w)) : Config I S α :=
  { shared, prog, log := fun _ => [] }

/-- The worker has nothing left to run. -/
def Config.Finished (c : Config I S α) (w : W) : Prop := ∃ value, c.prog w = .done value

variable [DecidableEq W]

/-- One atomic step of the worker `w`, if it can make one. -/
def Machine.step (M : Machine I S) (w : W) (c : Config I S α) : Option (Config I S α) :=
  match c.prog w with
  | .done _ => none
  | .call op next =>
    match M.exec c.shared op with
    | .blocked => none
    | .again shared => some { c with shared }
    | .done answer shared =>
      some { shared, prog := Function.update c.prog w (next answer),
             log := Function.update c.log w (c.log w ++ [⟨op,answer⟩]) }

/-- The steps of a schedule in turn; a worker that cannot step is passed over. -/
def Machine.run (M : Machine I S) (schedule : List W) (c : Config I S α) : Config I S α :=
  schedule.foldl (fun c w => (M.step w c).getD c) c

/-- The configurations that some schedule reaches. -/
abbrev Machine.Reach (M : Machine I S) : Config I S α → Config I S α → Prop := Reachable (fun c w => M.step w c)

/-! ### Schedules -/

variable {M : Machine I S}

theorem Machine.reach_run (schedule : List W) : ∀ c : Config I S α, M.Reach c (M.run schedule c) := by
  induction schedule with
  | nil => exact fun c => .refl
  | cons w rest ih =>
    intro c
    rcases stepped : M.step w c with _ | next
    · simpa [Machine.run,stepped] using ih c
    · have first : M.Reach c next := Reaches.refl.step w trivial stepped
      simpa [Machine.run,stepped] using first.trans (ih next)

/-- What a step did: it changed the shared state and left the operation to be
    continued, or it finished the operation and logged its answer. -/
theorem Machine.step_cases {w : W} {c c' : Config I S α} (stepped : M.step w c = some c') :
    ∃ op next, c.prog w = .call op next ∧
      ((∃ shared, M.exec c.shared op = .again shared ∧ c' = { c with shared }) ∨
       (∃ answer shared, M.exec c.shared op = .done answer shared ∧
          c' = { shared, prog := Function.update c.prog w (next answer),
                 log := Function.update c.log w (c.log w ++ [⟨op,answer⟩]) })) := by
  unfold Machine.step at stepped
  split at stepped
  · exact absurd stepped (by simp)
  · next op next isCall =>
    refine ⟨op,next,isCall,?_⟩
    split at stepped
    · exact absurd stepped (by simp)
    · next shared outcome => exact .inl ⟨shared,outcome,by simpa using stepped.symm⟩
    · next answer shared outcome => exact .inr ⟨answer,shared,outcome,by simpa using stepped.symm⟩

/-- The step of a worker whose operation can finish. -/
theorem Machine.step_done {w : W} {c : Config I S α} {op : I.Op} {next : I.Resp op → Prog I (α w)} {answer : I.Resp op}
    {shared : S} (isCall : c.prog w = .call op next) (outcome : M.exec c.shared op = .done answer shared) :
    M.step w c = some { shared, prog := Function.update c.prog w (next answer),
                        log := Function.update c.log w (c.log w ++ [⟨op,answer⟩]) } := by
  simp only [Machine.step,isCall,outcome]

/-- A schedule that lets one worker finish its operation: what that worker runs
    next, and that nobody else is touched. -/
theorem Machine.reach_done {w : W} {c : Config I S α} {op : I.Op} {next : I.Resp op → Prog I (α w)}
    {answer : I.Resp op} {shared : S} (isCall : c.prog w = .call op next)
    (outcome : M.exec c.shared op = .done answer shared) :
    ∃ c' : Config I S α, M.Reach c c' ∧ c'.shared = shared ∧ c'.prog w = next answer ∧
      ∀ v ≠ w, c'.prog v = c.prog v :=
  ⟨_,Reaches.refl.step w trivial (Machine.step_done isCall outcome),rfl,Function.update_self ..,
    fun _ other => Function.update_of_ne other ..⟩

/-- Where every operation finishes at once, a worker can be run to its end. -/
theorem Machine.reach_finished (total : ∀ s op, ∃ answer s', M.exec s op = .done answer s') (w : W) (c : Config I S α) :
    ∃ c' : Config I S α, M.Reach c c' ∧ c'.Finished w := by
  generalize running : c.prog w = program
  induction program generalizing c with
  | done value => exact ⟨c,.refl,value,running⟩
  | call op next ih =>
    obtain ⟨answer,shared,outcome⟩ := total c.shared op
    obtain ⟨c₁,first,-,goes_on,-⟩ := Machine.reach_done running outcome
    obtain ⟨c₂,rest,finished⟩ := ih answer c₁ goes_on
    exact ⟨c₂,first.trans rest,finished⟩

/-! ### Invariants -/

variable {G : Type}

/-- The history a discipline has grown over a log. -/
def Discipline.history (D : Discipline I G) (g : G) (log : List (Event I)) : G :=
  log.foldl (fun g event => D.grow g event.op event.answer) g

@[simp] theorem Discipline.history_nil (D : Discipline I G) (g : G) : D.history g [] = g := rfl

@[simp] theorem Discipline.history_append (D : Discipline I G) (g : G) (log : List (Event I)) (event : Event I) :
    D.history g (log ++ [event]) = D.grow (D.history g log) event.op event.answer := by
  simp [Discipline.history]

/-- One step of any worker that keeps its discipline answers as the discipline
    assumes and preserves `J`, a relation between the shared state and the
    histories of all workers. -/
structure Supports (M : Machine I S) (D : W → Discipline I G) (J : S → (W → G) → Prop) : Prop where
  again : ∀ {s g} w op {s'}, J s g → (D w).pre (g w) op → M.exec s op = .again s' → J s' g
  done : ∀ {s g} w op {answer s'}, J s g → (D w).pre (g w) op → M.exec s op = .done answer s' →
    (D w).post (g w) op answer ∧ J s' (Function.update g w ((D w).grow (g w) op answer))

/-- The relation `J` holds of the histories grown so far, and every worker
    still keeps its discipline. -/
structure Governed (D : W → Discipline I G) (J : S → (W → G) → Prop) (g₀ : W → G)
    (Q : (w : W) → G → α w → Prop) (c : Config I S α) : Prop where
  related : J c.shared (fun w => (D w).history (g₀ w) (c.log w))
  keeps : ∀ w, Keeps (D w) (c.prog w) (Q w) ((D w).history (g₀ w) (c.log w))

variable {D : W → Discipline I G} {J : S → (W → G) → Prop} {g₀ : W → G} {Q : (w : W) → G → α w → Prop}

theorem Governed.step (supports : Supports M D J) {c c' : Config I S α} (w : W)
    (governed : Governed D J g₀ Q c) (stepped : M.step w c = some c') : Governed D J g₀ Q c' := by
  obtain ⟨op,next,isCall,outcome⟩ := Machine.step_cases stepped
  have allowed := governed.keeps w
  rw [isCall,keeps_call] at allowed
  rcases outcome with ⟨shared,outcome,rfl⟩ | ⟨answer,shared,outcome,rfl⟩
  · exact ⟨supports.again w op governed.related allowed.1 outcome,governed.keeps⟩
  · obtain ⟨post,related⟩ := supports.done w op governed.related allowed.1 outcome
    refine ⟨?_,fun v => ?_⟩
    · refine cast (congrArg _ (funext fun v => ?_)) related
      by_cases same : v = w
      · subst same; simp
      · simp [same]
    · by_cases same : v = w
      · subst same; simpa using allowed.2 answer post
      · simpa [same] using governed.keeps v

/-- A relation that one step preserves holds in every reachable configuration. -/
theorem Governed.reach (supports : Supports M D J) {c c' : Config I S α}
    (governed : Governed D J g₀ Q c) (reach : M.Reach c c') : Governed D J g₀ Q c' := by
  exact Reaches.invariant reach governed (fun w before _ stepped => before.step supports w stepped)

omit [DecidableEq W] in
/-- Workers that keep their disciplines from the start are governed by any
    supported relation that holds at the start. -/
theorem Governed.start (shared : S) (prog : (w : W) → Prog I (α w)) (related : J shared g₀)
    (keeps : ∀ w, Keeps (D w) (prog w) (Q w) (g₀ w)) : Governed D J g₀ Q (Config.start shared prog) :=
  ⟨related,keeps⟩

omit [DecidableEq W] in
/-- A finished worker ends with its postcondition. -/
theorem Governed.result {c : Config I S α} (governed : Governed D J g₀ Q c) {w : W} {value : α w}
    (finished : c.prog w = .done value) : Q w ((D w).history (g₀ w) (c.log w)) value := by
  have holds := governed.keeps w
  rwa [finished,keeps_done] at holds

omit [DecidableEq W] in
/-- The operation that a worker is at is one its discipline allows. -/
theorem Governed.allowed {c : Config I S α} (governed : Governed D J g₀ Q c) {w : W} {op : I.Op}
    {next : I.Resp op → Prog I (α w)} (at_op : c.prog w = .call op next) :
    (D w).pre ((D w).history (g₀ w) (c.log w)) op := by
  have holds := governed.keeps w
  rw [at_op,keeps_call] at holds
  exact holds.1

end

/-! ### Refinement -/

section
variable {I : Interface} {S S' W : Type} {α : W → Type}

/-- Every finished operation of `M` is one of `M'` on the states that `abs` sees,
    and what `M` does in between is not seen. -/
structure Machine.Refines (M : Machine I S) (M' : Machine I S') (abs : S → S') : Prop where
  again : ∀ {s op s'}, M.exec s op = .again s' → abs s' = abs s
  done : ∀ {s op answer s'}, M.exec s op = .done answer s' → M'.exec (abs s) op = .done answer (abs s')

/-- A configuration with the shared state seen through `abs`. -/
def Config.map (abs : S → S') (c : Config I S α) : Config I S' α :=
  { shared := abs c.shared, prog := c.prog, log := c.log }

variable [DecidableEq W] {M : Machine I S} {M' : Machine I S'} {abs : S → S'}

/-- What a schedule reaches, a schedule of the refined machine reaches, with the
    same programs and the same logs. -/
theorem Machine.Refines.reach (refines : M.Refines M' abs) {c c' : Config I S α} (reach : M.Reach c c') :
    M'.Reach (c.map abs) (c'.map abs) := by
  induction reach with
  | refl => exact .refl
  | @step s s' _ w _ stepped ih =>
    obtain ⟨op,next,isCall,outcome⟩ := Machine.step_cases stepped
    rcases outcome with ⟨shared,outcome,rfl⟩ | ⟨answer,shared,outcome,rfl⟩
    · have same : Config.map abs { s with shared } = s.map abs := by
        simp only [Config.map,refines.again outcome]
      exact same ▸ ih
    · exact ih.step w trivial (Machine.step_done (c := s.map abs) isCall (refines.done outcome))

end
end FlowSim.Lib
