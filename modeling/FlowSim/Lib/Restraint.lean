import FlowSim.Lib.Family

/-!
What is known of a program besides the discipline it keeps: what it can still issue while it
runs, which stricter disciplines it keeps, and what holds of all workers next to what their
disciplines support.
-/
namespace FlowSim.Lib
set_option linter.unusedSimpArgs false

section
variable {I : Interface} {S W : Type} {α : W → Type} [DecidableEq W] {M : Machine I S}

/-- What a worker can still issue it could issue from the start. -/
theorem Machine.reach_issues {c c' : Config I S α} (reach : M.Reach c c') {w : W} {op : I.Op}
    (issues : (c'.prog w).Issues op) : (c.prog w).Issues op := by
  induction reach with
  | refl => exact issues
  | @step b c' _ v _ stepped ih =>
    obtain ⟨first,next,isCall,outcome⟩ := Machine.step_cases stepped
    rcases outcome with ⟨shared,_,rfl⟩ | ⟨answer,shared,_,rfl⟩
    · exact ih issues
    · by_cases same : w = v
      · subst same
        have issues : (Function.update b.prog w (next answer) w).Issues op := issues
        rw [Function.update_self] at issues
        refine ih ?_
        rw [isCall]
        exact .inr ⟨answer,issues⟩
      · have issues : (Function.update b.prog v (next answer) w).Issues op := issues
        rw [Function.update_of_ne same] at issues
        exact ih issues

end

/-! ### Stricter disciplines -/

/-- A discipline that asks for something more of every operation. -/
def Discipline.also {I : Interface} {G : Type} (D : Discipline I G) (more : G → I.Op → Prop) : Discipline I G :=
  { D with pre := fun g op => D.pre g op ∧ more g op }

section
variable {I : Interface} {G α : Type} {D : Discipline I G} {more : G → I.Op → Prop} {allowed : I.Op → Prop} {p : Prog I α}
  {R : G → α → Prop} {V : Unit → α → Prop} {g : G}

/-- What is asked for besides may follow from something that every operation keeps, and from
    what the program issues at all. -/
theorem Keeps.also {holds : G → Prop} (keeps : Keeps D p R g) (within : Keeps (allowing allowed) p V ()) (now : holds g)
    (kept : ∀ g op answer, holds g → D.pre g op → holds (D.grow g op answer))
    (strict : ∀ g op, holds g → allowed op → more g op) :
    Keeps (D.also more) p (fun g' value => R g' value ∧ V () value ∧ holds g') g := by
  induction p generalizing g with
  | done value => exact ⟨keeps,within,now⟩
  | call op next ih =>
    refine ⟨⟨keeps.1,strict g op now within.1⟩,fun answer learned => ?_⟩
    exact ih answer (keeps.2 answer learned) (within.2 answer trivial) (kept g op answer now keeps.1)

end

theorem Supports.also {I : Interface} {S G W : Type} [DecidableEq W] {M : Machine I S} {D : W → Discipline I G}
    {J : S → (W → G) → Prop} {more : W → G → I.Op → Prop} (supports : Supports M D J) :
    Supports M (fun w => (D w).also (more w)) J where
  again w op _ related may outcome := supports.again w op related may.1 outcome
  done w op _ _ related may outcome := supports.done w op related may.1 outcome

/-! ### Families -/

section
variable {I : Interface} {P Q G α : Type} [DecidableEq P] [DecidableEq Q] {mine : P → Prop} {mine' : Q → Prop} {D : P → Discipline I G}
  {D' : Q → Discipline I G} {more : (P → G) → (I.each P).Op → Prop} {more' : (Q → G) → (I.each Q).Op → Prop}
  {R : (P → G) → α → Prop}

/-- A program that keeps something more does so under the other names of the objects. -/
theorem keeps_relabel_also {f : P → Q} (injective : Function.Injective f) (same : ∀ p, mine p → mine' (f p) ∧ D' (f p) = D p)
    (stricter : ∀ g op, more (g ∘ f) op → more' g (f op.1,op.2)) {g : Q → G} {prog : Prog (I.each P) α}
    (keeps : Keeps ((Discipline.each mine D).also more) prog R (g ∘ f)) :
    Keeps ((Discipline.each mine' D').also more') (prog.relabel f) (fun g' value => R (g' ∘ f) value) g := by
  induction prog generalizing g with
  | done value => exact keeps
  | call op next ih =>
    obtain ⟨⟨⟨isMine,allowed⟩,asked⟩,later⟩ := keeps
    obtain ⟨isMine',isSame⟩ := same op.1 isMine
    refine ⟨⟨⟨isMine',?_⟩,stricter g op asked⟩,fun answer learned => ih answer ?_⟩
    · show (D' (f op.1)).pre (g (f op.1)) op.2
      rw [isSame]
      exact allowed
    · have learned : (D op.1).post ((g ∘ f) op.1) op.2 answer := isSame ▸ learned
      show Keeps _ _ _ (Function.update g (f op.1) ((D' (f op.1)).grow (g (f op.1)) op.2 answer) ∘ f)
      rw [grown_relabel injective isSame]
      exact later answer learned

end

section
variable {I : Interface} {P Q α : Type} {allowed : I.Op → Prop} {R : Unit → α → Prop}

theorem keeps_inside_allowing {p : Prog I α} (keeps : Keeps (allowing allowed) p R ()) (q : P) :
    Keeps (allowing fun op : (I.each P).Op => allowed op.2) (p.inside q) R () := by
  induction p with
  | done value => exact keeps
  | call op next ih => exact ⟨keeps.1,fun answer _ => ih answer (keeps.2 answer trivial)⟩

theorem keeps_relabel_allowing {p : Prog (I.each P) α} (keeps : Keeps (allowing fun op : (I.each P).Op => allowed op.2) p R ()) (f : P → Q) :
    Keeps (allowing fun op : (I.each Q).Op => allowed op.2) (p.relabel f) R () := by
  induction p with
  | done value => exact keeps
  | call op next ih => exact ⟨keeps.1,fun answer _ => ih answer (keeps.2 answer trivial)⟩

end

/-! ### What stays true -/

/-- What holds of all workers, and what the histories keep on their own. -/
theorem Supports.kept {I : Interface} {S G W : Type} [DecidableEq W] {M : Machine I S} {D : W → Discipline I G}
    {J : S → (W → G) → Prop} {K : (W → G) → Prop} (supports : Supports M D J)
    (kept : ∀ {g} w op answer, K g → (D w).pre (g w) op → K (Function.update g w ((D w).grow (g w) op answer))) :
    Supports M D fun s g => J s g ∧ K g where
  again := by
    intro s g w op s' both may outcome
    exact ⟨supports.again w op both.1 may outcome,both.2⟩
  done := by
    intro s g w op answer s' both may outcome
    obtain ⟨learned,after⟩ := supports.done w op both.1 may outcome
    exact ⟨learned,after,kept w op answer both.2 may⟩

end FlowSim.Lib
