import FlowSim.Lib.Confluence

/-!
Families of objects with the same operations. An operation names the object it acts on, and
leaves all others as they are. What holds of the operations of one object holds of the family:
refinement, independence, and what a program may do to each object.
-/
namespace FlowSim.Lib
set_option linter.unusedSimpArgs false

/-- The operations of an object, on the objects of a family. -/
abbrev Interface.each (I : Interface) (P : Type) : Interface := ⟨P × I.Op,fun op => I.Resp op.2⟩

variable {I : Interface} {P Q S S' G α β : Type}

/-! ### Programs -/

/-- A program that works on one object. -/
def Prog.inside (p : P) : Prog I α → Prog (I.each P) α
  | .done value => .done value
  | .call op next => .call (p,op) fun answer => inside p (next answer)

/-- A program of a family works on another, in which its objects have other names. -/
def Prog.relabel (f : P → Q) : Prog (I.each P) α → Prog (I.each Q) α
  | .done value => .done value
  | .call op next => .call (f op.1,op.2) fun answer => relabel f (next answer)

/-! ### Operations -/

section
variable [DecidableEq P]

/-- The operations of a family, given those of one object. -/
def Machine.each (M : Machine I S) (P : Type) [DecidableEq P] : Machine (I.each P) (P → S) where
  exec s op :=
    match M.exec (s op.1) op.2 with
    | .blocked => .blocked
    | .again s' => .again (Function.update s op.1 s')
    | .done answer s' => .done answer (Function.update s op.1 s')

variable {M : Machine I S} {M' : Machine I S'} {s s' : P → S} {op op₁ op₂ : (I.each P).Op}

theorem Machine.each_again : (M.each P).exec s op = .again s' ↔
    ∃ t, M.exec (s op.1) op.2 = .again t ∧ s' = Function.update s op.1 t := by
  simp only [Machine.each]
  rcases M.exec (s op.1) op.2 with _ | t | ⟨answer,t⟩
  · simp
  · simp [eq_comm]
  · simp

theorem Machine.each_done {answer : (I.each P).Resp op} : (M.each P).exec s op = .done answer s' ↔
    ∃ t, M.exec (s op.1) op.2 = .done answer t ∧ s' = Function.update s op.1 t := by
  simp only [Machine.each]
  rcases M.exec (s op.1) op.2 with _ | t | ⟨answer',t⟩
  · simp
  · simp
  · constructor
    · intro same
      obtain ⟨rfl,rfl⟩ := Outcome.done.inj same
      exact ⟨t,rfl,rfl⟩
    · rintro ⟨t',same,rfl⟩
      obtain ⟨rfl,rfl⟩ := Outcome.done.inj same
      rfl

theorem Machine.Immediate.each (immediate : M.Immediate) : (M.each P).Immediate := by
  intro s op s' outcome
  obtain ⟨t,outcome,-⟩ := Machine.each_again.mp outcome
  exact immediate _ _ _ outcome

/-- The refinement of one object is one of families. -/
theorem Machine.Refines.each {abs : S → S'} (refines : M.Refines M' abs) :
    (M.each P).Refines (M'.each P) fun s p => abs (s p) where
  again := by
    intro s op s' outcome
    obtain ⟨t,one,rfl⟩ := Machine.each_again.mp outcome
    funext p
    by_cases here : p = op.1
    · subst here
      rw [Function.update_self]
      exact refines.again one
    · rw [Function.update_of_ne here]
  done := by
    intro s op answer s' outcome
    obtain ⟨t,one,rfl⟩ := Machine.each_done.mp outcome
    refine Machine.each_done.mpr ⟨abs t,refines.done one,?_⟩
    funext p
    by_cases here : p = op.1
    · subst here
      rw [Function.update_self,Function.update_self]
    · rw [Function.update_of_ne here,Function.update_of_ne here]

/-- Operations on different objects are independent. -/
theorem Machine.independent_each_of_ne (different : op₁.1 ≠ op₂.1) : (M.each P).Independent s op₁ op₂ := by
  intro answer₁ answer₂ s₁ s₂ first second
  obtain ⟨t₁,outcome₁,rfl⟩ := Machine.each_done.mp first
  obtain ⟨t₂,outcome₂,rfl⟩ := Machine.each_done.mp second
  refine ⟨Function.update (Function.update s op₁.1 t₁) op₂.1 t₂,?_,?_⟩
  · refine Machine.each_done.mpr ⟨t₂,?_,rfl⟩
    rw [Function.update_of_ne different.symm]
    exact outcome₂
  · refine Machine.each_done.mpr ⟨t₁,?_,Function.update_comm different ..⟩
    rw [Function.update_of_ne different]
    exact outcome₁

/-- Operations on the same object are independent when they are so on that object. -/
theorem Machine.independent_each {p : P} {o₁ o₂ : I.Op} (independent : M.Independent (s p) o₁ o₂) :
    (M.each P).Independent s (p,o₁) (p,o₂) := by
  intro answer₁ answer₂ s₁ s₂ first second
  obtain ⟨t₁,outcome₁,rfl⟩ := Machine.each_done.mp first
  obtain ⟨t₂,outcome₂,rfl⟩ := Machine.each_done.mp second
  obtain ⟨t,after₁,after₂⟩ := independent outcome₁ outcome₂
  refine ⟨Function.update s p t,?_,?_⟩
  · refine Machine.each_done.mpr ⟨t,?_,?_⟩
    · rw [Function.update_self]
      exact after₁
    · rw [Function.update_idem]
  · refine Machine.each_done.mpr ⟨t,?_,?_⟩
    · rw [Function.update_self]
      exact after₂
    · rw [Function.update_idem]

theorem Machine.Independent.symm {I : Interface} {S : Type} {M : Machine I S} {s : S} {op₁ op₂ : I.Op}
    (independent : M.Independent s op₁ op₂) : M.Independent s op₂ op₁ := by
  intro answer₁ answer₂ s₁ s₂ first second
  obtain ⟨t,after₁,after₂⟩ := independent second first
  exact ⟨t,after₂,after₁⟩

/-! ### A worker alone -/

/-- An operation that finishes at once; `none` when it does not. -/
def Machine.now (M : Machine I S) (s : S) (op : I.Op) : Option (I.Resp op × S) :=
  match M.exec s op with
  | .done answer s' => some (answer,s')
  | _ => none

/-- A worker that has come to its end stays there. -/
theorem Machine.reach_ended {I : Interface} {S W : Type} {α : W → Type} [DecidableEq W] {M : Machine I S} {c c' : Config I S α}
    (reach : M.Reach c c') {w : W} {value : α w} (ended : c.prog w = .done value) : c'.prog w = .done value := by
  refine Reaches.invariant (P := fun c : Config I S α => c.prog w = .done value) reach ended fun v now _ stepped => ?_
  obtain ⟨op,next,isCall,outcome⟩ := Machine.step_cases stepped
  have other : w ≠ v := by
    rintro rfl
    rw [now] at isCall
    cases isCall
  rcases outcome with ⟨shared,_,rfl⟩ | ⟨answer,shared,_,rfl⟩
  · exact now
  · exact (Function.update_of_ne other ..).trans now

theorem Machine.now_iff {I : Interface} {S : Type} {M : Machine I S} {s s' : S} {op : I.Op} {answer : I.Resp op} :
    M.now s op = some (answer,s') ↔ M.exec s op = .done answer s' := by
  unfold Machine.now
  rcases M.exec s op with _ | t | ⟨answer',t⟩
  · simp
  · simp
  · simp

/-- What a worker does alone, it does alone on the refined states. -/
theorem Machine.Refines.alone {I : Interface} {S S' α : Type} {M : Machine I S} {M' : Machine I S'} {abs : S → S'}
    (refines : M.Refines M' abs) {p : Prog I α} {s s' : S} {value : α} (ran : p.runWith M.now s = some (value,s')) :
    p.runWith M'.now (abs s) = some (value,abs s') := by
  induction p generalizing s with
  | done result =>
    cases ran
    rfl
  | call op next ih =>
    obtain ⟨⟨answer,s₁⟩,first,rest⟩ := Option.bind_eq_some_iff.mp ran
    have meant := Machine.now_iff.mpr (refines.done (Machine.now_iff.mp first))
    exact Option.bind_eq_some_iff.mpr ⟨(answer,abs s₁),meant,ih answer rest⟩

/-- What holds of all workers still holds once one of them has run alone, with what it ends with. -/
theorem Supports.alone {I : Interface} {S G W α : Type} [DecidableEq W] {M : Machine I S} {D : W → Discipline I G}
    {J : S → (W → G) → Prop} (supports : Supports M D J) (w : W) {p : Prog I α} {R : G → α → Prop} {s s' : S} {g : W → G}
    {value : α} (related : J s g) (keeps : Keeps (D w) p R (g w)) (ran : p.runWith M.now s = some (value,s')) :
    ∃ h, J s' (Function.update g w h) ∧ R h value := by
  induction p generalizing s g with
  | done result =>
    cases ran
    refine ⟨g w,?_,keeps⟩
    rw [Function.update_eq_self]
    exact related
  | call op next ih =>
    obtain ⟨⟨answer,s₁⟩,first,rest⟩ := Option.bind_eq_some_iff.mp ran
    obtain ⟨learned,related'⟩ := supports.done w op related keeps.1 (Machine.now_iff.mp first)
    have later := keeps.2 answer learned
    rw [← Function.update_self w ((D w).grow (g w) op answer) g] at later
    obtain ⟨h,after,result⟩ := ih answer related' later rest
    exact ⟨h,by rwa [Function.update_idem] at after,result⟩

/-! ### Disciplines -/

/-- A discipline for each object, with a history for each. Only the objects in `mine` are worked on. -/
def Discipline.each (mine : P → Prop) (D : P → Discipline I G) : Discipline (I.each P) (P → G) where
  pre g op := mine op.1 ∧ (D op.1).pre (g op.1) op.2
  post g op answer := (D op.1).post (g op.1) op.2 answer
  grow g op answer := Function.update g op.1 ((D op.1).grow (g op.1) op.2 answer)

variable {mine : P → Prop} {D : P → Discipline I G} {R : G → α → Prop} {g : P → G}

/-- A program that keeps the discipline of one object keeps those of the family, and the
    histories of the other objects stay as they are. -/
theorem keeps_inside {p : P} (isMine : mine p) {prog : Prog I α} (keeps : Keeps (D p) prog R (g p)) :
    Keeps (Discipline.each mine D) (prog.inside p) (fun g' value => R (g' p) value ∧ ∀ q, q ≠ p → g' q = g q) g := by
  induction prog generalizing g with
  | done value => exact ⟨keeps,fun _ _ => rfl⟩
  | call op next ih =>
    refine ⟨⟨isMine,keeps.1⟩,fun answer learned => ?_⟩
    have later := keeps.2 answer learned
    refine (ih answer (g := Function.update g p ((D p).grow (g p) op answer)) ?_).mono ?_
    · rw [Function.update_self]
      exact later
    · rintro g' value ⟨result,others⟩
      exact ⟨result,fun q other => (others q other).trans (Function.update_of_ne other ..)⟩

end

section
variable [DecidableEq P] [DecidableEq Q] {mine : P → Prop} {mine' : Q → Prop} {D : P → Discipline I G}
  {D' : Q → Discipline I G} {R : (P → G) → α → Prop}

/-- What an operation adds to the history of an object it adds under the object's other name. -/
theorem grown_relabel {f : P → Q} (injective : Function.Injective f) {op : (I.each P).Op} (same : D' (f op.1) = D op.1)
    {g : Q → G} {answer : (I.each P).Resp op} :
    Function.update g (f op.1) ((D' (f op.1)).grow (g (f op.1)) op.2 answer) ∘ f =
      Function.update (g ∘ f) op.1 ((D op.1).grow ((g ∘ f) op.1) op.2 answer) := by
  rw [Function.update_comp_eq_of_injective g injective,same]
  rfl

/-- A program keeps its disciplines under the other names of the objects, and the histories of
    all that are not among them stay as they are. -/
theorem keeps_relabel {f : P → Q} (injective : Function.Injective f) (same : ∀ p, mine p → mine' (f p) ∧ D' (f p) = D p)
    {g : Q → G} {prog : Prog (I.each P) α} (keeps : Keeps (Discipline.each mine D) prog R (g ∘ f)) :
    Keeps (Discipline.each mine' D') (prog.relabel f)
      (fun g' value => R (g' ∘ f) value ∧ ∀ q, (∀ p, f p ≠ q) → g' q = g q) g := by
  induction prog generalizing g with
  | done value => exact ⟨keeps,fun _ _ => rfl⟩
  | call op next ih =>
    obtain ⟨⟨isMine,allowed⟩,later⟩ := keeps
    obtain ⟨isMine',isSame⟩ := same op.1 isMine
    refine ⟨⟨isMine',?_⟩,fun answer learned => ?_⟩
    · show (D' (f op.1)).pre (g (f op.1)) op.2
      rw [isSame]
      exact allowed
    · have learned : (D op.1).post ((g ∘ f) op.1) op.2 answer := isSame ▸ learned
      refine (ih answer ?_).mono ?_
      · have later := later answer learned
        show Keeps _ _ _ (Function.update g (f op.1) ((D' (f op.1)).grow (g (f op.1)) op.2 answer) ∘ f)
        rw [grown_relabel injective isSame]
        exact later
      · rintro g' value ⟨result,others⟩
        exact ⟨result,fun q other => (others q other).trans (Function.update_of_ne (other op.1).symm ..)⟩

end
end FlowSim.Lib
