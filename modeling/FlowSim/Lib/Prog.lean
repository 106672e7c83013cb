import Mathlib

/-!
Programs that issue operations on a state they share with others. A program is
the tree of its operations, each followed by what the program does for every
answer it may get. A discipline says which operations a program may issue, what
it may assume of the answers, and how the ghost history it carries grows; a
program that `Keeps` a discipline can be reasoned about without running it.
-/
namespace FlowSim.Lib
set_option linter.unusedSimpArgs false

/-- The operations of a worker, each with the type of its answers. -/
structure Interface where
  Op : Type
  Resp : Op → Type

/-- A program over an interface: it returns, or issues an operation and goes on
    with the answer. -/
inductive Prog (I : Interface) (α : Type) where
  | done (value : α)
  | call (op : I.Op) (next : I.Resp op → Prog I α)

namespace Prog
variable {I : Interface} {α β γ : Type}

def bind : Prog I α → (α → Prog I β) → Prog I β
  | .done value, f => f value
  | .call op next, f => .call op (fun answer => bind (next answer) f)

instance : Monad (Prog I) where
  pure := .done
  bind := bind

/-- The program that issues one operation and returns its answer. -/
def perform (op : I.Op) : Prog I (I.Resp op) := .call op .done

@[simp] theorem done_bind (value : α) (f : α → Prog I β) : (Prog.done value >>= f) = f value := rfl

@[simp] theorem call_bind (op : I.Op) (next : I.Resp op → Prog I α) (f : α → Prog I β) :
    (Prog.call op next >>= f) = .call op (fun answer => next answer >>= f) := rfl

@[simp] theorem perform_bind (op : I.Op) (f : I.Resp op → Prog I β) : (perform op >>= f) = .call op f := rfl

theorem bind_done (p : Prog I α) : (p >>= Prog.done) = p := by
  induction p with
  | done value => rfl
  | call op next ih => simp only [call_bind,ih]

theorem bind_assoc (p : Prog I α) (f : α → Prog I β) (g : β → Prog I γ) :
    (p >>= f >>= g) = p >>= fun value => f value >>= g := by
  induction p with
  | done value => rfl
  | call op next ih => simp only [call_bind,ih]

instance : LawfulMonad (Prog I) :=
  LawfulMonad.mk' _ bind_done (fun _ _ => rfl) bind_assoc

/-- Runs a program alone on a state, as long as every operation can be finished. -/
def runWith {σ : Type} (exec : σ → (op : I.Op) → Option (I.Resp op × σ)) : Prog I α → σ → Option (α × σ)
  | .done value, s => some (value,s)
  | .call op next, s => (exec s op).bind fun (answer,s) => runWith exec (next answer) s

theorem runWith_bind {σ : Type} (exec : σ → (op : I.Op) → Option (I.Resp op × σ)) (p : Prog I α) (f : α → Prog I β) (s : σ) :
    (p >>= f).runWith exec s = (p.runWith exec s).bind fun (value,s) => (f value).runWith exec s := by
  induction p generalizing s with
  | done value => rfl
  | call op next ih =>
    simp only [call_bind,runWith,Option.bind_assoc]
    congr 1
    funext answered
    exact ih answered.1 answered.2

/-- What a program returns when every operation has its answer given. -/
def answered (answers : (op : I.Op) → I.Resp op) : Prog I α → α
  | .done value => value
  | .call op next => (next (answers op)).answered answers

@[simp] theorem answered_bind (answers : (op : I.Op) → I.Resp op) (p : Prog I α) (f : α → Prog I β) :
    (p >>= f).answered answers = (f (p.answered answers)).answered answers := by
  induction p with
  | done value => rfl
  | call op next ih => exact ih (answers op)

@[simp] theorem pure_eq (value : α) : (pure value : Prog I α) = .done value := rfl

/-- For some answers, the program issues the operation. -/
def Issues : Prog I α → I.Op → Prop
  | .done _, _ => False
  | .call first next, op => op = first ∨ ∃ answer, Issues (next answer) op

/-- For some answers, the program returns the value. -/
def Returns : Prog I α → α → Prop
  | .done value, result => result = value
  | .call _ next, result => ∃ answer, Returns (next answer) result

theorem returns_of_runWith {σ : Type} {exec : σ → (op : I.Op) → Option (I.Resp op × σ)} {p : Prog I α} {s s' : σ}
    {value : α} (run : p.runWith exec s = some (value,s')) : p.Returns value := by
  induction p generalizing s with
  | done result => exact (congrArg Prod.fst (Option.some.inj run)).symm
  | call op next ih =>
    obtain ⟨⟨answer,later⟩,-,rest⟩ := Option.bind_eq_some_iff.mp run
    exact ⟨answer,ih answer rest⟩

end Prog

/-! ### Disciplines -/

/-- What a program may issue after the history `g`, what it may assume of the
    answer, and the history once the answer is known. -/
structure Discipline (I : Interface) (G : Type) where
  pre : G → I.Op → Prop
  post : G → (op : I.Op) → I.Resp op → Prop
  grow : G → (op : I.Op) → I.Resp op → G

section
variable {I : Interface} {G α β : Type} (D : Discipline I G)

/-- Started with history `g`, the program only issues what the discipline
    allows, and returns with the postcondition `Q`. -/
def Keeps : Prog I α → (G → α → Prop) → G → Prop
  | .done value, Q, g => Q g value
  | .call op next, Q, g => D.pre g op ∧ ∀ answer, D.post g op answer → Keeps (next answer) Q (D.grow g op answer)

variable {D}

@[simp] theorem keeps_done {value : α} {Q : G → α → Prop} {g : G} :
    Keeps D (.done value) Q g ↔ Q g value := Iff.rfl

@[simp] theorem keeps_call {op : I.Op} {next : I.Resp op → Prog I α} {Q : G → α → Prop} {g : G} :
    Keeps D (.call op next) Q g ↔
      D.pre g op ∧ ∀ answer, D.post g op answer → Keeps D (next answer) Q (D.grow g op answer) := Iff.rfl

@[simp] theorem keeps_pure {value : α} {Q : G → α → Prop} {g : G} :
    Keeps D (pure value) Q g ↔ Q g value := Iff.rfl

/-- A sequence keeps the discipline when its first part ends where the second
    part keeps it. -/
theorem keeps_bind {p : Prog I α} {f : α → Prog I β} {Q : G → β → Prop} {g : G} :
    Keeps D (p >>= f) Q g ↔ Keeps D p (fun g value => Keeps D (f value) Q g) g := by
  induction p generalizing g with
  | done value => rfl
  | call op next ih => simp only [Prog.call_bind,keeps_call,ih]

theorem Keeps.mono {p : Prog I α} {Q R : G → α → Prop} (weaker : ∀ g value, Q g value → R g value) :
    ∀ {g}, Keeps D p Q g → Keeps D p R g := by
  induction p with
  | done value => exact fun {g} holds => weaker g value holds
  | call op next ih =>
    exact fun {g} holds => ⟨holds.1,fun answer post => ih answer (holds.2 answer post)⟩

/-- The rule for sequences, in the form a proof applies. -/
theorem Keeps.bind {p : Prog I α} {f : α → Prog I β} {Q : G → α → Prop} {R : G → β → Prop} {g : G}
    (first : Keeps D p Q g) (second : ∀ g value, Q g value → Keeps D (f value) R g) :
    Keeps D (p >>= f) R g :=
  keeps_bind.mpr (first.mono second)

/-- A program that keeps one discipline keeps another that allows, with what holds of the
    history, all that the first allows. -/
theorem Keeps.carry {D' : Discipline I G} {holds : G → Prop} {p : Prog I α} {Q : G → α → Prop} {g : G}
    (keeps : Keeps D p Q g) (now : holds g) (pre : ∀ g op, holds g → D.pre g op → D'.pre g op)
    (post : ∀ g op answer, D'.post g op answer → D.post g op answer)
    (grow : ∀ g op answer, holds g → D'.grow g op answer = D.grow g op answer ∧ holds (D.grow g op answer)) :
    Keeps D' p (fun g value => holds g ∧ Q g value) g := by
  induction p generalizing g with
  | done value => exact ⟨now,keeps⟩
  | call op next ih =>
    refine ⟨pre g op now keeps.1,fun answer learned => ?_⟩
    obtain ⟨same,after⟩ := grow g op answer now
    rw [same]
    exact ih answer (keeps.2 answer (post g op answer learned)) after

/-- A loop over a list keeps the discipline when its body keeps the invariant,
    which may mention what is left to visit. -/
theorem Keeps.forM {items : List β} (body : β → Prog I Unit) (invariant : List β → G → Prop)
    (step : ∀ item rest g, invariant (item :: rest) g → Keeps D (body item) (fun g _ => invariant rest g) g) :
    ∀ {g}, invariant items g → Keeps D (items.forM body) (fun g _ => invariant [] g) g := by
  induction items with
  | nil => exact fun {g} holds => holds
  | cons item rest ih =>
    intro g holds
    simp only [List.forM_eq_forM, List.forM_cons] at ih ⊢
    exact (step item rest g holds).bind (fun g _ kept => ih kept)

end

/-! ### Programs without a history -/

section
variable {I : Interface} {α : Type} {allowed : I.Op → Prop} {p : Prog I α} {Q : Unit → α → Prop}

/-- The discipline of the programs that only issue what is allowed, whatever the answers. -/
def allowing (allowed : I.Op → Prop) : Discipline I Unit where
  pre := fun _ op => allowed op
  post := fun _ _ _ => True
  grow := fun _ _ _ => ()

theorem Keeps.issues {op : I.Op} (keeps : Keeps (allowing allowed) p Q ()) (issued : p.Issues op) : allowed op := by
  induction p with
  | done value => exact issued.elim
  | call first next ih =>
    rcases issued with rfl | ⟨answer,later⟩
    · exact keeps.1
    · exact ih answer (keeps.2 answer trivial) later

theorem Keeps.returns {value : α} (keeps : Keeps (allowing allowed) p Q ()) (returned : p.Returns value) : Q () value := by
  induction p with
  | done result =>
    rw [show value = result from returned]
    exact keeps
  | call first next ih =>
    obtain ⟨answer,later⟩ := returned
    exact ih answer (keeps.2 answer trivial) later

end

/-! ### Computations that can fail -/

theorem bind_ok_iff {ε α β : Type} {x : Except ε α} {f : α → Except ε β} {y : β} :
    (x >>= f) = .ok y ↔ ∃ a, x = .ok a ∧ f a = .ok y := by
  cases x with
  | error err =>
    refine ⟨fun failed => ?_,?_⟩
    · cases failed
    · rintro ⟨_,failed,_⟩
      cases failed
  | ok a =>
    refine ⟨fun same => ⟨a,rfl,same⟩,?_⟩
    rintro ⟨_,same,later⟩
    rw [← Except.ok.inj same] at later
    exact later

end FlowSim.Lib
