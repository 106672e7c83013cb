import Mathlib

/-!
Readers. A reader is a state with a function that returns an item or an error and the next
state. `Yields` says that its calls return the items of a list in turn, and after them one
and the same error for ever; it is shown by a relation between the state and what is left.
-/
namespace FlowSim.Lib
set_option linter.unusedSimpArgs false

section
variable {ρ ε α : Type} (read : ρ → Except ε α × ρ)

/-- The state after some calls. -/
def readAfter : Nat → ρ → ρ
  | 0, r => r
  | n + 1, r => readAfter n (read r).2

/-- What the call after `n` others returns. -/
def nthRead (n : Nat) (r : ρ) : Except ε α := (read (readAfter read n r)).1

/-- The items among the results of the first calls. -/
def gathered : Nat → ρ → List α
  | 0, _ => []
  | n + 1, r =>
    match (read r).1 with
    | .ok item => item :: gathered n (read r).2
    | .error _ => gathered n (read r).2

/-- The calls return the items in turn and then always the error. -/
def Yields (stop : ε) (items : List α) (r : ρ) : Prop :=
  ∀ n, nthRead read n r = match items[n]? with
    | some item => .ok item
    | none => .error stop

/-- A relation between the state and what is left, which every call keeps. -/
structure Simulates (stop : ε) (rel : ρ → List α → Prop) : Prop where
  some_left : ∀ {r : ρ} {item : α} {items : List α}, rel r (item :: items) → (read r).1 = .ok item ∧ rel (read r).2 items
  none_left : ∀ {r : ρ}, rel r [] → (read r).1 = .error stop ∧ rel (read r).2 []

variable {read} {stop : ε} {items : List α} {item : α} {r : ρ}

theorem Simulates.yields {rel : ρ → List α → Prop} (simulates : Simulates read stop rel) (now : rel r items) :
    Yields read stop items r := by
  intro n
  induction n generalizing r items with
  | zero =>
    cases items with
    | nil => exact (simulates.none_left now).1
    | cons item items => exact (simulates.some_left now).1
  | succ n ih =>
    cases items with
    | nil => exact ih (simulates.none_left now).2
    | cons item items => exact ih (simulates.some_left now).2

theorem Yields.cons (yields : Yields read stop (item :: items) r) :
    (read r).1 = .ok item ∧ Yields read stop items (read r).2 :=
  ⟨yields 0,fun n => yields (n + 1)⟩

theorem Yields.nil (yields : Yields read stop [] r) : (read r).1 = .error stop ∧ Yields read stop [] (read r).2 :=
  ⟨yields 0,fun n => yields (n + 1)⟩

theorem gathered_ok (n : Nat) (returned : (read r).1 = .ok item) :
    gathered read (n + 1) r = item :: gathered read n (read r).2 := by
  simp only [gathered,returned]

theorem gathered_error {error : ε} (n : Nat) (returned : (read r).1 = .error error) :
    gathered read (n + 1) r = gathered read n (read r).2 := by
  simp only [gathered,returned]

end
end FlowSim.Lib
