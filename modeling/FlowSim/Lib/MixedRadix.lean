import Mathlib

/-!
Numbers in mixed radix. A number below the product of the radices has one digit below
each radix, the least significant first, and `digits_bijOn` says that every choice of
such digits comes from exactly one number.
-/
namespace FlowSim.Lib.MixedRadix
set_option linter.unusedSimpArgs false

/-- The digits of a number; what is left above the last radix is lost. -/
def digits : List Nat → Nat → List Nat
  | [], _ => []
  | radix :: radices, n => n % radix :: digits radices (n / radix)

/-- The number with the given digits. -/
def value : List Nat → List Nat → Nat
  | radix :: radices, digit :: rest => digit + radix * value radices rest
  | _, _ => 0

/-- Every digit is below its radix. -/
def Below (radices ds : List Nat) : Prop := List.Forall₂ (fun radix digit => digit < radix) radices ds

theorem below_cons {radix digit : Nat} {radices ds : List Nat} :
    Below (radix :: radices) (digit :: ds) ↔ digit < radix ∧ Below radices ds := List.forall₂_cons

theorem below_digits {radices : List Nat} (pos : ∀ radix ∈ radices, 0 < radix) (n : Nat) : Below radices (digits radices n) := by
  induction radices generalizing n with
  | nil => exact .nil
  | cons radix radices ih =>
    refine .cons (Nat.mod_lt _ (pos radix List.mem_cons_self)) (ih ?_ _)
    exact fun other member => pos other (List.mem_cons_of_mem _ member)

theorem value_lt {radices ds : List Nat} (below : Below radices ds) : value radices ds < radices.prod := by
  induction below with
  | nil => exact Nat.one_pos
  | @cons radix digit radices ds here _ ih =>
    have room : radix * (value radices ds + 1) ≤ radix * radices.prod := Nat.mul_le_mul_left radix ih
    rw [Nat.mul_succ] at room
    rw [List.prod_cons,value]
    omega

theorem digits_value {radices ds : List Nat} (below : Below radices ds) : digits radices (value radices ds) = ds := by
  induction below with
  | nil => rfl
  | @cons radix digit radices ds here _ ih =>
    have pos : 0 < radix := Nat.zero_lt_of_lt here
    rw [value,digits,Nat.add_mul_mod_self_left,Nat.mod_eq_of_lt here,Nat.add_mul_div_left _ _ pos,
      Nat.div_eq_of_lt here,Nat.zero_add,ih]

theorem value_digits {radices : List Nat} {n : Nat} (inside : n < radices.prod) : value radices (digits radices n) = n := by
  induction radices generalizing n with
  | nil =>
    rw [List.prod_nil] at inside
    rw [value]
    · omega
    · simp
  | cons radix radices ih =>
    rw [List.prod_cons] at inside
    rw [digits,value,ih (Nat.div_lt_of_lt_mul inside)]
    exact Nat.mod_add_div n radix

/-- The digits tell the numbers below the product of the radices apart, and every choice of
    digits is taken. -/
theorem digits_bijOn {radices : List Nat} (pos : ∀ radix ∈ radices, 0 < radix) :
    Set.BijOn (digits radices) {n | n < radices.prod} {ds | Below radices ds} := by
  refine ⟨?_,?_,?_⟩
  · exact fun n _ => below_digits pos n
  · intro n inside m inside' same
    rw [← value_digits inside,← value_digits inside',same]
  · exact fun ds below => ⟨value radices ds,value_lt below,digits_value below⟩

end FlowSim.Lib.MixedRadix
