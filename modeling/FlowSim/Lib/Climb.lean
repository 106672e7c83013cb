import Mathlib

/-!
Going up along a partial function, as from a node of a tree to its parent. A `Ladder` is
the list of what is met on the way to an element with nothing above it; `climb` computes
it when it has enough fuel, and `climbTo` goes along it as far as to an element that is
looked for.
-/
namespace FlowSim.Lib
set_option linter.unusedSimpArgs false

section
variable {α : Type} (up : α → Option α)

/-- One reaches the second element from the first by going up. -/
abbrev Climbs : α → α → Prop := Relation.ReflTransGen fun a b => up a = some b

/-- The element and those above it, `fuel` of them at most. -/
def climb : (fuel : Nat) → α → List α
  | 0, _ => []
  | fuel + 1, a => a :: (up a).elim [] (climb fuel)

/-- The way up from an element to one that has nothing above it. -/
inductive Ladder : α → List α → Prop where
  | top {a : α} (top : up a = none) : Ladder a [a]
  | rung {a b : α} {l : List α} (above : up a = some b) (rest : Ladder b l) : Ladder a (a :: l)

variable {up} {a b : α} {l : List α}

theorem Climbs.ladder {top : α} (climbs : Climbs up a top) (ends : up top = none) : ∃ l, Ladder up a l := by
  induction climbs using Relation.ReflTransGen.head_induction_on with
  | refl => exact ⟨[top],.top ends⟩
  | head above _ ih =>
    obtain ⟨l,rest⟩ := ih
    exact ⟨_,.rung above rest⟩

theorem Ladder.climb_eq (ladder : Ladder up a l) : ∀ {fuel}, l.length ≤ fuel → climb up fuel a = l := by
  induction ladder with
  | @top a top =>
    rintro (_ | fuel) enough
    · cases enough
    · rw [climb,top,Option.elim_none]
  | @rung a b l above rest ih =>
    rintro (_ | fuel) enough
    · cases enough
    · rw [climb,above,Option.elim_some,ih (Nat.le_of_succ_le_succ enough)]

theorem Ladder.unique {l' : List α} (ladder : Ladder up a l) (other : Ladder up a l') : l = l' := by
  induction ladder generalizing l' with
  | top top =>
    cases other with
    | top _ => rfl
    | rung above _ => cases top.symm.trans above
  | rung above rest ih =>
    cases other with
    | top top => cases top.symm.trans above
    | rung above' rest' =>
      obtain rfl := Option.some.inj (above.symm.trans above')
      rw [ih rest']

theorem Ladder.head (ladder : Ladder up a l) : ∃ rest, l = a :: rest := by
  cases ladder with
  | top _ => exact ⟨[],rfl⟩
  | rung _ _ => exact ⟨_,rfl⟩

/-- Where every step up lowers a rank, every way up ends. -/
theorem exists_ladder {inside : α → Prop} (rank : α → Nat)
    (lowers : ∀ {a b}, inside a → up a = some b → inside b ∧ rank b < rank a) : ∀ {a}, inside a → ∃ l, Ladder up a l := by
  intro a isInside
  generalize bound : rank a = n
  induction n using Nat.strong_induction_on generalizing a with
  | _ n ih =>
    cases above : up a with
    | none => exact ⟨[a],.top above⟩
    | some b =>
      obtain ⟨isInside',less⟩ := lowers isInside above
      obtain ⟨l,rest⟩ := ih (rank b) (bound ▸ less) isInside' rfl
      exact ⟨a :: l,.rung above rest⟩

/-- From each element of the way up the rest of the way goes on. -/
theorem Ladder.split (ladder : Ladder up a l) (member : b ∈ l) : ∃ before after, l = before ++ after ∧ Ladder up b after := by
  induction ladder with
  | top top =>
    obtain rfl := List.mem_singleton.mp member
    exact ⟨[],_,rfl,.top top⟩
  | rung above rest ih =>
    rcases List.mem_cons.mp member with rfl | later
    · exact ⟨[],_,rfl,.rung above rest⟩
    · obtain ⟨before,after,rfl,from_b⟩ := ih later
      exact ⟨_ :: before,after,rfl,from_b⟩

theorem Ladder.mem_iff (ladder : Ladder up a l) : b ∈ l ↔ Climbs up a b := by
  constructor
  · intro member
    induction ladder with
    | top top =>
      obtain rfl := List.mem_singleton.mp member
      exact .refl
    | rung above rest ih =>
      rcases List.mem_cons.mp member with rfl | later
      · exact .refl
      · exact .head above (ih later)
  · intro climbs
    induction climbs using Relation.ReflTransGen.head_induction_on generalizing l with
    | refl =>
      cases ladder with
      | top _ => exact List.mem_singleton_self _
      | rung _ _ => exact List.mem_cons_self
    | head above _ ih =>
      cases ladder with
      | top top => cases top.symm.trans above
      | rung above' rest =>
        obtain rfl := Option.some.inj (above.symm.trans above')
        exact List.mem_cons_of_mem _ (ih rest)

theorem Ladder.nodup (ladder : Ladder up a l) : l.Nodup := by
  induction ladder with
  | top _ => exact List.nodup_singleton _
  | rung above rest ih =>
    refine List.nodup_cons.mpr ⟨?_,ih⟩
    intro again
    obtain ⟨before,after,split,from_a⟩ := rest.split again
    have same := congrArg List.length ((Ladder.rung above rest).unique from_a)
    have longer := congrArg List.length split
    rw [List.length_append] at longer
    rw [List.length_cons] at same
    omega

/-- The way up is no longer than there are elements. -/
theorem Ladder.length_le {up : Nat → Option Nat} {a size : Nat} {l : List Nat} (ladder : Ladder up a l)
    (within : ∀ b ∈ l, b < size) : l.length ≤ size := by
  have part : l.toFinset ⊆ Finset.range size := by
    intro b member
    exact Finset.mem_range.mpr (within b (List.mem_toFinset.mp member))
  rw [← List.toFinset_card_of_nodup ladder.nodup]
  exact (Finset.card_le_card part).trans (Finset.card_range size).le

/-- Only one element has nothing above it, and it is the last. -/
theorem Ladder.getLast (ladder : Ladder up a l) : ∃ before top, l = before ++ [top] ∧ up top = none := by
  induction ladder with
  | top top => exact ⟨[],_,rfl,top⟩
  | rung above rest ih =>
    obtain ⟨before,top,rfl,ends⟩ := ih
    exact ⟨_ :: before,top,rfl,ends⟩

/-! ### Where a way stops -/

variable (up) in
/-- Goes up to the first element with the property: what is passed on the way, and that
    element if there is one. None when the fuel is used up first. -/
def climbTo (stop : α → Bool) : (fuel : Nat) → Option α → Option (List α × Option α)
  | 0, _ => none
  | _ + 1, none => some ([],none)
  | fuel + 1, some a => if stop a then some ([],some a) else (climbTo stop fuel (up a)).map fun met => (a :: met.1,met.2)

theorem Ladder.climbTo_eq (ladder : Ladder up a l) (stop : α → Bool) : ∀ {fuel}, l.length < fuel →
    climbTo up stop fuel (some a) = some (l.takeWhile (fun b => !stop b),l.find? stop) := by
  induction ladder with
  | @top a top =>
    rintro (_ | _ | fuel) enough
    · cases enough
    · exact absurd enough (lt_irrefl 1)
    · by_cases stops : stop a
      · simp [climbTo,stops]
      · simp [climbTo,stops,top]
  | @rung a b l above rest ih =>
    rintro (_ | fuel) enough
    · cases enough
    · have later := ih (Nat.lt_of_succ_lt_succ enough)
      by_cases stops : stop a
      · simp [climbTo,stops]
      · simp [climbTo,stops,above,later]

/-- The climb stops at the first element with the property. -/
theorem Ladder.climbTo_found {before rest : List α} (ladder : Ladder up a (before ++ b :: rest)) {stop : α → Bool}
    (passes : ∀ x ∈ before, stop x = false) (stops : stop b = true) {fuel} (enough : (before ++ b :: rest).length < fuel) :
    climbTo up stop fuel (some a) = some (before,some b) := by
  have passed : ∀ x ∈ before, (!stop x) = true := fun x member => by rw [passes x member]; rfl
  rw [ladder.climbTo_eq stop enough,List.takeWhile_append_of_pos passed,List.takeWhile_cons_of_neg (by simp [stops]),
    List.append_nil,List.find?_append,List.find?_cons_of_pos stops,List.find?_eq_none.mpr (by simpa using passes)]
  rfl

/-- The climb passes everything when nothing has the property. -/
theorem Ladder.climbTo_none (ladder : Ladder up a l) {stop : α → Bool} (passes : ∀ x ∈ l, stop x = false) {fuel}
    (enough : l.length < fuel) : climbTo up stop fuel (some a) = some (l,none) := by
  rw [ladder.climbTo_eq stop enough,List.takeWhile_eq_self_iff.mpr (by simpa using passes),
    List.find?_eq_none.mpr (by simpa using passes)]

/-- Nothing stops the climb but the end of the way. -/
theorem Ladder.climbTo_top (ladder : Ladder up a l) {fuel} (enough : l.length < fuel) :
    climbTo up (fun _ => false) fuel (some a) = some (l,none) :=
  ladder.climbTo_none (fun _ _ => rfl) enough

theorem ladder_of_climbTo : ∀ {fuel : Nat} {a : α} {met : List α × Option α},
    climbTo up (fun _ => false) fuel (some a) = some met → ∃ l, Ladder up a l
  | 0, _, _, ended => by cases ended
  | fuel + 1, a, met, ended => by
    rw [climbTo,if_neg Bool.false_ne_true] at ended
    obtain ⟨later,rest,-⟩ := Option.map_eq_some_iff.mp ended
    cases above : up a with
    | none => exact ⟨_,.top above⟩
    | some b =>
      rw [above] at rest
      obtain ⟨l,ladder⟩ := ladder_of_climbTo rest
      exact ⟨_,.rung above ladder⟩

theorem Ladder.above (ladder : Ladder up a (a :: l)) : l = [] ∧ up a = none ∨ ∃ b, up a = some b ∧ Ladder up b l := by
  cases ladder with
  | top top => exact .inl ⟨rfl,top⟩
  | rung above rest => exact .inr ⟨_,above,rest⟩

/-- From above an element the climb goes along the rest of its way. -/
theorem Ladder.climbTo_above (ladder : Ladder up a (a :: l)) (stop : α → Bool) {fuel} (enough : l.length < fuel) :
    climbTo up stop fuel (up a) = some (l.takeWhile (fun b => !stop b),l.find? stop) := by
  rcases ladder.above with ⟨rfl,top⟩ | ⟨next,above,further⟩
  · obtain ⟨fuel,rfl⟩ := Nat.exists_eq_succ_of_ne_zero (Nat.ne_zero_of_lt enough)
    rw [top]
    rfl
  · rw [above,further.climbTo_eq stop enough]

theorem Ladder.climbTo_above_found {before rest : List α} (ladder : Ladder up a (a :: (before ++ b :: rest))) {stop : α → Bool}
    (passes : ∀ x ∈ before, stop x = false) (stops : stop b = true) {fuel} (enough : (before ++ b :: rest).length < fuel) :
    climbTo up stop fuel (up a) = some (before,some b) := by
  rcases ladder.above with ⟨nothing,-⟩ | ⟨next,above,further⟩
  · cases before <;> cases nothing
  · rw [above,further.climbTo_found passes stops enough]

theorem Ladder.climbTo_above_none (ladder : Ladder up a (a :: l)) {stop : α → Bool} (passes : ∀ x ∈ l, stop x = false) {fuel}
    (enough : l.length < fuel) : climbTo up stop fuel (up a) = some (l,none) := by
  rw [ladder.climbTo_above stop enough,List.takeWhile_eq_self_iff.mpr (by simpa using passes),
    List.find?_eq_none.mpr (by simpa using passes)]

/-- From above an element whose way ends, every climb ends. -/
theorem Ladder.climbTo_above_isSome (ladder : Ladder up a l) (stop : α → Bool) {fuel} (enough : l.length < fuel) :
    (climbTo up stop fuel (up a)).isSome := by
  obtain ⟨rest,rfl⟩ := ladder.head
  rw [ladder.climbTo_above stop (Nat.lt_of_succ_lt enough)]
  rfl

/-! ### Where two ways meet -/

theorem Ladder.drop {rest : List α} : ∀ {before : List α} {a : α}, Ladder up a (before ++ b :: rest) → Ladder up b (b :: rest)
  | [], a, ladder => by
    obtain ⟨after,starts⟩ := ladder.head
    cases starts
    exact ladder
  | x :: before, a, ladder => by
    obtain ⟨after,starts⟩ := ladder.head
    cases starts
    rcases ladder.above with ⟨nothing,-⟩ | ⟨next,-,further⟩
    · cases before <;> cases nothing
    · exact further.drop

theorem Ladder.antisymm (ladder : Ladder up a l) (climbs : Climbs up a b) (back : Climbs up b a) : a = b := by
  obtain ⟨before,after,rfl,from_b⟩ := ladder.split (ladder.mem_iff.mpr climbs)
  obtain ⟨later,starts⟩ := ladder.head
  have again : a ∈ after := from_b.mem_iff.mpr back
  cases before with
  | nil =>
    obtain ⟨rest,starts'⟩ := from_b.head
    rw [List.nil_append,starts'] at starts
    exact (List.cons.inj starts).1.symm
  | cons x before =>
    obtain ⟨rfl,-⟩ := List.cons.inj starts
    exact absurd (List.mem_append_right _ again) (List.nodup_cons.mp ladder.nodup).1

/-- Two ways up that have something in common go on together from where they meet. -/
theorem Ladder.meet {l' : List α} (ladder : Ladder up a l) (other : Ladder up b l') {top : α} (shared : top ∈ l) (shared' : top ∈ l') :
    ∃ before before' c rest, l = before ++ c :: rest ∧ l' = before' ++ c :: rest ∧
      (∀ x ∈ before, x ∉ l') ∧ ∀ x ∈ before', x ∉ l := by
  induction ladder with
  | @top a ends =>
    obtain rfl := List.mem_singleton.mp shared
    obtain ⟨before',after,rfl,from_top⟩ := other.split shared'
    obtain rfl := from_top.unique (.top ends)
    refine ⟨[],before',_,[],rfl,rfl,fun _ none => absurd none List.not_mem_nil,?_⟩
    intro x early member
    obtain rfl := List.mem_singleton.mp member
    exact (List.disjoint_of_nodup_append other.nodup) early (List.mem_singleton_self _)
  | @rung a next l above rest ih =>
    by_cases here : a ∈ l'
    · obtain ⟨before',after,rfl,from_a⟩ := other.split here
      obtain rfl := from_a.unique (.rung above rest)
      refine ⟨[],before',a,l,rfl,rfl,fun _ none => absurd none List.not_mem_nil,?_⟩
      intro x early member
      exact (List.disjoint_of_nodup_append other.nodup) early member
    · have later : top ∈ l := by
        rcases List.mem_cons.mp shared with rfl | later
        · exact absurd shared' here
        · exact later
      obtain ⟨before,before',c,after,rfl,same,apart,apart'⟩ := ih later
      refine ⟨a :: before,before',c,after,rfl,same,?_,?_⟩
      · intro x member
        rcases List.mem_cons.mp member with rfl | member
        · exact here
        · exact apart x member
      · intro x member listed
        rcases List.mem_cons.mp listed with rfl | listed
        · exact here (same ▸ List.mem_append_left _ member)
        · exact apart' x member listed

/-- Each element of a way up is followed by what is above it. -/
theorem Ladder.isChain (ladder : Ladder up a l) : l.IsChain fun a b => up a = some b := by
  induction ladder with
  | top _ => exact .singleton _
  | @rung a b l above rest ih =>
    obtain ⟨after,rfl⟩ := rest.head
    exact .cons_cons above ih

end
end FlowSim.Lib
