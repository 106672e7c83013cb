import Mathlib

/-!
Breadth-first search for the first element with a property. Elements are marked when they
are put into the queue, so each is put there once and the search ends; it finds something just
if something with the property can be reached (`search_isSome_iff`).
-/
namespace FlowSim.Lib
set_option linter.unusedSimpArgs false

section
variable {α : Type} [DecidableEq α]

/-- The elements of a list that are not marked, each once. -/
def unmarked : (marked : List α) → List α → List α
  | _, [] => []
  | marked, a :: l => if a ∈ marked then unmarked marked l else a :: unmarked (a :: marked) l

/-- Takes elements from the queue until one has the property, and puts those next to each into
    the queue that are not marked. -/
def search (next : α → List α) (goal : α → Bool) : (fuel : Nat) → (queue marked : List α) → Option α
  | 0, _, _ => none
  | _ + 1, [], _ => none
  | fuel + 1, current :: queue, marked =>
    if goal current then some current
    else search next goal fuel (queue ++ unmarked marked (next current)) (unmarked marked (next current) ++ marked)

/-- One reaches the second element from the first by going on. -/
abbrev Leads (next : α → List α) : α → α → Prop := Relation.ReflTransGen fun a b => b ∈ next a

variable {next : α → List α} {goal : α → Bool}

theorem mem_unmarked : ∀ {marked l : List α} {a : α}, a ∈ unmarked marked l ↔ a ∈ l ∧ a ∉ marked
  | marked, [], a => by simp [unmarked]
  | marked, b :: l, a => by
    by_cases known : b ∈ marked
    · rw [unmarked,if_pos known,mem_unmarked]
      grind
    · rw [unmarked,if_neg known,List.mem_cons,mem_unmarked]
      grind

theorem nodup_unmarked : ∀ {marked l : List α}, (unmarked marked l).Nodup
  | _, [] => List.nodup_nil
  | marked, a :: l => by
    by_cases known : a ∈ marked
    · rw [unmarked,if_pos known]
      exact nodup_unmarked
    · rw [unmarked,if_neg known]
      exact List.nodup_cons.mpr ⟨fun again => (mem_unmarked.mp again).2 List.mem_cons_self,nodup_unmarked⟩

theorem search_some : ∀ {fuel : Nat} {queue marked : List α} {a : α}, search next goal fuel queue marked = some a →
    goal a = true ∧ ∃ b ∈ queue, Leads next b a
  | fuel + 1, current :: queue, marked, a, found => by
    rw [search] at found
    split_ifs at found with isGoal
    · obtain rfl := Option.some.inj found
      exact ⟨isGoal,_,List.mem_cons_self,.refl⟩
    · obtain ⟨isGoal,b,queued,leads⟩ := search_some found
      refine ⟨isGoal,?_⟩
      rcases List.mem_append.mp queued with old | new
      · exact ⟨b,List.mem_cons_of_mem _ old,leads⟩
      · exact ⟨current,List.mem_cons_self,.head (mem_unmarked.mp new).1 leads⟩

/-- What is marked was taken from the queue without being what is looked for, and what is next
    to it is marked, or it is in the queue. -/
structure Searched (next : α → List α) (goal : α → Bool) (queue marked : List α) : Prop where
  queued : ∀ a ∈ queue, a ∈ marked
  taken : ∀ a ∈ marked, a ∈ queue ∨ goal a = false ∧ ∀ b ∈ next a, b ∈ marked

theorem Searched.go_on {current : α} {queue marked : List α} (searched : Searched next goal (current :: queue) marked)
    (other : goal current = false) :
    Searched next goal (queue ++ unmarked marked (next current)) (unmarked marked (next current) ++ marked) := by
  refine ⟨?_,?_⟩
  · intro a queued
    rcases List.mem_append.mp queued with old | new
    · exact List.mem_append_right _ (searched.queued a (List.mem_cons_of_mem _ old))
    · exact List.mem_append_left _ new
  · intro a known
    rcases List.mem_append.mp known with new | old
    · exact .inl (List.mem_append_right _ new)
    · rcases searched.taken a old with queued | ⟨isOther,further⟩
      · rcases List.mem_cons.mp queued with rfl | queued
        · refine .inr ⟨other,fun b isNext => ?_⟩
          by_cases known : b ∈ marked
          · exact List.mem_append_right _ known
          · exact List.mem_append_left _ (mem_unmarked.mpr ⟨isNext,known⟩)
        · exact .inl (List.mem_append_left _ queued)
      · exact .inr ⟨isOther,fun b isNext => List.mem_append_right _ (further b isNext)⟩

/-- With a step for each element in the queue and each that is not marked yet, the search finds
    something if it can be reached. -/
theorem search_complete {all : Finset α} (inside : ∀ a, ∀ b ∈ next a, b ∈ all) {target : α} (isGoal : goal target = true) :
    ∀ {fuel : Nat} {queue marked : List α}, Searched next goal queue marked →
      queue.length + (all.filter (· ∉ marked)).card < fuel → ∀ a ∈ marked, Leads next a target →
      (search next goal fuel queue marked).isSome
  | 0, _, _, _, enough, _, _, _ => absurd enough (Nat.not_lt_zero _)
  | fuel + 1, [], marked, searched, _, a, known, leads => by
    have closed : ∀ {b}, Leads next a b → b ∈ marked := by
      intro b leads
      induction leads with
      | refl => exact known
      | tail _ isNext ih =>
        rcases searched.taken _ ih with queued | ⟨-,further⟩
        · cases queued
        · exact further _ isNext
    rcases searched.taken target (closed leads) with queued | ⟨other,-⟩
    · cases queued
    · cases other.symm.trans isGoal
  | fuel + 1, current :: queue, marked, searched, enough, a, known, leads => by
    rw [search]
    by_cases here : goal current = true
    · rw [if_pos here]
      rfl
    · rw [if_neg here]
      refine search_complete inside isGoal (searched.go_on (Bool.eq_false_of_not_eq_true here)) ?_ a
        (List.mem_append_right _ known) leads
      have fewer : (all.filter (· ∉ unmarked marked (next current) ++ marked)).card + (unmarked marked (next current)).length ≤
          (all.filter (· ∉ marked)).card := by
        rw [← List.toFinset_card_of_nodup nodup_unmarked,← Finset.card_union_of_disjoint]
        · refine Finset.card_le_card fun b member => ?_
          rcases Finset.mem_union.mp member with rest | new
          · obtain ⟨isElement,unknown⟩ := Finset.mem_filter.mp rest
            exact Finset.mem_filter.mpr ⟨isElement,fun old => unknown (List.mem_append_right _ old)⟩
          · obtain ⟨isNext,unknown⟩ := mem_unmarked.mp (List.mem_toFinset.mp new)
            exact Finset.mem_filter.mpr ⟨inside _ b isNext,unknown⟩
        · refine Finset.disjoint_left.mpr fun b rest new => ?_
          exact (Finset.mem_filter.mp rest).2 (List.mem_append_left _ (List.mem_toFinset.mp new))
      rw [List.length_cons] at enough
      rw [List.length_append]
      omega

/-- A search from one element finds something just if it can be reached. -/
theorem search_isSome_iff {all : Finset α} (inside : ∀ a, ∀ b ∈ next a, b ∈ all) {fuel : Nat} (enough : all.card + 1 < fuel)
    (a : α) : (search next goal fuel [a] [a]).isSome ↔ ∃ b, goal b = true ∧ Leads next a b := by
  constructor
  · intro found
    obtain ⟨b,found⟩ := Option.isSome_iff_exists.mp found
    obtain ⟨isGoal,c,queued,leads⟩ := search_some found
    obtain rfl := List.mem_singleton.mp queued
    exact ⟨b,isGoal,leads⟩
  · rintro ⟨b,isGoal,leads⟩
    have start : Searched next goal [a] [a] := ⟨fun _ queued => queued,fun _ known => .inl known⟩
    refine search_complete inside isGoal start ?_ a (List.mem_singleton_self a) leads
    have few := Finset.card_filter_le all (· ∉ [a])
    rw [List.length_singleton]
    omega

end
end FlowSim.Lib
