import Mathlib

/-!
Tables ordered by their last use. Every row has the time it was last used at; in the list of
the rows, most recent first, these times fall from row to row, so the row with the least time
is the last one, in whatever order the rows are looked through.
-/
namespace FlowSim.Lib
set_option linter.unusedSimpArgs false

/-- A row of a table, with the time of its last use. -/
structure Row (κ α : Type) where
  key : κ
  value : α
  time : Nat

section
variable {κ α : Type}

/-- The rows of a table, most recent first, before the time `now`. -/
structure ByRecency (now : Nat) (rows : List (Row κ α)) : Prop where
  keys : (rows.map Row.key).Nodup
  falling : rows.Pairwise fun recent older => older.time < recent.time
  past : ∀ row ∈ rows, row.time < now

theorem byRecency_nil : ByRecency 0 ([] : List (Row κ α)) where
  keys := List.nodup_nil
  falling := .nil
  past := by simp

namespace ByRecency
variable {now : Nat} {rows : List (Row κ α)}

theorem sublist {part : List (Row κ α)} (recent : ByRecency now rows) (sub : part.Sublist rows) : ByRecency now part where
  keys := recent.keys.sublist (sub.map _)
  falling := recent.falling.sublist sub
  past row member := recent.past row (sub.subset member)

/-- A row used now comes to the front. -/
theorem front {key : κ} (recent : ByRecency now rows) (value : α) (fresh : ∀ row ∈ rows, row.key ≠ key) :
    ByRecency (now + 1) (⟨key,value,now⟩ :: rows) where
  keys := by
    refine List.nodup_cons.mpr ⟨?_,recent.keys⟩
    intro again
    obtain ⟨row,member,same⟩ := List.mem_map.mp again
    exact fresh row member same
  falling := List.pairwise_cons.mpr ⟨recent.past,recent.falling⟩
  past row member := by
    rcases List.mem_cons.mp member with rfl | older
    · exact Nat.lt_succ_self now
    · exact Nat.lt_succ_of_lt (recent.past row older)

/-- Values may change where they are. -/
theorem map_value (recent : ByRecency now rows) (change : κ → α → α) :
    ByRecency now (rows.map fun row => { row with value := change row.key row.value }) where
  keys := by
    rw [List.map_map]
    exact recent.keys
  falling := List.pairwise_map.mpr recent.falling
  past row member := by
    obtain ⟨before,inside,rfl⟩ := List.mem_map.mp member
    exact recent.past before inside

/-- The last row is used longest ago. -/
theorem last_least {earlier : List (Row κ α)} {last row : Row κ α} (recent : ByRecency now (earlier ++ [last]))
    (member : row ∈ earlier ++ [last]) : row = last ∨ last.time < row.time := by
  rcases List.mem_append.mp member with before | same
  · exact .inr ((List.pairwise_append.mp recent.falling).2.2 row before last (List.mem_singleton_self _))
  · exact .inl (List.mem_singleton.mp same)

end ByRecency
end

/-! ### Looking for the least -/

section
variable {α κ τ : Type} [LT τ] [DecidableLT τ]

/-- The key and the time of the first item with the least time, unless none is before the
    time to begin with. -/
def leastOf (key : α → κ) (time : α → τ) (start : κ × τ) (items : List α) : κ × τ :=
  items.foldl (fun least item => if time item < least.2 then (key item,time item) else least) start

variable {key : α → κ} {time : α → τ} {best : α}

theorem leastOf_stays : ∀ {items : List α}, (∀ item ∈ items, ¬ time item < time best) →
    leastOf key time (key best,time best) items = (key best,time best)
  | [], _ => rfl
  | item :: items, none_before => by
    rw [leastOf,List.foldl_cons,if_neg (none_before item (List.mem_cons_self ..))]
    exact leastOf_stays fun other member => none_before other (List.mem_cons_of_mem _ member)

/-- Where one item is before all others, the order of the items does not matter. -/
theorem leastOf_eq (asymm : ∀ {s t : τ}, s < t → ¬ t < s) : ∀ {items : List α} {start : κ × τ}, best ∈ items →
    (∀ item ∈ items, item = best ∨ time best < time item) → time best < start.2 →
    leastOf key time start items = (key best,time best)
  | item :: items, start, member, least, before => by
    have not_before : ∀ other ∈ item :: items, ¬ time other < time best := by
      intro other inside earlier
      rcases least other inside with rfl | later
      · exact asymm earlier earlier
      · exact asymm earlier later
    rw [leastOf,List.foldl_cons]
    rcases least item (List.mem_cons_self ..) with rfl | later
    · rw [if_pos before]
      exact leastOf_stays fun other inside => not_before other (List.mem_cons_of_mem _ inside)
    · have elsewhere : best ∈ items := by
        rcases List.mem_cons.mp member with same | inside
        · rw [same] at later
          exact absurd later (asymm later)
        · exact inside
      refine leastOf_eq asymm elsewhere (fun other inside => least other (List.mem_cons_of_mem _ inside)) ?_
      by_cases first : time item < start.2
      · rw [if_pos first]
        exact later
      · rw [if_neg first]
        exact before

end
end FlowSim.Lib
