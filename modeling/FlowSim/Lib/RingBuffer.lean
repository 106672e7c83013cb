import Mathlib

/-!
Circular buffers of fixed size. The elements in use start at `head` and wrap
around; `toList` reads them in order, and the two operations are the two ends of
a first-in first-out list.
-/
namespace FlowSim.Lib
set_option linter.unusedSimpArgs false

/-- A circular buffer with `count` elements in use from `head` on, the next one
    to be written at `tail`. -/
structure RingBuffer (α : Type) where
  buffer : List α
  head : Nat
  tail : Nat
  count : Nat
  count_le : count ≤ buffer.length
  head_mod : head % buffer.length = head
  tail_eq : tail = (head + count) % buffer.length
deriving DecidableEq

namespace RingBuffer
variable {α : Type}

def capacity (r : RingBuffer α) : Nat := r.buffer.length

/-- A buffer with nothing in use. -/
def empty (buffer : List α) : RingBuffer α where
  buffer := buffer
  head := 0
  tail := 0
  count := 0
  count_le := Nat.zero_le _
  head_mod := Nat.zero_mod _
  tail_eq := (Nat.zero_mod _).symm

/-- The elements in use, oldest first. -/
def toList (r : RingBuffer α) : List α :=
  (List.range r.count).filterMap (fun i => r.buffer[(r.head + i) % r.buffer.length]?)

/-- Writes at the tail. -/
def push (r : RingBuffer α) (x : α) (room : r.count < r.capacity) : RingBuffer α where
  buffer := r.buffer.set r.tail x
  head := r.head
  tail := (r.tail + 1) % r.capacity
  count := r.count + 1
  count_le := by rw [List.length_set]; exact room
  head_mod := by simpa using r.head_mod
  tail_eq := by rw [List.length_set,r.tail_eq,capacity,Nat.mod_add_mod,Nat.add_assoc]

theorem head_lt (r : RingBuffer α) (some_left : 0 < r.count) : r.head < r.buffer.length := by
  rw [← r.head_mod]
  exact Nat.mod_lt _ (lt_of_lt_of_le some_left r.count_le)

/-- The element at the head. -/
def front (r : RingBuffer α) (some_left : 0 < r.count) : α := r.buffer.get ⟨r.head,r.head_lt some_left⟩

/-- Gives up the element at the head. -/
def pop (r : RingBuffer α) (some_left : 0 < r.count) : RingBuffer α where
  buffer := r.buffer
  head := (r.head + 1) % r.capacity
  tail := r.tail
  count := r.count - 1
  count_le := le_trans (Nat.sub_le _ _) r.count_le
  head_mod := Nat.mod_mod _ _
  tail_eq := by
    rw [r.tail_eq,capacity,Nat.mod_add_mod]
    congr 1
    omega

@[simp] theorem capacity_push (r : RingBuffer α) (x : α) (room : r.count < r.capacity) :
    (r.push x room).capacity = r.capacity := by simp [push,capacity]

@[simp] theorem count_push (r : RingBuffer α) (x : α) (room : r.count < r.capacity) :
    (r.push x room).count = r.count + 1 := rfl

@[simp] theorem capacity_pop (r : RingBuffer α) (some_left : 0 < r.count) : (r.pop some_left).capacity = r.capacity := rfl

@[simp] theorem count_pop (r : RingBuffer α) (some_left : 0 < r.count) : (r.pop some_left).count = r.count - 1 := rfl

@[simp] theorem toList_empty (buffer : List α) : (empty buffer).toList = [] := rfl

theorem toList_eq_nil {r : RingBuffer α} (none_left : r.count = 0) : r.toList = [] := by simp [toList,none_left]

/-- Two offsets below the capacity lie at different positions. -/
theorem position_ne (r : RingBuffer α) {i j : Nat} (i_lt : i < r.buffer.length) (j_lt : j < r.buffer.length) (other : i ≠ j) :
    (r.head + i) % r.buffer.length ≠ (r.head + j) % r.buffer.length := by
  intro same
  have congruent : i ≡ j [MOD r.buffer.length] := Nat.ModEq.add_left_cancel' r.head same
  exact other (Nat.ModEq.eq_of_lt_of_lt congruent i_lt j_lt)

theorem toList_push (r : RingBuffer α) (x : α) (room : r.count < r.capacity) :
    (r.push x room).toList = r.toList ++ [x] := by
  unfold toList
  simp only [count_push,List.range_succ,List.filterMap_append,List.filterMap_cons,List.filterMap_nil]
  have length_eq : (r.push x room).buffer.length = r.buffer.length := by simp [push]
  have position : (r.head + r.count) % r.buffer.length < r.buffer.length :=
    Nat.mod_lt _ (lt_of_le_of_lt (Nat.zero_le _) room)
  congr 1
  · apply List.filterMap_congr
    intro i member
    have old : i < r.count := List.mem_range.mp member
    rw [length_eq]
    show (r.buffer.set r.tail x)[(r.head + i) % r.buffer.length]? = _
    rw [r.tail_eq,List.getElem?_set_ne]
    exact r.position_ne room (lt_of_lt_of_le old r.count_le) (by omega)
  · rw [length_eq]
    show (match (r.buffer.set r.tail x)[(r.head + r.count) % r.buffer.length]? with | none => [] | some y => [y]) = [x]
    rw [r.tail_eq,List.getElem?_set_self position]

theorem toList_pop (r : RingBuffer α) (some_left : 0 < r.count) :
    r.toList = r.front some_left :: (r.pop some_left).toList := by
  obtain ⟨n,count_eq⟩ : ∃ n, r.count = n + 1 := ⟨r.count - 1,by omega⟩
  unfold toList
  rw [count_eq,List.range_succ_eq_map,List.filterMap_cons,List.filterMap_map]
  have at_head : r.buffer[(r.head + 0) % r.buffer.length]? = some (r.front some_left) := by
    rw [Nat.add_zero,r.head_mod,List.getElem?_eq_getElem (r.head_lt some_left)]
    rfl
  rw [at_head]
  simp only [count_pop,count_eq,Nat.add_sub_cancel]
  congr 1
  apply List.filterMap_congr
  intro i _
  show r.buffer[(r.head + (i + 1)) % r.buffer.length]? = r.buffer[((r.head + 1) % r.buffer.length + i) % r.buffer.length]?
  rw [Nat.mod_add_mod,Nat.add_right_comm,Nat.add_assoc]

/-- A buffer lists as many elements as it counts. -/
theorem length_toList (r : RingBuffer α) : r.toList.length = r.count := by
  induction n : r.count generalizing r with
  | zero => rw [toList_eq_nil n]; rfl
  | succ n ih =>
    rw [toList_pop r (by omega),List.length_cons,ih (r.pop (by omega)) (by rw [count_pop]; omega)]

/-! ### Places -/

/-- The place of an element in use is that many places from the head. -/
theorem getElem?_toList (r : RingBuffer α) {i : Nat} (used : i < r.count) :
    r.toList[i]? = r.buffer[(r.head + i) % r.buffer.length]? := by
  induction i generalizing r with
  | zero =>
    rw [toList_pop r used,List.getElem?_cons_zero,Nat.add_zero,r.head_mod,List.getElem?_eq_getElem (r.head_lt used)]
    rfl
  | succ i ih =>
    have some_left : 0 < r.count := by omega
    rw [toList_pop r some_left,List.getElem?_cons_succ,ih (r.pop some_left) (by rw [count_pop]; omega)]
    show r.buffer[((r.head + 1) % r.buffer.length + i) % r.buffer.length]? = _
    rw [Nat.mod_add_mod,Nat.add_right_comm,Nat.add_assoc]

/-- Places less than the capacity apart are different. -/
theorem place_ne {head size i j : Nat} (less : i < j) (near : j < i + size) : (head + i) % size ≠ (head + j) % size := by
  intro same
  have congruent : i ≡ j [MOD size] := Nat.ModEq.add_left_cancel' head same
  have far : size ≤ j - i := Nat.le_of_dvd (by omega) ((Nat.modEq_iff_dvd' less.le).mp congruent)
  omega

/-- Writes at a distance from the head. -/
def overwrite (r : RingBuffer α) (i : Nat) (x : α) : RingBuffer α where
  buffer := r.buffer.set ((r.head + i) % r.buffer.length) x
  head := r.head
  tail := r.tail
  count := r.count
  count_le := by rw [List.length_set]; exact r.count_le
  head_mod := by rw [List.length_set]; exact r.head_mod
  tail_eq := by rw [List.length_set]; exact r.tail_eq

@[simp] theorem capacity_overwrite (r : RingBuffer α) (i : Nat) (x : α) : (r.overwrite i x).capacity = r.capacity := by
  simp [overwrite,capacity]

theorem getElem?_overwrite (r : RingBuffer α) {i j : Nat} (x : α) (inside : i < r.capacity) (near : j < r.capacity) :
    (r.overwrite i x).buffer[(r.head + j) % r.buffer.length]? =
      if i = j then some x else r.buffer[(r.head + j) % r.buffer.length]? := by
  have pos : 0 < r.buffer.length := Nat.zero_lt_of_lt inside
  unfold overwrite
  split_ifs with same
  · subst same
    exact List.getElem?_set_self (Nat.mod_lt _ pos)
  · exact List.getElem?_set_ne (r.position_ne inside near same)

/-- Writing over the elements in use, or behind them. -/
theorem toList_overwrite (r : RingBuffer α) {i : Nat} (x : α) (inside : i < r.capacity) :
    (r.overwrite i x).toList = r.toList.set i x := by
  apply List.ext_getElem?
  intro j
  by_cases used : j < r.count
  · have near : j < r.capacity := lt_of_lt_of_le used r.count_le
    have length_eq : (r.overwrite i x).buffer.length = r.buffer.length := List.length_set
    have here := r.getElem?_overwrite x inside near
    rw [← r.getElem?_toList used] at here
    rw [getElem?_toList (r.overwrite i x) used,length_eq,List.getElem?_set,r.length_toList]
    refine here.trans ?_
    by_cases same : i = j
    · rw [if_pos same,if_pos same,if_pos (same ▸ used)]
    · rw [if_neg same,if_neg same]
  · have length_eq : (r.overwrite i x).toList.length = r.count := length_toList _
    rw [List.getElem?_eq_none (by omega),List.getElem?_eq_none (by rw [List.length_set,r.length_toList]; omega)]

/-- Only the first elements stay in use. -/
def truncate (r : RingBuffer α) (n : Nat) (fewer : n ≤ r.count) : RingBuffer α where
  buffer := r.buffer
  head := r.head
  tail := (r.head + n) % r.buffer.length
  count := n
  count_le := fewer.trans r.count_le
  head_mod := r.head_mod
  tail_eq := rfl

theorem toList_truncate (r : RingBuffer α) {n : Nat} (fewer : n ≤ r.count) : (r.truncate n fewer).toList = r.toList.take n := by
  apply List.ext_getElem?
  intro i
  by_cases used : i < n
  · rw [getElem?_toList _ (show i < (r.truncate n fewer).count from used),List.getElem?_take_of_lt used,
      r.getElem?_toList (by omega)]
    rfl
  · have length_eq : (r.truncate n fewer).toList.length = n := length_toList _
    rw [List.getElem?_eq_none (by omega),List.getElem?_eq_none (by rw [List.length_take]; omega)]

end RingBuffer
end FlowSim.Lib
