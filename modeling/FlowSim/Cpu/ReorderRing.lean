import FlowSim.Cpu.Buffers
import FlowSim.Lib.RingBuffer

/-!
The reorder buffer as the source keeps it: pointers in an array, a head, a tail and a
size, with indices that wrap around. It behaves as the list of instructions that the core
is modelled with (`ring_refines_list`). A nil pointer or an index out of range, which make
the source panic, and a loop that never ends give `none`.
-/
namespace FlowSim.Cpu.Ring
open FlowSim.Lib
set_option linter.unusedSimpArgs false

structure ReorderBuffer where
  buffer : List (Option OOOModelInstr)
  maxSize : Nat
  head : Nat
  tail : Nat
  size : Nat

namespace ReorderBuffer

def newReorderBuffer (maxSize : Nat) : ReorderBuffer :=
  { buffer := List.replicate maxSize none, maxSize, head := 0, tail := 0, size := 0 }

def isFull (rob : ReorderBuffer) : Bool := decide (rob.maxSize ≤ rob.size)
def isEmpty (rob : ReorderBuffer) : Bool := decide (rob.size = 0)

/-- Puts an instruction at the tail; gives the error when there is no room. -/
def add (rob : ReorderBuffer) (instr : OOOModelInstr) : Option (Option String × ReorderBuffer) :=
  if rob.isFull then some (some Cpu.ReorderBuffer.robFull,rob)
  else if rob.tail < rob.buffer.length then
    some (none,{ rob with
      buffer := rob.buffer.set rob.tail (some instr), tail := (rob.tail + 1) % rob.maxSize, size := rob.size + 1 })
  else none

/-- Takes the instruction at the head, if there is one and it is completed. -/
def retire (rob : ReorderBuffer) : Option (Option OOOModelInstr × ReorderBuffer) :=
  if rob.isEmpty then some (none,rob)
  else (rob.buffer[rob.head]?).join.map fun instr =>
    if !instr.completed then (none,rob)
    else (some instr,{ rob with
      buffer := rob.buffer.set rob.head none, head := (rob.head + 1) % rob.maxSize, size := rob.size - 1 })

/-- The pointer at the head. -/
def headInstr (rob : ReorderBuffer) : Option (Option OOOModelInstr) :=
  if rob.isEmpty then some none else rob.buffer[rob.head]?

/-- Goes over the given number of instructions for the index of one with the id. -/
def findLoop (rob : ReorderBuffer) (instrID : Nat) : Nat → Nat → Option (Option Nat)
  | 0, _ => some none
  | remaining + 1, idx => (rob.buffer[idx]?).join.bind fun instr =>
    if instr.instrID = instrID then some (some idx) else findLoop rob instrID remaining ((idx + 1) % rob.maxSize)

def findByInstrID (rob : ReorderBuffer) (instrID : Nat) : Option (Option OOOModelInstr) :=
  if rob.isEmpty then some none
  else (rob.findLoop instrID rob.size rob.head).map fun found => found.bind fun idx => (rob.buffer[idx]?).join

def allLoop (rob : ReorderBuffer) : Nat → Nat → Option (List (Option OOOModelInstr))
  | 0, _ => some []
  | remaining + 1, idx => (rob.buffer[idx]?).bind fun instr =>
    (allLoop rob remaining ((idx + 1) % rob.maxSize)).map (instr :: ·)

/-- The pointers in program order. -/
def getAllInstructions (rob : ReorderBuffer) : Option (List (Option OOOModelInstr)) :=
  if rob.isEmpty then some [] else rob.allLoop rob.size rob.head

/-- The pointer at a distance from the head. -/
def peekAt (rob : ReorderBuffer) (i : Int) : Option (Option OOOModelInstr) :=
  if i < 0 ∨ (rob.size : Int) ≤ i then some none else rob.buffer[(rob.head + i.toNat) % rob.maxSize]?

/-- Clears what is between an index and the tail, and counts it. -/
def flushLoop (tail maxSize : Nat) : Nat → Nat → List (Option OOOModelInstr) → Nat → Option (List (Option OOOModelInstr) × Nat)
  | 0, _, _, _ => none
  | fuel + 1, nextIdx, buffer, flushedCount =>
    if nextIdx = tail then some (buffer,flushedCount)
    else flushLoop tail maxSize fuel ((nextIdx + 1) % maxSize) (buffer.set nextIdx none) (flushedCount + 1)

/-- Drops what follows the branch; gives how much that is. -/
def flush (rob : ReorderBuffer) (branchInstrID : Nat) : Option (Nat × ReorderBuffer) :=
  if rob.isEmpty then some (0,rob)
  else (rob.findLoop branchInstrID rob.size rob.head).bind fun
    | none => some (0,rob)
    | some branchIdx =>
      (flushLoop rob.tail rob.maxSize rob.maxSize ((branchIdx + 1) % rob.maxSize) rob.buffer 0).map fun (buffer,flushedCount) =>
        (flushedCount,{ rob with buffer, tail := (branchIdx + 1) % rob.maxSize, size := rob.size - flushedCount })

def flushAll (rob : ReorderBuffer) : ReorderBuffer :=
  { rob with buffer := List.replicate rob.maxSize none, head := 0, tail := 0, size := 0 }

/-- What the holder of the pointer at a distance from the head does to the instruction. -/
def write (rob : ReorderBuffer) (i : Nat) (instr : OOOModelInstr) : ReorderBuffer :=
  if i < rob.size then { rob with buffer := rob.buffer.set ((rob.head + i) % rob.maxSize) (some instr) } else rob

end ReorderBuffer

/-! ### Calls -/

inductive Call where
  | add (instr : OOOModelInstr)
  | retire
  | head
  | peekAt (i : Int)
  | findByInstrID (instrID : Nat)
  | getAllInstructions
  | flush (branchInstrID : Nat)
  | flushAll
  | write (i : Nat) (instr : OOOModelInstr)

/-- What a call returns. -/
inductive Answer where
  | error (err : Option String)
  | pointer (instr : Option OOOModelInstr)
  | pointers (instrs : List (Option OOOModelInstr))
  | count (flushed : Nat)
  | nothing

def ReorderBuffer.call (rob : ReorderBuffer) : Call → Option (Answer × ReorderBuffer)
  | .add instr => (rob.add instr).map fun (err,rob) => (.error err,rob)
  | .retire => rob.retire.map fun (instr,rob) => (.pointer instr,rob)
  | .head => rob.headInstr.map fun instr => (.pointer instr,rob)
  | .peekAt i => (rob.peekAt i).map fun instr => (.pointer instr,rob)
  | .findByInstrID instrID => (rob.findByInstrID instrID).map fun instr => (.pointer instr,rob)
  | .getAllInstructions => rob.getAllInstructions.map fun instrs => (.pointers instrs,rob)
  | .flush branchInstrID => (rob.flush branchInstrID).map fun (flushed,rob) => (.count flushed,rob)
  | .flushAll => some (.nothing,rob.flushAll)
  | .write i instr => some (.nothing,rob.write i instr)

def ReorderBuffer.calls (rob : ReorderBuffer) : List Call → Option (List Answer × ReorderBuffer)
  | [] => some ([],rob)
  | call :: rest => (rob.call call).bind fun (answer,rob) => (rob.calls rest).map fun (answers,rob) => (answer :: answers,rob)

/-- The same calls on the list of instructions. -/
def listCall (rob : Cpu.ReorderBuffer) : Call → Answer × Cpu.ReorderBuffer
  | .add instr =>
    match rob.add instr with
    | .error err => (.error (some err),rob)
    | .ok rob => (.error none,rob)
  | .retire =>
    match rob.retire with
    | none => (.pointer none,rob)
    | some (instr,rob) => (.pointer (some instr),rob)
  | .head => (.pointer rob.buffer.head?,rob)
  | .peekAt i => (.pointer (if i < 0 then none else rob.peekAt i.toNat),rob)
  | .findByInstrID instrID => (.pointer ((rob.findByInstrID instrID).bind rob.peekAt),rob)
  | .getAllInstructions => (.pointers (rob.buffer.map some),rob)
  | .flush branchInstrID => (.count (rob.size - (rob.flush branchInstrID).size),rob.flush branchInstrID)
  | .flushAll => (.nothing,{ rob with buffer := [] })
  | .write i instr => (.nothing,rob.set i instr)

def listCalls (rob : Cpu.ReorderBuffer) : List Call → List Answer × Cpu.ReorderBuffer
  | [] => ([],rob)
  | call :: rest =>
    let (answer,rob) := listCall rob call
    let (answers,rob) := listCalls rob rest
    (answer :: answers,rob)

/-! ### What the array denotes -/

def ofRing (r : RingBuffer (Option OOOModelInstr)) : ReorderBuffer :=
  { buffer := r.buffer, maxSize := r.capacity, head := r.head, tail := r.tail, size := r.count }

/-- The instructions in use, from the head on, are those of the list. -/
structure Denotes (r : RingBuffer (Option OOOModelInstr)) (rob : Cpu.ReorderBuffer) : Prop where
  some_room : 0 < r.capacity
  maxSize : rob.maxSize = r.capacity
  instrs : r.toList = rob.buffer.map some

section
variable {r : RingBuffer (Option OOOModelInstr)} {rob : Cpu.ReorderBuffer}

theorem Denotes.count (denotes : Denotes r rob) : r.count = rob.buffer.length := by
  rw [← r.length_toList,denotes.instrs,List.length_map]

theorem Denotes.read (denotes : Denotes r rob) {i : Nat} (used : i < r.count) :
    r.buffer[(r.head + i) % r.capacity]? = (rob.buffer[i]?).map some := by
  rw [← List.getElem?_map,← denotes.instrs,r.getElem?_toList used]
  rfl

theorem Denotes.deref (denotes : Denotes r rob) {i : Nat} (used : i < r.count) :
    (r.buffer[(r.head + i) % r.capacity]?).join = rob.buffer[i]? := by
  rw [denotes.read used]
  cases rob.buffer[i]? <;> rfl

theorem Denotes.tail_lt (denotes : Denotes r rob) : (ofRing r).tail < (ofRing r).buffer.length := by
  show r.tail < r.buffer.length
  rw [r.tail_eq]
  exact Nat.mod_lt _ denotes.some_room

theorem Denotes.isEmpty_iff (denotes : Denotes r rob) : (ofRing r).isEmpty = true ↔ rob.buffer = [] := by
  rw [ReorderBuffer.isEmpty,decide_eq_true_iff,← List.length_eq_zero_iff,← denotes.count]
  rfl

/-- The array after an operation, which never changes the capacity. -/
theorem Denotes.after (denotes : Denotes r rob) {r' : RingBuffer (Option OOOModelInstr)} {rob' : Cpu.ReorderBuffer}
    (capacity : r'.capacity = r.capacity) (maxSize : rob'.maxSize = rob.maxSize) (instrs : r'.toList = rob'.buffer.map some) :
    Denotes r' rob' where
  some_room := capacity ▸ denotes.some_room
  maxSize := maxSize.trans (denotes.maxSize.trans capacity.symm)
  instrs := instrs

@[simp] theorem ofRing_buffer : (ofRing r).buffer = r.buffer := rfl
@[simp] theorem ofRing_maxSize : (ofRing r).maxSize = r.capacity := rfl
@[simp] theorem ofRing_head : (ofRing r).head = r.head := rfl
@[simp] theorem ofRing_tail : (ofRing r).tail = r.tail := rfl
@[simp] theorem ofRing_size : (ofRing r).size = r.count := rfl

/-- A call answers as it does on the list, and the array then denotes the list after it. -/
def Agrees (result : Option (Answer × ReorderBuffer)) (expected : Answer × Cpu.ReorderBuffer) : Prop :=
  ∃ r, result = some (expected.1,ofRing r) ∧ Denotes r expected.2

theorem agrees_add (denotes : Denotes r rob) (instr : OOOModelInstr) :
    Agrees ((ofRing r).call (.add instr)) (listCall rob (.add instr)) := by
  have same : (ofRing r).isFull = rob.isFull := by
    unfold ReorderBuffer.isFull Cpu.ReorderBuffer.isFull Cpu.ReorderBuffer.size
    rw [← denotes.count,denotes.maxSize]
    rfl
  simp only [ReorderBuffer.call,ReorderBuffer.add,listCall,Cpu.ReorderBuffer.add,same]
  by_cases full : rob.isFull = true
  · rw [if_pos full,if_pos full]
    exact ⟨r,rfl,denotes⟩
  · have room : r.count < r.capacity := by
      rw [← same] at full
      exact Nat.lt_of_not_le fun le => full (decide_eq_true le)
    rw [if_neg full,if_neg full,if_pos denotes.tail_lt]
    refine ⟨r.push (some instr) room,?_,?_⟩
    · simp [ofRing,RingBuffer.push,RingBuffer.capacity]
    · refine denotes.after (RingBuffer.capacity_push ..) rfl ?_
      rw [RingBuffer.toList_push,denotes.instrs,List.map_append]
      rfl

theorem agrees_retire (denotes : Denotes r rob) : Agrees ((ofRing r).call .retire) (listCall rob .retire) := by
  have empty := denotes.isEmpty_iff
  have count := denotes.count
  simp only [ReorderBuffer.call,ReorderBuffer.retire,listCall,Cpu.ReorderBuffer.retire]
  cases instrs : rob.buffer with
  | nil =>
    rw [if_pos (empty.mpr instrs)]
    exact ⟨r,rfl,denotes⟩
  | cons instr rest =>
    rw [if_neg (fun none_left => by rw [empty.mp none_left] at instrs; cases instrs)]
    have some_left : 0 < r.count := by
      rw [count,instrs]
      exact Nat.succ_pos _
    have at_head : ((ofRing r).buffer[(ofRing r).head]?).join = some instr := by
      have first := denotes.deref some_left
      rw [Nat.add_zero,show r.head % r.capacity = r.head from r.head_mod,instrs] at first
      exact first
    rw [at_head]
    by_cases completed : instr.completed = true
    · have pos := denotes.some_room
      have cleared : r.capacity - 1 < (r.pop some_left).capacity := by
        rw [RingBuffer.capacity_pop]
        omega
      -- the old head is the last place behind the new one
      have place : ((r.head + 1) % r.capacity + (r.capacity - 1)) % r.capacity = r.head := by
        rw [Nat.mod_add_mod,show r.head + 1 + (r.capacity - 1) = r.head + r.capacity by omega,Nat.add_mod_right]
        exact r.head_mod
      have popped : ofRing ((r.pop some_left).overwrite (r.capacity - 1) none) = { ofRing r with
          buffer := r.buffer.set r.head none, head := (r.head + 1) % r.capacity, size := r.count - 1 } := by
        unfold ofRing
        rw [RingBuffer.capacity_overwrite,RingBuffer.capacity_pop]
        show ReorderBuffer.mk (r.buffer.set (((r.head + 1) % r.capacity + (r.capacity - 1)) % r.capacity) none) _ _ _ _ = _
        rw [place]
        rfl
      refine ⟨(r.pop some_left).overwrite (r.capacity - 1) none,?_,?_⟩
      · rw [popped]
        simp only [Option.map_some,completed]
        rfl
      · simp only [completed,if_true]
        refine denotes.after ((RingBuffer.capacity_overwrite ..).trans (RingBuffer.capacity_pop ..)) rfl ?_
        have instrs' := denotes.instrs
        rw [RingBuffer.toList_pop r some_left,instrs,List.map_cons] at instrs'
        rw [RingBuffer.toList_overwrite _ _ cleared,(List.cons.inj instrs').2,List.set_eq_of_length_le]
        rw [← (List.cons.inj instrs').2,RingBuffer.length_toList,RingBuffer.count_pop]
        exact Nat.sub_le_sub_right r.count_le 1
    · rw [Bool.not_eq_true] at completed
      refine ⟨r,?_,?_⟩
      · simp only [Option.map_some,completed]
        rfl
      · simp only [completed]
        exact denotes

theorem agrees_head (denotes : Denotes r rob) : Agrees ((ofRing r).call .head) (listCall rob .head) := by
  refine ⟨r,?_,denotes⟩
  simp only [ReorderBuffer.call,ReorderBuffer.headInstr,listCall]
  by_cases none_left : (ofRing r).isEmpty = true
  · rw [if_pos none_left,denotes.isEmpty_iff.mp none_left]
    rfl
  · have used : 0 < r.count := Nat.pos_of_ne_zero fun zero => none_left (decide_eq_true zero)
    have first := denotes.read used
    rw [Nat.add_zero,show r.head % r.capacity = r.head from r.head_mod,← List.head?_eq_getElem?] at first
    rw [if_neg none_left,ofRing_buffer,ofRing_head,first]
    cases instrs : rob.buffer with
    | nil => exact absurd (denotes.isEmpty_iff.mpr instrs) none_left
    | cons instr rest => rfl

theorem agrees_peekAt (denotes : Denotes r rob) (i : Int) :
    Agrees ((ofRing r).call (.peekAt i)) (listCall rob (.peekAt i)) := by
  refine ⟨r,?_,denotes⟩
  simp only [ReorderBuffer.call,ReorderBuffer.peekAt,listCall,Cpu.ReorderBuffer.peekAt]
  by_cases negative : i < 0
  · rw [if_pos (.inl negative),if_pos negative]
    rfl
  · rw [if_neg negative]
    have count := denotes.count
    by_cases used : i.toNat < r.count
    · rw [if_neg (by rw [ofRing_size]; omega),ofRing_buffer,ofRing_head,ofRing_maxSize,denotes.read used,
        List.getElem?_eq_getElem (count ▸ used)]
      rfl
    · rw [if_pos (by rw [ofRing_size]; omega),List.getElem?_eq_none (by omega)]
      rfl

/-! ### Finding -/

/-- The place after a place. -/
theorem next_place (r : RingBuffer (Option OOOModelInstr)) (i : Nat) :
    ((r.head + i) % r.capacity + 1) % r.capacity = (r.head + (i + 1)) % r.capacity := by
  rw [Nat.mod_add_mod,Nat.add_assoc]

/-- From a place on, the place of the first instruction with the id. -/
theorem findLoop_eq (denotes : Denotes r rob) (instrID : Nat) : ∀ (remaining i : Nat), i + remaining = r.count →
    (ofRing r).findLoop instrID remaining ((r.head + i) % r.capacity) =
      some (((rob.buffer.drop i).findIdx? fun instr => instr.instrID = instrID).map fun j => (r.head + (i + j)) % r.capacity) := by
  have count := denotes.count
  intro remaining
  induction remaining with
  | zero =>
    intro i all
    rw [List.drop_eq_nil_of_le (by omega)]
    rfl
  | succ remaining ih =>
    intro i all
    have inside : i < rob.buffer.length := by omega
    rw [ReorderBuffer.findLoop,ofRing_buffer,denotes.deref (by omega),
      List.getElem?_eq_getElem inside,Option.bind_some,List.drop_eq_getElem_cons inside,List.findIdx?_cons]
    by_cases here : rob.buffer[i].instrID = instrID
    · rw [if_pos here,if_pos (decide_eq_true here)]
      rfl
    · rw [if_neg here,if_neg (by simpa using here),ofRing_maxSize,next_place,ih (i + 1) (by omega),
        Option.map_map]
      congr 1
      apply Option.map_congr
      intro j _
      rw [Function.comp_apply,Nat.add_right_comm,Nat.add_assoc]

theorem findLoop_head (denotes : Denotes r rob) (instrID : Nat) : (ofRing r).findLoop instrID (ofRing r).size (ofRing r).head =
    some ((rob.findByInstrID instrID).map fun j => (r.head + j) % r.capacity) := by
  have found := findLoop_eq denotes instrID r.count 0 (Nat.zero_add _)
  rw [Nat.add_zero,show r.head % r.capacity = r.head from r.head_mod,List.drop_zero] at found
  simp only [Nat.zero_add] at found
  exact found

theorem lt_of_find {instrID j : Nat} (found : rob.findByInstrID instrID = some j) : j < rob.buffer.length :=
  (List.findIdx?_eq_some_iff_getElem.mp found).1

theorem agrees_findByInstrID (denotes : Denotes r rob) (instrID : Nat) :
    Agrees ((ofRing r).call (.findByInstrID instrID)) (listCall rob (.findByInstrID instrID)) := by
  refine ⟨r,?_,denotes⟩
  simp only [ReorderBuffer.call,ReorderBuffer.findByInstrID,listCall]
  by_cases none_left : (ofRing r).isEmpty = true
  · have absent : rob.findByInstrID instrID = none := by
      rw [Cpu.ReorderBuffer.findByInstrID,denotes.isEmpty_iff.mp none_left]
      rfl
    rw [if_pos none_left,absent]
    rfl
  · rw [if_neg none_left,findLoop_head denotes]
    cases found : rob.findByInstrID instrID with
    | none => rfl
    | some j =>
      have used : j < r.count := by
        rw [denotes.count]
        exact lt_of_find found
      show some (Answer.pointer (r.buffer[(r.head + j) % r.capacity]?).join,_) = _
      rw [denotes.deref used]
      rfl

theorem allLoop_eq (denotes : Denotes r rob) : ∀ (remaining i : Nat), i + remaining = r.count →
    (ofRing r).allLoop remaining ((r.head + i) % r.capacity) = some ((rob.buffer.drop i).map some) := by
  have count := denotes.count
  intro remaining
  induction remaining with
  | zero =>
    intro i all
    rw [List.drop_eq_nil_of_le (by omega)]
    rfl
  | succ remaining ih =>
    intro i all
    have inside : i < rob.buffer.length := by omega
    rw [ReorderBuffer.allLoop,ofRing_buffer,denotes.read (by omega),List.getElem?_eq_getElem inside,ofRing_maxSize,next_place,
      List.drop_eq_getElem_cons inside]
    simp only [Option.map_some,Option.bind_some,List.map_cons]
    rw [ih (i + 1) (by omega)]
    rfl

theorem getAllInstructions_eq (denotes : Denotes r rob) : (ofRing r).getAllInstructions = some (rob.buffer.map some) := by
  unfold ReorderBuffer.getAllInstructions
  by_cases none_left : (ofRing r).isEmpty = true
  · rw [if_pos none_left,denotes.isEmpty_iff.mp none_left]
    rfl
  · have all := allLoop_eq denotes r.count 0 (Nat.zero_add _)
    rw [Nat.add_zero,show r.head % r.capacity = r.head from r.head_mod,List.drop_zero] at all
    rw [if_neg none_left]
    exact all

theorem agrees_getAllInstructions (denotes : Denotes r rob) :
    Agrees ((ofRing r).call .getAllInstructions) (listCall rob .getAllInstructions) := by
  refine ⟨r,?_,denotes⟩
  rw [ReorderBuffer.call,getAllInstructions_eq denotes]
  rfl

/-! ### Flushing -/

/-- From behind what is in use up to the tail, every place is cleared and counted. -/
theorem flushLoop_eq {tail : Nat} : ∀ (left fuel i flushed : Nat) (r : RingBuffer (Option OOOModelInstr)),
    tail = (r.head + (i + left)) % r.capacity → 0 < i → i + left ≤ r.capacity → r.count ≤ i → left < fuel →
    ∃ r' : RingBuffer (Option OOOModelInstr), ReorderBuffer.flushLoop tail r.capacity fuel ((r.head + i) % r.capacity) r.buffer flushed =
        some (r'.buffer,flushed + left) ∧
      r'.head = r.head ∧ r'.count = r.count ∧ r'.capacity = r.capacity ∧ r'.toList = r.toList := by
  intro left
  induction left with
  | zero =>
    intro fuel i flushed r isTail _ _ _ enough
    obtain ⟨fuel,rfl⟩ := Nat.exists_eq_succ_of_ne_zero (Nat.ne_of_gt enough)
    refine ⟨r,?_,rfl,rfl,rfl,rfl⟩
    rw [Nat.add_zero] at isTail
    rw [ReorderBuffer.flushLoop,if_pos isTail.symm]
    rfl
  | succ left ih =>
    intro fuel i flushed r isTail pos room unused enough
    obtain ⟨fuel,rfl⟩ := Nat.exists_eq_succ_of_ne_zero (Nat.ne_of_gt (Nat.zero_lt_of_lt enough))
    have apart : (r.head + i) % r.capacity ≠ tail := by
      rw [isTail]
      exact RingBuffer.place_ne (by omega) (by omega)
    have inside : i < r.capacity := by omega
    have capacity := r.capacity_overwrite i none
    obtain ⟨r',cleared,head,count,capacity',list⟩ := ih fuel (i + 1) (flushed + 1) (r.overwrite i none)
      (by rw [capacity,isTail,Nat.add_right_comm i]; rfl) (by omega) (by rw [capacity]; omega)
      (by show r.count ≤ i + 1; omega) (by omega)
    refine ⟨r',?_,head,count,capacity'.trans capacity,?_⟩
    · rw [ReorderBuffer.flushLoop,if_neg apart,next_place,show flushed + (left + 1) = flushed + 1 + left by omega]
      rw [capacity] at cleared
      exact cleared
    · rw [list,RingBuffer.toList_overwrite _ _ inside,List.set_eq_of_length_le]
      rw [RingBuffer.length_toList]
      exact unused

theorem agrees_flush (denotes : Denotes r rob) (branchInstrID : Nat) :
    Agrees ((ofRing r).call (.flush branchInstrID)) (listCall rob (.flush branchInstrID)) := by
  have count := denotes.count
  have few := r.count_le
  simp only [ReorderBuffer.call,ReorderBuffer.flush,listCall,Cpu.ReorderBuffer.flush,Cpu.ReorderBuffer.size]
  by_cases none_left : (ofRing r).isEmpty = true
  · have absent : rob.findByInstrID branchInstrID = none := by
      rw [Cpu.ReorderBuffer.findByInstrID,denotes.isEmpty_iff.mp none_left]
      rfl
    rw [if_pos none_left,absent]
    refine ⟨r,?_,denotes⟩
    rw [Nat.sub_self]
    rfl
  rw [if_neg none_left,findLoop_head denotes]
  cases found : rob.findByInstrID branchInstrID with
  | none =>
    refine ⟨r,?_,denotes⟩
    rw [Nat.sub_self]
    rfl
  | some j =>
    have used : j < r.count := by
      rw [count]
      exact lt_of_find found
    have tail : r.tail = (r.head + (j + 1 + (r.count - (j + 1)))) % r.capacity := by
      rw [r.tail_eq,Nat.add_sub_cancel' used]
      rfl
    obtain ⟨r',cleared,head,count',capacity,list⟩ := flushLoop_eq (r.count - (j + 1)) r.capacity (j + 1) 0
      (r.truncate (j + 1) used) tail (Nat.succ_pos j) (by rw [Nat.add_sub_cancel' used]; exact few) le_rfl
      (by show r.count - (j + 1) < r.buffer.length; omega)
    have kept : r'.toList = (rob.buffer.take (j + 1)).map some := by
      rw [list,RingBuffer.toList_truncate,denotes.instrs,List.map_take]
    have tail' : r'.tail = ((r.head + j) % r.capacity + 1) % r.capacity := by
      rw [r'.tail_eq,head,count',next_place]
      show (r.head + (j + 1)) % r'.capacity = _
      rw [capacity]
      rfl
    have after : ofRing r' = { ofRing r with
        buffer := r'.buffer, tail := ((r.head + j) % r.capacity + 1) % r.capacity, size := r.count - (r.count - (j + 1)) } := by
      unfold ofRing
      rw [tail',capacity,head,count',Nat.sub_sub_self used]
      rfl
    have cleared' : ReorderBuffer.flushLoop (ofRing r).tail (ofRing r).maxSize (ofRing r).maxSize
        (((r.head + j) % r.capacity + 1) % (ofRing r).maxSize) (ofRing r).buffer 0 =
        some (r'.buffer,0 + (r.count - (j + 1))) := by
      rw [ofRing_maxSize,next_place]
      exact cleared
    refine ⟨r',?_,?_⟩
    · simp only [Option.map_some,Option.bind_some,cleared',after,List.length_take,Nat.zero_add]
      rw [Nat.min_eq_left (by omega),← count]
      rfl
    · exact denotes.after capacity rfl kept

theorem agrees_flushAll (denotes : Denotes r rob) : Agrees ((ofRing r).call .flushAll) (listCall rob .flushAll) := by
  have length_eq : (List.replicate r.capacity (none : Option OOOModelInstr)).length = r.capacity := List.length_replicate
  refine ⟨.empty (List.replicate r.capacity none),?_,?_⟩
  · simp only [ReorderBuffer.call,ReorderBuffer.flushAll,listCall,ofRing,RingBuffer.empty,RingBuffer.capacity,length_eq]
    simp
  · exact denotes.after length_eq rfl rfl

theorem agrees_write (denotes : Denotes r rob) (i : Nat) (instr : OOOModelInstr) :
    Agrees ((ofRing r).call (.write i instr)) (listCall rob (.write i instr)) := by
  have count := denotes.count
  simp only [ReorderBuffer.call,ReorderBuffer.write,listCall,Cpu.ReorderBuffer.set]
  by_cases used : i < r.count
  · have inside : i < r.capacity := lt_of_lt_of_le used r.count_le
    refine ⟨r.overwrite i (some instr),?_,?_⟩
    · rw [if_pos (show i < (ofRing r).size from used)]
      unfold ofRing
      rw [RingBuffer.capacity_overwrite]
      rfl
    · refine denotes.after (RingBuffer.capacity_overwrite ..) rfl ?_
      rw [RingBuffer.toList_overwrite _ _ inside,denotes.instrs,List.map_set]
  · refine ⟨r,?_,?_⟩
    · rw [if_neg (show ¬ i < (ofRing r).size from used)]
    · rw [List.set_eq_of_length_le (by omega)]
      exact denotes

theorem agrees_call (denotes : Denotes r rob) (call : Call) : Agrees ((ofRing r).call call) (listCall rob call) := by
  cases call with
  | add instr => exact agrees_add denotes instr
  | retire => exact agrees_retire denotes
  | head => exact agrees_head denotes
  | peekAt i => exact agrees_peekAt denotes i
  | findByInstrID instrID => exact agrees_findByInstrID denotes instrID
  | getAllInstructions => exact agrees_getAllInstructions denotes
  | flush branchInstrID => exact agrees_flush denotes branchInstrID
  | flushAll => exact agrees_flushAll denotes
  | write i instr => exact agrees_write denotes i instr

theorem agrees_calls (denotes : Denotes r rob) (calls : List Call) :
    ∃ r', (ofRing r).calls calls = some ((listCalls rob calls).1,ofRing r') ∧ Denotes r' (listCalls rob calls).2 := by
  induction calls generalizing r rob with
  | nil => exact ⟨r,rfl,denotes⟩
  | cons call rest ih =>
    obtain ⟨r₁,called,denotes₁⟩ := agrees_call denotes call
    obtain ⟨r₂,called',denotes₂⟩ := ih denotes₁
    refine ⟨r₂,?_,denotes₂⟩
    rw [ReorderBuffer.calls,called,Option.bind_some]
    show ((ofRing r₁).calls rest).map _ = _
    rw [called']
    rfl

end

theorem maxSize_listCall (rob : Cpu.ReorderBuffer) (call : Call) : (listCall rob call).2.maxSize = rob.maxSize := by
  cases call <;> simp only [listCall,Cpu.ReorderBuffer.add,Cpu.ReorderBuffer.retire,Cpu.ReorderBuffer.flush,Cpu.ReorderBuffer.set]
  case add instr => by_cases full : rob.isFull = true <;> simp [full]
  case retire =>
    cases rob.buffer with
    | nil => rfl
    | cons instr rest => by_cases completed : instr.completed = true <;> simp [completed]
  case flush branchInstrID => cases rob.findByInstrID branchInstrID <;> rfl

theorem maxSize_listCalls (rob : Cpu.ReorderBuffer) (calls : List Call) : (listCalls rob calls).2.maxSize = rob.maxSize := by
  induction calls generalizing rob with
  | nil => rfl
  | cons call rest ih => exact (ih _).trans (maxSize_listCall rob call)

/-- A new array denotes the empty list. -/
theorem denotes_new {maxSize : Nat} (pos : 0 < maxSize) :
    Denotes (.empty (List.replicate maxSize none)) (.newReorderBuffer maxSize) ∧
      ofRing (.empty (List.replicate maxSize none)) = .newReorderBuffer maxSize := by
  have capacity : (RingBuffer.empty (List.replicate maxSize (none : Option OOOModelInstr))).capacity = maxSize := List.length_replicate
  refine ⟨⟨?_,?_,rfl⟩,?_⟩
  · rw [capacity]
    exact pos
  · rw [capacity]
    rfl
  · unfold ofRing
    rw [capacity]
    rfl

/-- Whatever is called on a new reorder buffer, it neither panics nor hangs, it answers as
    the bounded list of instructions does, and it holds what the list holds, in order. -/
theorem ring_refines_list {maxSize : Nat} (pos : 0 < maxSize) (calls : List Call) :
    let list := listCalls (.newReorderBuffer maxSize) calls
    list.2.buffer.length ≤ maxSize ∧ ∃ rob, (ReorderBuffer.newReorderBuffer maxSize).calls calls = some (list.1,rob) ∧
      rob.size = list.2.buffer.length ∧ rob.getAllInstructions = some (list.2.buffer.map some) := by
  intro list
  obtain ⟨denotes,new⟩ := denotes_new pos
  obtain ⟨r,called,denotes'⟩ := agrees_calls denotes calls
  rw [new] at called
  refine ⟨?_,ofRing r,called,denotes'.count,?_⟩
  · have same : list.2.maxSize = maxSize := maxSize_listCalls _ calls
    rw [← denotes'.count,← same,denotes'.maxSize]
    exact r.count_le
  · exact getAllInstructions_eq denotes'

/-- An instruction that does nothing. -/
def numbered (instrID : Nat) (completed : Bool) : OOOModelInstr :=
  { OOOModelInstr.ofTrace ⟨false,false,[],[],[],[]⟩ with instrID, completed }

/-- The head moves on, the buffer is full over its end, and what follows a branch goes. -/
def aroundTheEnd : List Call :=
  [.add (numbered 0 true),.add (numbered 1 false),.retire,.add (numbered 2 false),.add (numbered 3 false),.flush 1,.retire]

theorem ring_refines_list_around :
    let list := listCalls (.newReorderBuffer 2) aroundTheEnd
    list.2.buffer.length ≤ 2 ∧ ∃ rob, (ReorderBuffer.newReorderBuffer 2).calls aroundTheEnd = some (list.1,rob) ∧
      rob.size = list.2.buffer.length ∧ rob.getAllInstructions = some (list.2.buffer.map some) :=
  ring_refines_list (by decide) aroundTheEnd
end FlowSim.Cpu.Ring
