import FlowSim.Cpu.RegisterAllocator

/-!
Instructions on their way through the core, and the two buffers that hold them: the
reorder buffer, in program order, and the load and store queues.
-/
namespace FlowSim.Cpu
set_option linter.unusedSimpArgs false

/-- What the trace says about an instruction. Register ids are architectural here. -/
structure TraceInstr where
  isBranch : Bool
  branchMispredicted : Bool
  destRegisters : List PhysicalRegisterID
  srcRegisters : List PhysicalRegisterID
  destMemory : List UInt64
  srcMemory : List UInt64
deriving DecidableEq

/-- An instruction in the core. `original` is not part of the source: it is the
    instruction as the trace has it, before its registers are renamed. -/
structure OOOModelInstr where
  instrID : Nat
  readyTime : Nat
  isBranch : Bool
  branchMispredicted : Bool
  fetchIssued : Bool
  decoded : Bool
  scheduled : Bool
  executed : Bool
  completed : Bool
  destRegisters : List PhysicalRegisterID
  srcRegisters : List PhysicalRegisterID
  destMemory : List UInt64
  srcMemory : List UInt64
  completedMemOps : Nat
  original : TraceInstr
deriving DecidableEq

namespace OOOModelInstr

/-- The instruction as it leaves the trace reader. -/
def ofTrace (instr : TraceInstr) : OOOModelInstr where
  instrID := 0
  readyTime := 0
  isBranch := instr.isBranch
  branchMispredicted := instr.branchMispredicted
  fetchIssued := false
  decoded := false
  scheduled := false
  executed := false
  completed := false
  destRegisters := instr.destRegisters
  srcRegisters := instr.srcRegisters
  destMemory := instr.destMemory
  srcMemory := instr.srcMemory
  completedMemOps := 0
  original := instr

def numMemOps (instr : OOOModelInstr) : Nat := instr.destMemory.length + instr.srcMemory.length
def isLoad (instr : OOOModelInstr) : Bool := decide (0 < instr.srcMemory.length)
def isStore (instr : OOOModelInstr) : Bool := decide (0 < instr.destMemory.length)

end OOOModelInstr

/-! ### The reorder buffer -/

/-- The instructions in program order, the head first. -/
structure ReorderBuffer where
  buffer : List OOOModelInstr
  maxSize : Nat

namespace ReorderBuffer

def newReorderBuffer (maxSize : Nat) : ReorderBuffer := { buffer := [], maxSize }

def size (rob : ReorderBuffer) : Nat := rob.buffer.length
def isFull (rob : ReorderBuffer) : Bool := decide (rob.maxSize ≤ rob.size)
def peekAt (rob : ReorderBuffer) (i : Nat) : Option OOOModelInstr := rob.buffer[i]?

/-- What is done to the instruction at a place, through its pointer. -/
def set (rob : ReorderBuffer) (i : Nat) (instr : OOOModelInstr) : ReorderBuffer :=
  { rob with buffer := rob.buffer.set i instr }

def robFull : String := "ROB is full"

def add (rob : ReorderBuffer) (instr : OOOModelInstr) : Except String ReorderBuffer :=
  if rob.isFull then .error robFull else .ok { rob with buffer := rob.buffer ++ [instr] }

theorem eq_of_add {rob rob' : ReorderBuffer} {instr : OOOModelInstr} (added : rob.add instr = .ok rob') :
    rob' = { rob with buffer := rob.buffer ++ [instr] } := by
  unfold add at added
  split at added
  · cases added
  · exact (Except.ok.inj added).symm

/-- Takes the head once it is completed. -/
def retire (rob : ReorderBuffer) : Option (OOOModelInstr × ReorderBuffer) :=
  match rob.buffer with
  | [] => none
  | instr :: rest => if instr.completed then some (instr,{ rob with buffer := rest }) else none

def findByInstrID (rob : ReorderBuffer) (instrID : Nat) : Option Nat :=
  rob.buffer.findIdx? (fun instr => instr.instrID = instrID)

/-- Drops what follows the branch, if the branch is still there. -/
def flush (rob : ReorderBuffer) (branchInstrID : Nat) : ReorderBuffer :=
  match rob.findByInstrID branchInstrID with
  | none => rob
  | some i => { rob with buffer := rob.buffer.take (i + 1) }

end ReorderBuffer

/-! ### Loads and stores -/

structure LSQEntry where
  instrID : Nat
  virtualAddr : UInt64
  readyTime : Nat
  completed : Bool
  completeCycle : Nat
deriving DecidableEq

def newLSQEntry (instrID : Nat) (virtualAddr : UInt64) (readyTime : Nat) : LSQEntry :=
  { instrID, virtualAddr, readyTime, completed := false, completeCycle := 0 }

/-- The first entry of the instruction that is not completed, completed. -/
def completeEntry (instrID cycle : Nat) : List LSQEntry → Option (List LSQEntry)
  | [] => none
  | entry :: rest =>
    if entry.instrID = instrID && !entry.completed then
      some ({ entry with completed := true, completeCycle := cycle } :: rest)
    else (completeEntry instrID cycle rest).map (entry :: ·)

structure LoadStoreQueue where
  loadQueue : List LSQEntry
  storeQueue : List LSQEntry
  maxLQSize : Nat
  maxSQSize : Nat

namespace LoadStoreQueue

def newLoadStoreQueue (maxLQSize maxSQSize : Nat) : LoadStoreQueue :=
  { loadQueue := [], storeQueue := [], maxLQSize, maxSQSize }

def isLoadQueueFull (lsq : LoadStoreQueue) : Bool := decide (lsq.maxLQSize ≤ lsq.loadQueue.length)
def isStoreQueueFull (lsq : LoadStoreQueue) : Bool := decide (lsq.maxSQSize ≤ lsq.storeQueue.length)

/-- Adds a load; one for which there is no room is lost, as the caller ignores the
    error. -/
def addLoad (lsq : LoadStoreQueue) (entry : LSQEntry) : LoadStoreQueue :=
  if lsq.isLoadQueueFull then lsq else { lsq with loadQueue := lsq.loadQueue ++ [entry] }

def addStore (lsq : LoadStoreQueue) (entry : LSQEntry) : LoadStoreQueue :=
  if lsq.isStoreQueueFull then lsq else { lsq with storeQueue := lsq.storeQueue ++ [entry] }

/-- Removes the first entry of the instruction. -/
def removeLoad (lsq : LoadStoreQueue) (instrID : Nat) : LoadStoreQueue :=
  { lsq with loadQueue := lsq.loadQueue.eraseP (fun entry => entry.instrID = instrID) }

def removeStore (lsq : LoadStoreQueue) (instrID : Nat) : LoadStoreQueue :=
  { lsq with storeQueue := lsq.storeQueue.eraseP (fun entry => entry.instrID = instrID) }

def handleLoadResponse (lsq : LoadStoreQueue) (instrID cycle : Nat) : Option LoadStoreQueue :=
  (completeEntry instrID cycle lsq.loadQueue).map ({ lsq with loadQueue := · })

def handleStoreResponse (lsq : LoadStoreQueue) (instrID cycle : Nat) : Option LoadStoreQueue :=
  (completeEntry instrID cycle lsq.storeQueue).map ({ lsq with storeQueue := · })

end LoadStoreQueue
end FlowSim.Cpu
