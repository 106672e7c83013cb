import FlowSim.Cpu.Buffers
import FlowSim.Lib.Transition

/-!
The out-of-order core: a cycle retires, completes, executes, schedules, dispatches,
decodes and fetches, in this order. Registers are renamed when an instruction is
scheduled. What a run sees of the cache are the cycles in which its accesses are
ready. The panics of the register allocator are errors here.
-/
namespace FlowSim.Cpu
set_option linter.unusedSimpArgs false

structure O3CPUConfig where
  fetchWidth : Nat
  decodeWidth : Nat
  dispatchWidth : Nat
  scheduleWidth : Nat
  executeWidth : Nat
  retireWidth : Nat
  fetchQueueSize : Nat
  decodeQueueSize : Nat
  robSize : Nat
  lqSize : Nat
  sqSize : Nat
  physicalRegisters : Nat
  fetchLatency : Nat
  decodeLatency : Nat
  dispatchLatency : Nat
  executeLatency : Nat

def defaultO3CPUConfig : O3CPUConfig where
  fetchWidth := 6
  decodeWidth := 6
  dispatchWidth := 6
  scheduleWidth := 10
  executeWidth := 10
  retireWidth := 4
  fetchQueueSize := 64
  decodeQueueSize := 64
  robSize := 224
  lqSize := 128
  sqSize := 72
  physicalRegisters := 180
  fetchLatency := 1
  decodeLatency := 1
  dispatchLatency := 1
  executeLatency := 1

/-- A memory operation whose data is ready in a later cycle. -/
structure PendingMemOp where
  instrID : Nat
  readyCycle : Nat

def PendingMemOp.due (op : PendingMemOp) (currentCycle : Nat) : Bool := decide (op.readyCycle ≤ currentCycle)

inductive AccessType where
  | load
  | store
deriving DecidableEq

/-- An access to the cache: address, instruction, kind and cycle. -/
structure CacheAccess where
  addr : UInt64
  vaddr : UInt64
  instrID : Nat
  accessType : AccessType
  cycle : Nat

/-- The core. `traceReader` gives what the reads of the trace return, one after the
    other, and `l1dCache` the cycles in which the accesses made are ready. `delivered`
    is not part of the source: it holds the instructions read so far. -/
structure O3CPU where
  traceReader : Nat → Option TraceInstr
  reads : Nat
  delivered : List TraceInstr
  rob : ReorderBuffer
  lsq : LoadStoreQueue
  regAlloc : RegisterAllocator
  l1dCache : Option (Nat → Nat)
  accesses : List CacheAccess
  fetchQueue : List OOOModelInstr
  decodeQueue : List OOOModelInstr
  config : O3CPUConfig
  currentCycle : Nat
  instrCounter : Nat
  standaloneMode : Bool
  pendingLoads : List PendingMemOp
  pendingStores : List PendingMemOp

namespace O3CPU

def newO3CPU (traceReader : Nat → Option TraceInstr) (config : O3CPUConfig) : O3CPU where
  traceReader := traceReader
  reads := 0
  delivered := []
  rob := .newReorderBuffer config.robSize
  lsq := .newLoadStoreQueue config.lqSize config.sqSize
  regAlloc := .newRegisterAllocator config.physicalRegisters
  l1dCache := none
  accesses := []
  fetchQueue := []
  decodeQueue := []
  config := config
  currentCycle := 0
  instrCounter := 0
  standaloneMode := true
  pendingLoads := []
  pendingStores := []

def setStandaloneMode (cpu : O3CPU) (standalone : Bool) : O3CPU := { cpu with standaloneMode := standalone }
def setL1DCache (cpu : O3CPU) (cache : Nat → Nat) : O3CPU := { cpu with l1dCache := some cache }

/-! ### Memory responses -/

/-- One more memory operation of the instruction is done. -/
def countMemOp (cpu : O3CPU) (instrID : Nat) : O3CPU :=
  match cpu.rob.findByInstrID instrID with
  | none => cpu
  | some i =>
    match cpu.rob.peekAt i with
    | none => cpu
    | some instr => { cpu with rob := cpu.rob.set i { instr with completedMemOps := instr.completedMemOps + 1 } }

def handleLoadResponse (cpu : O3CPU) (instrID cycle : Nat) : O3CPU × Bool :=
  match cpu.lsq.handleLoadResponse instrID cycle with
  | none => (cpu,false)
  | some lsq => ({ cpu with lsq }.countMemOp instrID,true)

def handleStoreResponse (cpu : O3CPU) (instrID cycle : Nat) : O3CPU × Bool :=
  match cpu.lsq.handleStoreResponse instrID cycle with
  | none => (cpu,false)
  | some lsq => ({ cpu with lsq }.countMemOp instrID,true)

/-- Answers the pending loads whose data is there. -/
def processPendingLoads (cpu : O3CPU) : O3CPU :=
  let answered := (cpu.pendingLoads.filter (fun op => op.due cpu.currentCycle)).foldl
    (fun now (op : PendingMemOp) => (now.handleLoadResponse op.instrID cpu.currentCycle).1) cpu
  { answered with pendingLoads := cpu.pendingLoads.filter (fun op => !op.due cpu.currentCycle) }

def processPendingStores (cpu : O3CPU) : O3CPU :=
  let answered := (cpu.pendingStores.filter (fun op => op.due cpu.currentCycle)).foldl
    (fun now (op : PendingMemOp) => (now.handleStoreResponse op.instrID cpu.currentCycle).1) cpu
  { answered with pendingStores := cpu.pendingStores.filter (fun op => !op.due cpu.currentCycle) }

def processPendingMemOps (cpu : O3CPU) : O3CPU := cpu.processPendingLoads.processPendingStores

/-! ### Fetch, decode and dispatch -/

def fetchLoop : Nat → O3CPU → O3CPU
  | 0, cpu => cpu
  | width + 1, cpu =>
    if cpu.config.fetchQueueSize ≤ cpu.fetchQueue.length then cpu
    else
      match cpu.traceReader cpu.reads with
      | none => { cpu with reads := cpu.reads + 1 }
      | some read =>
        let instr := { OOOModelInstr.ofTrace read with
          instrID := cpu.instrCounter
          readyTime := cpu.currentCycle + cpu.config.fetchLatency
          fetchIssued := true }
        let cpu := { cpu with
          reads := cpu.reads + 1
          delivered := cpu.delivered ++ [read]
          instrCounter := cpu.instrCounter + 1
          fetchQueue := cpu.fetchQueue ++ [instr] }
        -- a branch ends the cycle's fetching
        if instr.isBranch then cpu else fetchLoop width cpu

def fetch (cpu : O3CPU) : O3CPU :=
  if cpu.config.fetchQueueSize ≤ cpu.fetchQueue.length then cpu
  else if cpu.rob.isFull then cpu
  else fetchLoop cpu.config.fetchWidth cpu

def decodeLoop : Nat → O3CPU → O3CPU
  | 0, cpu => cpu
  | width + 1, cpu =>
    match cpu.fetchQueue with
    | [] => cpu
    | instr :: rest =>
      if cpu.config.decodeQueueSize ≤ cpu.decodeQueue.length then cpu
      else if cpu.currentCycle < instr.readyTime then cpu
      else
        let instr := { instr with readyTime := cpu.currentCycle + cpu.config.decodeLatency, decoded := true }
        decodeLoop width { cpu with decodeQueue := cpu.decodeQueue ++ [instr], fetchQueue := rest }

def decode (cpu : O3CPU) : O3CPU :=
  if cpu.config.decodeQueueSize ≤ cpu.decodeQueue.length then cpu else decodeLoop cpu.config.decodeWidth cpu

/-- Gives the loads and stores of an instruction their entries. -/
def doMemoryScheduling (cpu : O3CPU) (instr : OOOModelInstr) : O3CPU :=
  let entry (addr : UInt64) := newLSQEntry instr.instrID addr (cpu.currentCycle + cpu.config.dispatchLatency)
  let lsq := if instr.isLoad then instr.srcMemory.foldl (fun lsq addr => lsq.addLoad (entry addr)) cpu.lsq else cpu.lsq
  let lsq := if instr.isStore then instr.destMemory.foldl (fun lsq addr => lsq.addStore (entry addr)) lsq else lsq
  { cpu with lsq }

def dispatchLoop : Nat → O3CPU → O3CPU
  | 0, cpu => cpu
  | width + 1, cpu =>
    match cpu.decodeQueue with
    | [] => cpu
    | instr :: rest =>
      if cpu.currentCycle < instr.readyTime then cpu
      else if cpu.rob.isFull then cpu
      else if instr.isLoad && cpu.lsq.isLoadQueueFull then cpu
      else if instr.isStore && cpu.lsq.isStoreQueueFull then cpu
      else
        match cpu.rob.add { instr with readyTime := cpu.currentCycle + cpu.config.dispatchLatency } with
        | .error _ => cpu
        | .ok rob => dispatchLoop width { { cpu with rob }.doMemoryScheduling instr with decodeQueue := rest }

def dispatch (cpu : O3CPU) : O3CPU := dispatchLoop cpu.config.dispatchWidth cpu

/-! ### Schedule -/

/-- Renames the valid registers of a list in turn. -/
def renameAll (rename : UInt8 → RegisterAllocator → Except String (PhysicalRegisterID × RegisterAllocator)) :
    List PhysicalRegisterID → RegisterAllocator → Except String (List PhysicalRegisterID × RegisterAllocator)
  | [], ra => .ok ([],ra)
  | reg :: rest, ra =>
    if PhysicalRegisterID.isValid reg then do
      let (physReg,ra) ← rename (PhysicalRegisterID.archReg reg) ra
      let (renamed,ra) ← renameAll rename rest ra
      .ok (physReg :: renamed,ra)
    else do
      let (renamed,ra) ← renameAll rename rest ra
      .ok (reg :: renamed,ra)

def renameSources := renameAll (fun archReg ra => ra.renameSrcRegister archReg)
def renameDests (instrID : Nat) := renameAll (fun archReg ra => ra.renameDestRegister archReg instrID)

/-- Renames the registers of the instruction at a place, sources first. -/
def doScheduling (cpu : O3CPU) (i : Nat) (instr : OOOModelInstr) : Except String O3CPU := do
  let (srcRegisters,regAlloc) ← renameSources instr.srcRegisters cpu.regAlloc
  let (destRegisters,regAlloc) ← renameDests instr.instrID instr.destRegisters regAlloc
  .ok { cpu with regAlloc, rob := cpu.rob.set i { instr with srcRegisters, destRegisters, scheduled := true } }

/-- The registers that scheduling the instruction would take: one for each source
    without one, and one for each destination. -/
def registersNeeded (cpu : O3CPU) (instr : OOOModelInstr) : Nat :=
  instr.srcRegisters.countP (fun reg =>
      PhysicalRegisterID.isValid reg && !cpu.regAlloc.isAllocated (PhysicalRegisterID.archReg reg)) +
    instr.destRegisters.countP PhysicalRegisterID.isValid

/-- Goes on from place `i`, with `remaining` places ahead. -/
def scheduleLoop : Nat → Nat → Nat → O3CPU → Except String O3CPU
  | 0, _, _, cpu => .ok cpu
  | remaining + 1, i, searchCount, cpu =>
    if cpu.config.scheduleWidth ≤ searchCount then .ok cpu
    else
      match cpu.rob.peekAt i with
      | none => scheduleLoop remaining (i + 1) searchCount cpu
      | some instr =>
        -- too few registers for this instruction, scheduled or not, ends the search
        if cpu.regAlloc.availableCount < cpu.registersNeeded instr then .ok cpu
        else do
          let cpu ← if !instr.scheduled && decide (instr.readyTime ≤ cpu.currentCycle) then cpu.doScheduling i instr else .ok cpu
          scheduleLoop remaining (i + 1) (if instr.executed then searchCount else searchCount + 1) cpu

def schedule (cpu : O3CPU) : Except String O3CPU := scheduleLoop cpu.rob.size 0 0 cpu

/-! ### Complete -/

/-- The values that the instruction at a place writes are there. -/
def doCompleteExecution (cpu : O3CPU) (i : Nat) (instr : OOOModelInstr) : O3CPU :=
  let regAlloc := (instr.destRegisters.filter PhysicalRegisterID.isValid).foldl
    (fun ra reg => ra.completeDestRegister reg) cpu.regAlloc
  { cpu with regAlloc, rob := cpu.rob.set i { instr with completed := true } }

def completeLoop : Nat → Nat → Nat → O3CPU → O3CPU
  | 0, _, _, cpu => cpu
  | remaining + 1, i, completeCount, cpu =>
    if cpu.config.executeWidth ≤ completeCount then cpu
    else
      match cpu.rob.peekAt i with
      | none => completeLoop remaining (i + 1) completeCount cpu
      | some instr =>
        if instr.executed && !instr.completed && decide (instr.readyTime ≤ cpu.currentCycle) &&
            decide (instr.numMemOps ≤ instr.completedMemOps) then
          completeLoop remaining (i + 1) (completeCount + 1) (cpu.doCompleteExecution i instr)
        else completeLoop remaining (i + 1) completeCount cpu

def completeInflightInstruction (cpu : O3CPU) : O3CPU := completeLoop cpu.rob.size 0 0 cpu

/-! ### Execute -/

/-- The ready cycle of an access to the cache. -/
def access (cpu : O3CPU) (cache : Nat → Nat) (addr : UInt64) (instrID : Nat) (accessType : AccessType) : Nat × O3CPU :=
  (cache cpu.accesses.length,
    { cpu with accesses := cpu.accesses ++ [⟨addr,addr,instrID,accessType,cpu.currentCycle⟩] })

def accessLoad (cache : Nat → Nat) (instrID : Nat) (cpu : O3CPU) (addr : UInt64) : O3CPU :=
  if addr = 0 then cpu
  else
    let (readyCycle,cpu) := cpu.access cache addr instrID .load
    if cpu.standaloneMode then cpu else { cpu with pendingLoads := cpu.pendingLoads ++ [⟨instrID,readyCycle⟩] }

def accessStore (cache : Nat → Nat) (instrID : Nat) (cpu : O3CPU) (addr : UInt64) : O3CPU :=
  if addr = 0 then cpu
  else
    let (readyCycle,cpu) := cpu.access cache addr instrID .store
    if cpu.standaloneMode then cpu else { cpu with pendingStores := cpu.pendingStores ++ [⟨instrID,readyCycle⟩] }

/-- The memory operations of an instruction, all answered in the next cycle. -/
def respondAll (cpu : O3CPU) (instr : OOOModelInstr) : O3CPU :=
  let cpu := instr.srcMemory.foldl (fun cpu _ => (cpu.handleLoadResponse instr.instrID (cpu.currentCycle + 1)).1) cpu
  instr.destMemory.foldl (fun cpu _ => (cpu.handleStoreResponse instr.instrID (cpu.currentCycle + 1)).1) cpu

def executeMemoryOperation (cpu : O3CPU) (instr : OOOModelInstr) : O3CPU :=
  match cpu.l1dCache with
  | some cache =>
    let cpu := instr.srcMemory.foldl (accessLoad cache instr.instrID) cpu
    let cpu := instr.destMemory.foldl (accessStore cache instr.instrID) cpu
    if cpu.standaloneMode then cpu.respondAll instr else cpu
  | none => if cpu.standaloneMode then cpu.respondAll instr else cpu

def checkDependencies (cpu : O3CPU) (instr : OOOModelInstr) : Bool :=
  decide (cpu.regAlloc.countRegDependencies instr.srcRegisters = 0)

/-- Executes the instruction at a place. -/
def executeInstr (cpu : O3CPU) (i : Nat) (instr : OOOModelInstr) : O3CPU :=
  let instr := { instr with executed := true, readyTime := cpu.currentCycle + cpu.config.executeLatency }
  let cpu := { cpu with rob := cpu.rob.set i instr }
  if instr.isLoad || instr.isStore then cpu.executeMemoryOperation instr else cpu

def executeLoop : Nat → Nat → Nat → O3CPU → O3CPU
  | 0, _, _, cpu => cpu
  | remaining + 1, i, executeCount, cpu =>
    if cpu.config.executeWidth ≤ executeCount then cpu
    else
      match cpu.rob.peekAt i with
      | none => executeLoop remaining (i + 1) executeCount cpu
      | some instr =>
        if !instr.scheduled || instr.executed then executeLoop remaining (i + 1) executeCount cpu
        else if cpu.currentCycle < instr.readyTime then executeLoop remaining (i + 1) executeCount cpu
        else if !cpu.checkDependencies instr then executeLoop remaining (i + 1) executeCount cpu
        else executeLoop remaining (i + 1) (executeCount + 1) (cpu.executeInstr i instr)

def execute (cpu : O3CPU) : O3CPU := executeLoop cpu.rob.size 0 0 cpu

/-! ### Retire -/

def handleBranchMisprediction (cpu : O3CPU) (branchInstr : OOOModelInstr) : O3CPU :=
  { cpu with fetchQueue := [], decodeQueue := [], rob := cpu.rob.flush branchInstr.instrID }

/-- What is done for an instruction that has left the reorder buffer. -/
def retireInstr (cpu : O3CPU) (instr : OOOModelInstr) : O3CPU :=
  let regAlloc := (instr.destRegisters.filter PhysicalRegisterID.isValid).foldl
    (fun ra reg => ra.retireDestRegister reg) cpu.regAlloc
  let lsq := if instr.isLoad then cpu.lsq.removeLoad instr.instrID else cpu.lsq
  let lsq := if instr.isStore then lsq.removeStore instr.instrID else lsq
  let cpu := { cpu with regAlloc, lsq }
  if instr.isBranch && instr.branchMispredicted then cpu.handleBranchMisprediction instr else cpu

def retireLoop : Nat → O3CPU → O3CPU
  | 0, cpu => cpu
  | width + 1, cpu =>
    match cpu.rob.retire with
    | none => cpu
    | some (instr,rob) => retireLoop width ({ cpu with rob }.retireInstr instr)

def retire (cpu : O3CPU) : O3CPU := retireLoop cpu.config.retireWidth cpu

/-! ### A cycle -/

def tick (cpu : O3CPU) : Except String O3CPU := do
  let cpu := { cpu with currentCycle := cpu.currentCycle + 1 }
  let cpu := cpu.retire
  let cpu := cpu.processPendingMemOps
  let cpu := cpu.completeInflightInstruction
  let cpu := cpu.execute
  let cpu ← cpu.schedule
  .ok cpu.dispatch.decode.fetch

/-- What can be done with a core from outside. A fetch of its own is what the run
    loop adds when the core has run empty. -/
inductive Action where
  | tick
  | fetch
  | handleLoadResponse (instrID cycle : Nat)
  | handleStoreResponse (instrID cycle : Nat)
  | setStandaloneMode (standalone : Bool)
  | setL1DCache (cache : Nat → Nat)

/-- One action; there is no state after a panic. -/
def step (cpu : O3CPU) : Action → Option O3CPU
  | .tick => cpu.tick.toOption
  | .fetch => some cpu.fetch
  | .handleLoadResponse instrID cycle => some (cpu.handleLoadResponse instrID cycle).1
  | .handleStoreResponse instrID cycle => some (cpu.handleStoreResponse instrID cycle).1
  | .setStandaloneMode standalone => some (cpu.setStandaloneMode standalone)
  | .setL1DCache cache => some (cpu.setL1DCache cache)

end O3CPU
end FlowSim.Cpu
