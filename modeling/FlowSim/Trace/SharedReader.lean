import FlowSim.Lib.Confluence
import FlowSim.Trace.Records

/-!
The readers that share the blocks of one trace. The blocks are loaded in order, by whichever
reader needs them first or by the prefetcher; every reader keeps its own position. A reader
calls itself again after a refill, and every operation on the shared data is one atomic step
of an interface, so that any number of readers can take turns in any order.
-/
namespace FlowSim.Trace
open FlowSim.Lib
set_option linter.unusedSimpArgs false

def blockSize : Nat := 2 * 1024 * 1024
def estimatedInstrSize : Nat := 100
def instrsPerBlock : Nat := blockSize / estimatedInstrSize
def loadAhead : Nat := 2
def maxCachedBlocks : Nat := 100

structure TraceBlock where
  blockID : Nat
  startOffset : Nat
  instructions : List OOOModelInstr

/-- The data that the readers of a trace share. `cleanups` counts the cleanups that are
    started and have not run. -/
structure SharedTraceData where
  /-- What is left of the stream. -/
  reader : List UInt8
  eof : Bool
  blocks : List TraceBlock
  nextBlock : Nat
  minBlockID : Nat
  maxBlockID : Nat
  prefetchDist : Nat
  cleanups : Nat

namespace SharedTraceData

def newSharedTrace (file : List UInt8) : SharedTraceData where
  reader := file
  eof := false
  blocks := []
  nextBlock := 0
  minBlockID := 0
  maxBlockID := 0
  prefetchDist := 1
  cleanups := 0

def findBlock (s : SharedTraceData) (blockID : Nat) : Option TraceBlock :=
  s.blocks.find? fun block => block.blockID == blockID

/-- Reads the next block. Whatever the format of the trace, its records are taken to be of
    the standard one, and an error other than the end of the stream drops the block. The stream
    is one that ends with the end of the file. -/
def loadBlock (s : SharedTraceData) (blockID : Nat) : Except ReadError TraceBlock × SharedTraceData :=
  if s.eof ∧ s.nextBlock ≤ blockID then (.error .eof,s)
  else
    match s.findBlock blockID with
    | some block => (.ok block,s)
    | none =>
      if blockID ≠ s.nextBlock then
        (.error (.other s!"cannot load block {blockID}, next expected is {s.nextBlock}"),s)
      else
        let (instructions,err,reader) :=
          if s.eof then ([],none,s.reader)
          else readBulk .eof 64 (fun raw => .newFromInput 0 (.ofBytes raw)) instrsPerBlock s.reader
        if err.isSome ∧ err ≠ some .eof then (.error (err.getD .eof),{ s with reader })
        else
          let s := { s with reader, eof := s.eof || err == some .eof }
          if instructions.length = 0 then (.error .eof,s)
          else
            let block := { blockID, startOffset := blockID * instrsPerBlock, instructions }
            (.ok block,{ s with blocks := s.blocks ++ [block], nextBlock := blockID + 1 })

/-- Loads the missing ones of so many blocks from one on. -/
def ensureFrom : Nat → Nat → SharedTraceData → Option ReadError × SharedTraceData
  | 0, _, s => (none,s)
  | count + 1, blockID, s =>
    match s.findBlock blockID with
    | some _ => ensureFrom count (blockID + 1) s
    | none =>
      match s.loadBlock blockID with
      | (.error err,s) => (some err,s)
      | (.ok _,s) => ensureFrom count (blockID + 1) s

def ensureBlocksLoaded (s : SharedTraceData) (startBlock endBlock : Nat) : Option ReadError × SharedTraceData :=
  ensureFrom (endBlock + 1 - startBlock) startBlock s

/-- Prefetches so many blocks, up to the first that cannot be loaded. -/
def prefetchFrom : Nat → Nat → SharedTraceData → SharedTraceData
  | 0, _, s => s
  | count + 1, blockID, s =>
    if s.eof then s
    else
      match s.loadBlock blockID with
      | (.error _,s) => s
      | (.ok _,s) => prefetchFrom count (blockID + 1) s

def prefetch (s : SharedTraceData) (targetBlock : Nat) : SharedTraceData :=
  prefetchFrom (targetBlock + 1 - s.nextBlock) s.nextBlock s

/-- Reports that a reader has come to a block. Cleanups start when the slowest has advanced. -/
def updateGlobalPointers (s : SharedTraceData) (currentBlock : Nat) : SharedTraceData :=
  let minBlockID := if currentBlock < s.minBlockID then currentBlock else s.minBlockID
  let maxBlockID := if s.maxBlockID < currentBlock then currentBlock else s.maxBlockID
  { s with minBlockID
           maxBlockID
           cleanups := if 0 < minBlockID ∧ maxCachedBlocks / 2 < s.blocks.length then s.cleanups + 1 else s.cleanups }

/-- Runs one of the cleanups that are started. -/
def cleanupOldBlocks (s : SharedTraceData) : SharedTraceData :=
  if s.cleanups = 0 then s
  else { s with blocks := s.blocks.filter fun block => s.minBlockID ≤ block.blockID, cleanups := s.cleanups - 1 }

end SharedTraceData

/-! ### Operations on the shared data -/

/-- The operations, each under the lock or atomic by itself. `prefetchTarget` is the part of
    the prefetcher's tick before it takes the lock. -/
inductive TraceOp where
  | nextBlock
  | prefetchDist
  | setPrefetchDist (dist : Nat)
  | ensureBlocksLoaded (startBlock endBlock : Nat)
  | getBlock (blockID : Nat)
  | updateGlobalPointers (currentBlock : Nat)
  | cleanupOldBlocks
  | prefetchTarget
  | prefetch (targetBlock : Nat)

abbrev TraceOp.Resp : TraceOp → Type
  | .nextBlock => Nat
  | .prefetchDist => Nat
  | .ensureBlocksLoaded _ _ => Option ReadError
  | .getBlock _ => Option TraceBlock
  | .prefetchTarget => Option Nat
  | _ => Unit

abbrev traceInterface : Interface := ⟨TraceOp,TraceOp.Resp⟩

def SharedTraceData.exec (s : SharedTraceData) : (op : TraceOp) → op.Resp × SharedTraceData
  | .nextBlock => (s.nextBlock,s)
  | .prefetchDist => (s.prefetchDist,s)
  | .setPrefetchDist dist => ((),{ s with prefetchDist := dist })
  | .ensureBlocksLoaded startBlock endBlock => s.ensureBlocksLoaded startBlock endBlock
  | .getBlock blockID => (s.findBlock blockID,s)
  | .updateGlobalPointers currentBlock => ((),s.updateGlobalPointers currentBlock)
  | .cleanupOldBlocks => ((),s.cleanupOldBlocks)
  | .prefetchTarget => (if s.eof then none else some (s.maxBlockID + s.prefetchDist),s)
  | .prefetch targetBlock => ((),s.prefetch targetBlock)

def traceMachine : Machine traceInterface SharedTraceData where
  exec s op := .done (s.exec op).1 (s.exec op).2

/-! ### Readers -/

structure SharedTraceReader where
  cpuID : UInt8
  readPosition : Nat
  instrCounter : UInt64
  lastReportedBlock : Nat
  cachedBlocks : List TraceBlock
  currentBlock : Option TraceBlock
  currentBlockIndex : Nat
  currentInstrIndex : Nat
  cachedStartOffset : Nat
  cachedEndOffset : Nat

namespace SharedTraceReader

def newSharedTraceReader (cpuID : UInt8) : SharedTraceReader where
  cpuID := cpuID
  readPosition := 0
  instrCounter := 0
  lastReportedBlock := 0
  cachedBlocks := []
  currentBlock := none
  currentBlockIndex := 0
  currentInstrIndex := 0
  cachedStartOffset := 0
  cachedEndOffset := 0

/-- The reader's own copy of an instruction. -/
def copyInstruction (r : SharedTraceReader) (src : OOOModelInstr) : OOOModelInstr × SharedTraceReader :=
  ({ src with instrID := r.instrCounter, cpuID := r.cpuID },{ r with instrCounter := r.instrCounter + 1 })

/-- Takes blocks into the cache, up to the first that is missing. -/
def cacheBlocks : Nat → Nat → SharedTraceReader → Prog traceInterface SharedTraceReader
  | 0, _, r => pure r
  | count + 1, blockID, r => do
    let found : Option TraceBlock ← Prog.perform (I := traceInterface) (.getBlock blockID)
    match found with
    | none => pure r
    | some block =>
      cacheBlocks count (blockID + 1)
        { r with cachedBlocks := r.cachedBlocks ++ [block]
                 cachedEndOffset := block.startOffset + block.instructions.length }

/-- Fills the cache with the blocks from the current one on. -/
def fillCache (r : SharedTraceReader) (currentBlockID endBlock : Nat) :
    Prog traceInterface (Option ReadError × SharedTraceReader) := do
  let r ← cacheBlocks (endBlock + 1 - currentBlockID) currentBlockID
    { r with cachedBlocks := []
             cachedStartOffset := currentBlockID * instrsPerBlock
             cachedEndOffset := currentBlockID * instrsPerBlock }
  match r.cachedBlocks with
  | [] => pure (some .eof,r)
  | block :: _ =>
    pure (none,{ r with currentBlock := some block
                        currentBlockIndex := 0
                        currentInstrIndex := r.readPosition - block.startOffset })

/-- The part of a refill after the miss is counted: loads the current block and those ahead,
    where the end of the trace counts as long as the current block is there. -/
def loadCache (r : SharedTraceReader) (currentBlockID endBlock : Nat) :
    Prog traceInterface (Option ReadError × SharedTraceReader) := do
  let err : Option ReadError ← Prog.perform (I := traceInterface) (.ensureBlocksLoaded currentBlockID endBlock)
  match err with
  | none => fillCache r currentBlockID endBlock
  | some .eof =>
    let nextBlock : Nat ← Prog.perform (I := traceInterface) .nextBlock
    if currentBlockID < nextBlock then fillCache r currentBlockID endBlock else pure (some .eof,r)
  | some err => pure (some err,r)

/-- Fills the cache anew. A current block that is not loaded makes the prefetcher go farther. -/
def refillCache (r : SharedTraceReader) : Prog traceInterface (Option ReadError × SharedTraceReader) := do
  let currentBlockID := r.readPosition / instrsPerBlock
  let endBlock := currentBlockID + loadAhead
  let nextAvailable : Nat ← Prog.perform (I := traceInterface) .nextBlock
  if nextAvailable ≤ currentBlockID then
    let oldDist : Nat ← Prog.perform (I := traceInterface) .prefetchDist
    Prog.perform (I := traceInterface) (.setPrefetchDist (oldDist + 1))
    r.loadCache currentBlockID endBlock
  else r.loadCache currentBlockID endBlock

def nextCached (r : SharedTraceReader) : SharedTraceReader :=
  match r.cachedBlocks[r.currentBlockIndex + 1]? with
  | some next => { r with currentBlockIndex := r.currentBlockIndex + 1, currentBlock := some next, currentInstrIndex := 0 }
  | none => { r with currentBlockIndex := r.currentBlockIndex + 1, currentBlock := none }

/-- Goes on to the next block when the current one is read to its end. -/
def passBlock (r : SharedTraceReader) (block : TraceBlock) : Prog traceInterface SharedTraceReader :=
  if block.instructions.length ≤ r.currentInstrIndex then
    let r := r.nextCached
    let currentBlockID := r.readPosition / instrsPerBlock
    if currentBlockID ≠ r.lastReportedBlock then do
      Prog.perform (I := traceInterface) (.updateGlobalPointers currentBlockID)
      pure { r with lastReportedBlock := currentBlockID }
    else pure r
  else pure r

/-- The block that is read and the next instruction in it. -/
def current (r : SharedTraceReader) : Option (TraceBlock × OOOModelInstr) :=
  r.currentBlock.bind fun block => block.instructions[r.currentInstrIndex]?.map fun instr => (block,instr)

/-- Reads the next instruction, calling itself again after a refill. The number bounds the
    calls; `none` says that it has not returned within so many. -/
def readInstruction : Nat → SharedTraceReader → Prog traceInterface (Option (Except ReadError OOOModelInstr) × SharedTraceReader)
  | 0, r => pure (none,r)
  | calls + 1, r =>
    match r.current with
    | some (block,instr) => do
      let r ← passBlock { r with currentInstrIndex := r.currentInstrIndex + 1, readPosition := r.readPosition + 1 } block
      let (copy,r) := r.copyInstruction instr
      pure (some (.ok copy),r)
    | none => do
      let (err,r) ← r.refillCache
      match err with
      | some err => pure (some (.error err),r)
      | none => readInstruction calls r

def warmup (r : SharedTraceReader) : Prog traceInterface (Option ReadError × SharedTraceReader) :=
  if r.currentBlock.isSome then pure (none,r) else r.refillCache

end SharedTraceReader

/-! ### Workers -/

/-- What a worker may do: read, with a bound on the calls, or warm up; or, for the goroutines
    beside the readers, a tick of the prefetcher or a cleanup. -/
inductive TraceCall where
  | read (calls : Nat)
  | warmup
  | prefetch
  | cleanup

/-- The results of the reads, in order, and the reader. -/
abbrev TraceResult := List (Option (Except ReadError OOOModelInstr)) × SharedTraceReader

def runCalls : List TraceCall → SharedTraceReader → Prog traceInterface TraceResult
  | [], r => pure ([],r)
  | .read calls :: rest, r => do
    let (out,r) ← r.readInstruction calls
    let (outs,r) ← runCalls rest r
    pure (out :: outs,r)
  | .warmup :: rest, r => do
    let (_,r) ← r.warmup
    runCalls rest r
  | .prefetch :: rest, r => do
    let target : Option Nat ← Prog.perform (I := traceInterface) .prefetchTarget
    match target with
    | none => runCalls rest r
    | some targetBlock => do
      Prog.perform (I := traceInterface) (.prefetch targetBlock)
      runCalls rest r
  | .cleanup :: rest, r => do
    Prog.perform (I := traceInterface) .cleanupOldBlocks
    runCalls rest r

/-- Workers that make their calls on the shared data of a file, each with a reader of its own. -/
def startReading {W : Type} (file : List UInt8) (cpuIDs : W → UInt8) (calls : W → List TraceCall) :
    Config traceInterface SharedTraceData fun _ : W => TraceResult :=
  .start (.newSharedTrace file) fun w => runCalls (calls w) (.newSharedTraceReader (cpuIDs w))

end FlowSim.Trace
