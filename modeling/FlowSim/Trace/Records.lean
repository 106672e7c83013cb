import FlowSim.Cpu.RegisterAllocator

/-!
Trace files. A trace is a stream of records of a fixed size, little-endian and without
padding. A record becomes an instruction: registers and addresses that are zero are left
out, and the kind of branch is told from the registers it reads and writes.
-/
namespace FlowSim.Trace
open FlowSim.Cpu (PhysicalRegisterID)
set_option linter.unusedSimpArgs false

inductive TraceFormat where
  | standard
  | cloudsuite
  | other (value : Int)
deriving DecidableEq

namespace TraceFormat

def string : TraceFormat → String
  | .standard => "standard"
  | .cloudsuite => "cloudsuite"
  | .other _ => "unknown"

/-- The bytes of a record. -/
def instrSize : TraceFormat → Nat
  | .standard => 8 + 1 + 1 + 2 + 4 + 16 + 32
  | .cloudsuite => 8 + 1 + 1 + 4 + 4 + 32 + 32 + 2
  | .other _ => 0

/-- The formats that the readers know. -/
def Supported : TraceFormat → Prop
  | .other _ => False
  | _ => True

theorem Supported.size_pos : ∀ {format : TraceFormat}, format.Supported → 0 < format.instrSize
  | .standard, _ => by decide
  | .cloudsuite, _ => by decide

end TraceFormat

inductive ReadError where
  | eof
  | unexpectedEOF
  | other (text : String)
deriving DecidableEq

/-- What a read finds at the end of a stream, when there are some bytes left but too few. -/
def cutError (ending : ReadError) : ReadError := if ending = .eof then .unexpectedEOF else ending

/-- Takes `size` bytes off a stream. Where there are some, but too few, they are lost. At its
    end a stream answers every read alike: with the end of the file, or, if it is compressed
    and was cut off or damaged, with the error of the decompression. -/
def binaryRead (ending : ReadError) (size : Nat) (file : List UInt8) : Except ReadError (List UInt8) × List UInt8 :=
  if file.length = 0 then (.error ending,[])
  else if file.length < size then (.error (cutError ending),[])
  else (.ok (file.take size),file.drop size)

/-! ### Records -/

def byteAt (raw : List UInt8) (offset : Nat) : UInt8 := raw.getD offset 0

def wordAt (raw : List UInt8) (offset : Nat) : UInt64 :=
  UInt64.ofNat (((raw.drop offset).take 8).foldr (fun byte rest => byte.toNat + 256 * rest) 0)

def bytesAt (raw : List UInt8) (offset count : Nat) : List UInt8 :=
  (List.range count).map fun i => byteAt raw (offset + i)

def wordsAt (raw : List UInt8) (offset count : Nat) : List UInt64 :=
  (List.range count).map fun i => wordAt raw (offset + 8 * i)

structure InputInstr where
  ip : UInt64
  isBranch : UInt8
  branchTaken : UInt8
  destRegisters : List UInt8
  srcRegisters : List UInt8
  destMemory : List UInt64
  srcMemory : List UInt64

structure CloudSuiteInstr where
  ip : UInt64
  isBranch : UInt8
  branchTaken : UInt8
  destRegisters : List UInt8
  srcRegisters : List UInt8
  destMemory : List UInt64
  srcMemory : List UInt64
  asid : UInt8 × UInt8

/-- A record of 64 bytes. -/
def InputInstr.ofBytes (raw : List UInt8) : InputInstr where
  ip := wordAt raw 0
  isBranch := byteAt raw 8
  branchTaken := byteAt raw 9
  destRegisters := bytesAt raw 10 2
  srcRegisters := bytesAt raw 12 4
  destMemory := wordsAt raw 16 2
  srcMemory := wordsAt raw 32 4

/-- A record of 84 bytes. -/
def CloudSuiteInstr.ofBytes (raw : List UInt8) : CloudSuiteInstr where
  ip := wordAt raw 0
  isBranch := byteAt raw 8
  branchTaken := byteAt raw 9
  destRegisters := bytesAt raw 10 4
  srcRegisters := bytesAt raw 14 4
  destMemory := wordsAt raw 18 4
  srcMemory := wordsAt raw 50 4
  asid := (byteAt raw 82,byteAt raw 83)

/-! ### Instructions -/

inductive BranchType where
  | directJump
  | indirect
  | conditional
  | directCall
  | indirectCall
  | return
  | other
  | notBranch
deriving DecidableEq

/-- What the readers say about an instruction. -/
structure OOOModelInstr where
  instrID : UInt64
  ip : UInt64
  cpuID : UInt8
  asid : UInt8 × UInt8
  isBranch : Bool
  branchTaken : Bool
  branchType : BranchType
  branchTarget : UInt64
  destRegisters : List PhysicalRegisterID
  srcRegisters : List PhysicalRegisterID
  destMemory : List UInt64
  srcMemory : List UInt64
deriving DecidableEq

def regStackPointer : UInt8 := 6
def regFlags : UInt8 := 25
def regInstructionPointer : UInt8 := 26

namespace OOOModelInstr

def hasDestReg (instr : OOOModelInstr) (reg : UInt8) : Bool := instr.destRegisters.any fun r => r.archReg == reg

def hasSrcReg (instr : OOOModelInstr) (reg : UInt8) : Bool := instr.srcRegisters.any fun r => r.archReg == reg

def hasSrcRegOtherThan (instr : OOOModelInstr) (excludeRegs : List UInt8) : Bool :=
  instr.srcRegisters.any fun r => ! excludeRegs.contains r.archReg

/-- Tells the kind of branch from the registers; some kinds are always taken. -/
def identifyBranchType (instr : OOOModelInstr) : OOOModelInstr :=
  let writesSP := instr.hasDestReg regStackPointer
  let writesIP := instr.hasDestReg regInstructionPointer
  let readsSP := instr.hasSrcReg regStackPointer
  let readsIP := instr.hasSrcReg regInstructionPointer
  let readsFlags := instr.hasSrcReg regFlags
  let readsOther := instr.hasSrcRegOtherThan [regStackPointer,regInstructionPointer,regFlags]
  if !readsSP && !readsFlags && writesIP && !readsOther then
    { instr with isBranch := true, branchTaken := true, branchType := .directJump }
  else if !readsSP && !readsIP && !readsFlags && writesIP && readsOther then
    { instr with isBranch := true, branchTaken := true, branchType := .indirect }
  else if !readsSP && readsIP && !writesSP && writesIP && (readsFlags || readsOther) then
    { instr with isBranch := true, branchType := .conditional }
  else if readsSP && readsIP && writesSP && writesIP && !readsFlags && !readsOther then
    { instr with isBranch := true, branchTaken := true, branchType := .directCall }
  else if readsSP && readsIP && writesSP && writesIP && !readsFlags && readsOther then
    { instr with isBranch := true, branchTaken := true, branchType := .indirectCall }
  else if readsSP && !readsIP && writesSP && writesIP then
    { instr with isBranch := true, branchTaken := true, branchType := .return }
  else if writesIP then { instr with isBranch := true, branchType := .other }
  else { instr with branchTaken := false, branchType := .notBranch }

/-- The registers that are not zero. -/
def registers (regs : List UInt8) : List PhysicalRegisterID :=
  (regs.filter fun reg => reg ≠ 0).map fun reg => Int16.ofNat reg.toNat

/-- The addresses that are not zero. -/
def addresses (addrs : List UInt64) : List UInt64 := addrs.filter fun addr => addr ≠ 0

def newFromInput (cpuID : UInt8) (raw : InputInstr) : OOOModelInstr :=
  identifyBranchType
    { instrID := 0
      ip := raw.ip
      cpuID := cpuID
      asid := (cpuID,cpuID)
      isBranch := raw.isBranch ≠ 0
      branchTaken := raw.branchTaken ≠ 0
      branchType := .notBranch
      branchTarget := 0
      destRegisters := registers raw.destRegisters
      srcRegisters := registers raw.srcRegisters
      destMemory := addresses raw.destMemory
      srcMemory := addresses raw.srcMemory }

def newFromCloudSuite (raw : CloudSuiteInstr) : OOOModelInstr :=
  identifyBranchType
    { instrID := 0
      ip := raw.ip
      cpuID := raw.asid.1
      asid := raw.asid
      isBranch := raw.isBranch ≠ 0
      branchTaken := raw.branchTaken ≠ 0
      branchType := .notBranch
      branchTarget := 0
      destRegisters := registers raw.destRegisters
      srcRegisters := registers raw.srcRegisters
      destMemory := addresses raw.destMemory
      srcMemory := addresses raw.srcMemory }

end OOOModelInstr

/-- The instruction of a record. -/
def convert (format : TraceFormat) (cpuID : UInt8) (raw : List UInt8) : OOOModelInstr :=
  match format with
  | .cloudsuite => .newFromCloudSuite (.ofBytes raw)
  | _ => .newFromInput cpuID (.ofBytes raw)

/-! ### The records of a stream -/

/-- The complete records, as far as there are any. -/
def records (size : Nat) (file : List UInt8) : List (List UInt8) :=
  (List.range (file.length / size)).map fun i => (file.drop (size * i)).take size

section
variable {ending : ReadError} {size : Nat} {file : List UInt8}

theorem records_length : (records size file).length = file.length / size := by simp [records]

theorem records_short (short : file.length < size) : records size file = [] := by
  rw [records,Nat.div_eq_of_lt short]
  rfl

theorem count_drop (some_record : size ≤ file.length) (positive : 0 < size) :
    file.length / size = (file.drop size).length / size + 1 := by
  rw [List.length_drop,Nat.div_eq_sub_div positive some_record]

theorem records_cons (some_record : size ≤ file.length) (positive : 0 < size) :
    records size file = file.take size :: records size (file.drop size) := by
  rw [records,count_drop some_record positive,List.range_succ_eq_map,List.map_cons,List.map_map,Nat.mul_zero,List.drop_zero]
  refine congrArg (List.cons _) (List.map_congr_left fun i _ => ?_)
  simp only [Function.comp,List.drop_drop,Nat.mul_succ,Nat.add_comm]

/-- The record at an index comes off the stream when those before it have. -/
theorem records_drop (positive : 0 < size) : ∀ {k : Nat}, k ≤ file.length / size →
    (records size file).drop k = records size (file.drop (size * k))
  | 0, _ => by simp
  | k + 1, enough => by
    have before := records_drop positive (Nat.le_of_succ_le enough)
    have left : size ≤ (file.drop (size * k)).length := by
      rw [List.length_drop]
      have := Nat.mul_le_mul_left size enough
      have := Nat.mul_div_le file.length size
      rw [Nat.mul_succ] at *
      omega
    rw [← List.drop_drop,before,records_cons left positive,List.drop_one,List.tail_cons,List.drop_drop,Nat.mul_succ]

@[simp] theorem cutError_eof : cutError .eof = .unexpectedEOF := rfl

theorem binaryRead_record (some_record : size ≤ file.length) (positive : 0 < size) :
    binaryRead ending size file = (.ok (file.take size),file.drop size) := by
  unfold binaryRead
  rw [if_neg (by omega),if_neg (by omega)]

theorem binaryRead_truncated (some_byte : 0 < file.length) (short : file.length < size) :
    binaryRead ending size file = (.error (cutError ending),[]) := by
  unfold binaryRead
  rw [if_neg (by omega),if_pos short]

end
/-! ### Batches -/

/-- Reads up to `count` records: the instructions, the error that ended it, and what is left
    of the stream. -/
def readBulk (ending : ReadError) (size : Nat) (convert : List UInt8 → OOOModelInstr) : Nat → List UInt8 →
    List OOOModelInstr × Option ReadError × List UInt8
  | 0, file => ([],none,file)
  | count + 1, file =>
    match binaryRead ending size file with
    | (.error err,rest) => ([],some err,rest)
    | (.ok raw,rest) =>
      let (instrs,err,rest) := readBulk ending size convert count rest
      (convert raw :: instrs,err,rest)

section
variable {ending : ReadError} {size : Nat} {conv : List UInt8 → OOOModelInstr}

theorem readBulk_enough (positive : 0 < size) : ∀ {count : Nat} {file : List UInt8}, count ≤ file.length / size →
    readBulk ending size conv count file =
      (((records size file).map conv).take count,none,file.drop (size * count))
  | 0, file, _ => by simp [readBulk]
  | count + 1, file, enough => by
    have some_record : size ≤ file.length := by
      by_contra short
      rw [Nat.div_eq_of_lt (Nat.lt_of_not_le short)] at enough
      exact absurd enough (Nat.not_succ_le_zero count)
    have rest : count ≤ (file.drop size).length / size := by
      rw [count_drop some_record positive] at enough
      exact Nat.le_of_succ_le_succ enough
    rw [readBulk,binaryRead_record some_record positive]
    simp only [readBulk_enough positive rest,records_cons some_record positive,List.map_cons,List.take_succ_cons,
      List.drop_drop,Nat.mul_succ,Nat.add_comm]

/-- A batch that the stream has too few records for takes them all and meets the end. -/
theorem readBulk_short (positive : 0 < size) : ∀ {count : Nat} {file : List UInt8}, file.length / size < count →
    readBulk ending size conv count file =
      ((records size file).map conv,some (if file.length % size = 0 then ending else cutError ending),[])
  | count + 1, file, few => by
    rw [readBulk]
    by_cases some_record : size ≤ file.length
    · have rest : (file.drop size).length / size < count := by
        rw [count_drop some_record positive] at few
        exact Nat.lt_of_succ_lt_succ few
      have same_end : (file.drop size).length % size = file.length % size := by
        rw [List.length_drop,← Nat.mod_eq_sub_mod some_record]
      rw [binaryRead_record some_record positive]
      simp only [readBulk_short positive rest,records_cons some_record positive,List.map_cons,same_end]
    · have short := Nat.lt_of_not_le some_record
      rw [records_short short,Nat.mod_eq_of_lt short]
      cases file with
      | nil => rfl
      | cons byte file =>
        have some_byte : 0 < (byte :: file).length := Nat.succ_pos _
        rw [binaryRead_truncated some_byte short,if_neg (Nat.ne_of_gt some_byte)]
        rfl

end

end FlowSim.Trace
