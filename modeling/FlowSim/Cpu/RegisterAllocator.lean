import Mathlib

/-!
Physical registers and their allocator. Register ids are 16-bit, so an allocator
of more registers than that can number hands out ids that are no index into its
own register file. The allocator carries the events of its run: which register
was given to which write, or to an initial value, and which was freed.
-/
namespace FlowSim.Cpu
set_option linter.unusedSimpArgs false

/-- A register id; negative ids are not valid. -/
abbrev PhysicalRegisterID := Int16

namespace PhysicalRegisterID

def isValid (id : PhysicalRegisterID) : Bool := decide (0 ≤ id.toInt)

/-- The architectural register that an id of a trace stands for: its low byte. -/
def archReg (id : PhysicalRegisterID) : UInt8 := UInt8.ofBitVec (id.toBitVec.setWidth 8)

end PhysicalRegisterID

def invalidPhysicalRegister : PhysicalRegisterID := -1

structure PhysicalRegister where
  archRegIndex : UInt8
  producingInstructionID : Nat
  valid : Bool
  busy : Bool
deriving DecidableEq, Repr

/-- What happened to a physical register: it was allocated for an instruction's
    write, or for a value from before the trace, or freed. -/
inductive RegisterEvent where
  | dest (instrID : Nat) (archReg : UInt8) (physReg : PhysicalRegisterID)
  | initial (archReg : UInt8) (physReg : PhysicalRegisterID)
  | freed (physReg : PhysicalRegisterID)
deriving DecidableEq

def RegisterEvent.register : RegisterEvent → PhysicalRegisterID
  | .dest _ _ physReg => physReg
  | .initial _ physReg => physReg
  | .freed physReg => physReg

/-- The allocator. The events are not part of the source: they record what its
    operations did, oldest first. -/
structure RegisterAllocator where
  frontendRAT : UInt8 → PhysicalRegisterID
  backendRAT : UInt8 → PhysicalRegisterID
  freeRegisters : List PhysicalRegisterID
  physicalRegisterFile : PhysicalRegisterID → PhysicalRegister
  numPhysical : Nat
  events : List RegisterEvent

namespace RegisterAllocator

def newRegisterAllocator (numPhysical : Nat) : RegisterAllocator where
  frontendRAT _ := invalidPhysicalRegister
  backendRAT _ := invalidPhysicalRegister
  freeRegisters := (List.range numPhysical).map Int16.ofNat
  physicalRegisterFile _ := { archRegIndex := 0, producingInstructionID := 0, valid := false, busy := false }
  numPhysical := numPhysical
  events := []

/-- The id is an index into the register file. -/
def inFile (ra : RegisterAllocator) (physReg : PhysicalRegisterID) : Bool :=
  decide (0 ≤ physReg.toInt ∧ physReg.toInt < ra.numPhysical)

def setRegister (ra : RegisterAllocator) (physReg : PhysicalRegisterID) (register : PhysicalRegister) : RegisterAllocator :=
  { ra with physicalRegisterFile := Function.update ra.physicalRegisterFile physReg register }

def noFreeRegisters : String := "RegisterAllocator: no free physical registers"
def noFreeRegistersForSource : String := "RegisterAllocator: no free physical registers for source"
def indexOutOfRange (physReg : PhysicalRegisterID) : String :=
  let index := physReg.toInt
  s!"runtime error: index out of range [{index}]"

/-! ### Renaming -/

/-- A new register for a write; the error is the panic. -/
def renameDestRegister (ra : RegisterAllocator) (archReg : UInt8) (producerID : Nat) :
    Except String (PhysicalRegisterID × RegisterAllocator) :=
  match ra.freeRegisters with
  | [] => .error noFreeRegisters
  | physReg :: freeRegisters =>
    let ra := { ra with freeRegisters, frontendRAT := Function.update ra.frontendRAT archReg physReg }
    if ra.inFile physReg then
      let ra := ra.setRegister physReg
        { archRegIndex := archReg, producingInstructionID := producerID, valid := false, busy := true }
      .ok (physReg,{ ra with events := ra.events ++ [.dest producerID archReg physReg] })
    else .error (indexOutOfRange physReg)

/-- The register of a source; one that has none yet gets one, for a value taken
    to be committed. -/
def renameSrcRegister (ra : RegisterAllocator) (archReg : UInt8) :
    Except String (PhysicalRegisterID × RegisterAllocator) :=
  let physReg := ra.frontendRAT archReg
  if physReg = invalidPhysicalRegister then
    match ra.freeRegisters with
    | [] => .error noFreeRegistersForSource
    | physReg :: freeRegisters =>
      let ra := { ra with
        freeRegisters
        frontendRAT := Function.update ra.frontendRAT archReg physReg
        backendRAT := Function.update ra.backendRAT archReg physReg }
      if ra.inFile physReg then
        let ra := ra.setRegister physReg
          { archRegIndex := archReg, producingInstructionID := 0, valid := true, busy := true }
        .ok (physReg,{ ra with events := ra.events ++ [.initial archReg physReg] })
      else .error (indexOutOfRange physReg)
  else .ok (physReg,ra)

/-! ### Completing and retiring -/

/-- Marks the register's value as there. Callers pass valid ids. -/
def completeDestRegister (ra : RegisterAllocator) (physReg : PhysicalRegisterID) : RegisterAllocator :=
  if (ra.numPhysical : Int) ≤ physReg.toInt then ra
  else ra.setRegister physReg { ra.physicalRegisterFile physReg with valid := true }

def freeRegister (ra : RegisterAllocator) (physReg : PhysicalRegisterID) : RegisterAllocator :=
  if (ra.numPhysical : Int) ≤ physReg.toInt then ra
  else
    let ra := ra.setRegister physReg { archRegIndex := 255, producingInstructionID := 0, valid := false, busy := false }
    { ra with freeRegisters := ra.freeRegisters ++ [physReg], events := ra.events ++ [.freed physReg] }

/-- Commits a write, and frees the register of the value it replaces. Callers pass
    valid ids. -/
def retireDestRegister (ra : RegisterAllocator) (physReg : PhysicalRegisterID) : RegisterAllocator :=
  if (ra.numPhysical : Int) ≤ physReg.toInt then ra
  else
    let archReg := (ra.physicalRegisterFile physReg).archRegIndex
    let oldPhysReg := ra.backendRAT archReg
    let ra := { ra with backendRAT := Function.update ra.backendRAT archReg physReg }
    if oldPhysReg ≠ invalidPhysicalRegister then ra.freeRegister oldPhysReg else ra

/-! ### Queries -/

def isValid (ra : RegisterAllocator) (physReg : PhysicalRegisterID) : Bool :=
  if (ra.numPhysical : Int) ≤ physReg.toInt ∨ physReg = invalidPhysicalRegister then true
  else (ra.physicalRegisterFile physReg).valid

def isAllocated (ra : RegisterAllocator) (archReg : UInt8) : Bool := decide (ra.frontendRAT archReg ≠ invalidPhysicalRegister)

/-- The number of sources whose value is not there yet. -/
def countRegDependencies (ra : RegisterAllocator) (srcRegisters : List PhysicalRegisterID) : Nat :=
  srcRegisters.countP (fun reg => PhysicalRegisterID.isValid reg && !ra.isValid reg)

def availableCount (ra : RegisterAllocator) : Nat := ra.freeRegisters.length

/-! ### What renaming does -/

variable {ra ra' : RegisterAllocator} {reg : UInt8} {producerID : Nat} {physReg : PhysicalRegisterID}

theorem renameDestRegister_ok (renamed : ra.renameDestRegister reg producerID = .ok (physReg,ra')) :
    ∃ rest, ra.freeRegisters = physReg :: rest ∧ ra.inFile physReg = true ∧ ra' = { ra with
      freeRegisters := rest
      frontendRAT := Function.update ra.frontendRAT reg physReg
      physicalRegisterFile := Function.update ra.physicalRegisterFile physReg
        { archRegIndex := reg, producingInstructionID := producerID, valid := false, busy := true }
      events := ra.events ++ [.dest producerID reg physReg] } := by
  unfold renameDestRegister at renamed
  split at renamed
  · cases renamed
  · next free =>
    dsimp only at renamed
    split at renamed
    · next inside =>
      cases renamed
      exact ⟨_,free,inside,rfl⟩
    · cases renamed

theorem inFile_iff : ra.inFile physReg = true ↔ 0 ≤ physReg.toInt ∧ physReg.toInt < ra.numPhysical := by
  simp [inFile]

theorem freeRegister_inFile (inside : ra.inFile physReg = true) : ra.freeRegister physReg = { ra with
    freeRegisters := ra.freeRegisters ++ [physReg]
    physicalRegisterFile := Function.update ra.physicalRegisterFile physReg
      { archRegIndex := 255, producingInstructionID := 0, valid := false, busy := false }
    events := ra.events ++ [.freed physReg] } :=
  if_neg (Int.not_le.mpr (inFile_iff.mp inside).2)

theorem retireDestRegister_inFile (inside : ra.inFile physReg = true)
    (arch : (ra.physicalRegisterFile physReg).archRegIndex = reg) : ra.retireDestRegister physReg =
      let committed := { ra with backendRAT := Function.update ra.backendRAT reg physReg }
      if ra.backendRAT reg ≠ invalidPhysicalRegister then committed.freeRegister (ra.backendRAT reg) else committed := by
  rw [retireDestRegister,if_neg (Int.not_le.mpr (inFile_iff.mp inside).2),arch]

/-- A source has a register already, or is given one. -/
theorem renameSrcRegister_ok (renamed : ra.renameSrcRegister reg = .ok (physReg,ra')) :
    (ra.frontendRAT reg = physReg ∧ physReg ≠ invalidPhysicalRegister ∧ ra' = ra) ∨
    (ra.frontendRAT reg = invalidPhysicalRegister ∧
      ∃ rest, ra.freeRegisters = physReg :: rest ∧ ra.inFile physReg = true ∧ ra' = { ra with
        freeRegisters := rest
        frontendRAT := Function.update ra.frontendRAT reg physReg
        backendRAT := Function.update ra.backendRAT reg physReg
        physicalRegisterFile := Function.update ra.physicalRegisterFile physReg
          { archRegIndex := reg, producingInstructionID := 0, valid := true, busy := true }
        events := ra.events ++ [.initial reg physReg] }) := by
  unfold renameSrcRegister at renamed
  dsimp only at renamed
  split at renamed
  · next unmapped =>
    split at renamed
    · cases renamed
    · next free =>
      split at renamed
      · next inside =>
        cases renamed
        exact .inr ⟨unmapped,_,free,inside,rfl⟩
      · cases renamed
  · next mapped =>
    cases renamed
    exact .inl ⟨rfl,mapped,rfl⟩

end RegisterAllocator
end FlowSim.Cpu
