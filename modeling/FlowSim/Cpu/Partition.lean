import FlowSim.Cpu.Pipeline

/-!
Where the physical registers are. As long as ids can number them, each is in exactly
one place: on the free list, committed to an architectural register, or given to a
destination of an instruction under way. Ids are 16-bit, so further registers are
nowhere from the start; and renaming never runs out of registers.
-/
namespace FlowSim.Cpu
set_option linter.unusedSimpArgs false

namespace O3CPU

/-- How often the register of a number is on the free list. -/
def freeCount (cpu : O3CPU) (number : Nat) : Nat :=
  cpu.regAlloc.freeRegisters.countP (fun id => id.toInt = (number : Int))

/-- The architectural registers it is committed to. -/
def committedCount (cpu : O3CPU) (number : Nat) : Nat :=
  ((List.range 256).map UInt8.ofNat).countP (fun archReg => (cpu.regAlloc.backendRAT archReg).toInt = (number : Int))

/-- How often it is a destination of a scheduled instruction in the reorder buffer. -/
def inFlightCount (cpu : O3CPU) (number : Nat) : Nat :=
  ((cpu.rob.buffer.filter OOOModelInstr.scheduled).flatMap OOOModelInstr.destRegisters).countP
    (fun id => id.toInt = (number : Int))

/-- Each physical register is in exactly one place, once. -/
def Partitioned (cpu : O3CPU) (numPhysical : Nat) : Prop :=
  ∀ number < numPhysical, cpu.freeCount number + cpu.committedCount number + cpu.inFlightCount number = 1

end O3CPU

section
variable {cpu : O3CPU} {numPhysical retired : Nat} {past : List Alloc} {done waiting : List OOOModelInstr}

theorem countP_toInt (ids : List PhysicalRegisterID) (physReg : PhysicalRegisterID) :
    ids.countP (fun id => id.toInt = physReg.toInt) = ids.count physReg := by
  rw [List.count]
  refine List.countP_congr fun id _ => ?_
  simp [Int16.toInt_inj]

theorem archRegs_nodup : ((List.range 256).map UInt8.ofNat).Nodup := by
  refine List.Nodup.map_on (fun a small b small' same => ?_) List.nodup_range
  have numbers := congrArg UInt8.toNat same
  rw [List.mem_range] at small small'
  rw [UInt8.toNat_ofNat',UInt8.toNat_ofNat'] at numbers
  omega

theorem mem_archRegs (archReg : UInt8) : archReg ∈ (List.range 256).map UInt8.ofNat :=
  List.mem_map.mpr ⟨archReg.toNat,List.mem_range.mpr archReg.toNat_lt,UInt8.ofNat_toNat⟩

/-- A register is committed to at most one architectural register. -/
theorem committedCount_eq_one {ra : RegisterAllocator} {pending : List Alloc} (kept : Renaming ra past pending)
    {archReg : UInt8} (mapped : ra.backendRAT archReg ≠ invalidPhysicalRegister) :
    ((List.range 256).map UInt8.ofNat).countP (fun a => (ra.backendRAT a).toInt = (ra.backendRAT archReg).toInt) = 1 := by
  have same : ((List.range 256).map UInt8.ofNat).countP
      (fun a => (ra.backendRAT a).toInt = (ra.backendRAT archReg).toInt) =
        ((List.range 256).map UInt8.ofNat).count archReg := by
    rw [List.count]
    refine List.countP_congr fun a _ => ?_
    rw [decide_eq_true_eq,beq_iff_eq,Int16.toInt_inj]
    exact ⟨fun equal => (kept.injective archReg a equal.symm mapped).symm,fun equal => by rw [equal]⟩
  rw [same]
  exact List.count_eq_one_of_mem archRegs_nodup (mem_archRegs archReg)

theorem Pipeline.inFlight (kept : Pipeline numPhysical cpu retired past done waiting) {physReg : PhysicalRegisterID}
    (valid : PhysicalRegisterID.isValid physReg = true) {number : Nat} (numbered : physReg.toInt = number) :
    cpu.inFlightCount number = ((done.flatMap allocsOf).map Alloc.physReg).count physReg := by
  have scheduled : cpu.rob.buffer.filter OOOModelInstr.scheduled = done := by
    rw [kept.rob,List.filter_append,List.filter_eq_self.mpr fun x member => (kept.scheduled x member).scheduled,
      List.filter_eq_nil_iff.mpr fun x member => by simp [(kept.fresh.1 x member).scheduled],List.append_nil]
  rw [O3CPU.inFlightCount,scheduled,← numbered,countP_toInt,List.map_flatMap,List.count_flatMap,List.count_flatMap]
  congr 1
  refine List.map_congr_left fun x member => ?_
  show x.destRegisters.count physReg = ((allocsOf x).map Alloc.physReg).count physReg
  rw [allocsOf,(allocsOfRegs_eq x.instrID (kept.scheduled x member).dests).1,List.count_filter valid]

/-- As long as ids can number the registers, each is in exactly one place. -/
theorem Pipeline.partitioned (kept : Pipeline numPhysical cpu retired past done waiting) (small : numPhysical ≤ 32768) :
    cpu.Partitioned numPhysical := by
  intro number below
  have renames := kept.allocation.renames
  have covering := kept.allocation.covering (kept.number ▸ small)
  have numbered := toInt_ofNat (Nat.lt_of_lt_of_le below small)
  generalize Int16.ofNat number = physReg at numbered
  have inside : cpu.regAlloc.inFile physReg = true := by
    rw [RegisterAllocator.inFile_iff,kept.number,numbered]
    omega
  have nodup := renames.nodup
  have apart := renames.apart
  rw [covering.usable_eq] at nodup apart
  obtain ⟨free,used,separate⟩ := List.nodup_append.mp nodup
  rw [kept.inFlight (valid_of_inFile inside) numbered,O3CPU.freeCount,O3CPU.committedCount,← numbered,countP_toInt]
  have uncommitted : (∀ a, cpu.regAlloc.backendRAT a ≠ physReg) →
      ((List.range 256).map UInt8.ofNat).countP (fun a => (cpu.regAlloc.backendRAT a).toInt = physReg.toInt) = 0 := by
    intro none_
    refine List.countP_eq_zero.mpr fun a _ => ?_
    rw [decide_eq_true_eq,Int16.toInt_inj]
    exact none_ a
  rcases covering.covered physReg inside with unused | ⟨archReg,rfl⟩ | pending
  · rw [List.count_eq_one_of_mem free unused,List.count_eq_zero_of_not_mem fun pending => separate _ unused _ pending rfl,
      uncommitted fun a same => apart a (List.mem_append_left _ (same ▸ unused))]
  · have elsewhere := apart archReg
    rw [List.mem_append,not_or] at elsewhere
    rw [List.count_eq_zero_of_not_mem elsewhere.1,List.count_eq_zero_of_not_mem elsewhere.2,
      committedCount_eq_one renames (ne_invalid (valid_of_inFile inside))]
  · rw [List.count_eq_one_of_mem used pending,List.count_eq_zero_of_not_mem fun unused => separate _ unused _ pending rfl,
      uncommitted fun a same => apart a (List.mem_append_right _ (same ▸ pending))]

/-- A register that no id can number is nowhere. -/
theorem unnumbered_register_lost (traceReader : Nat → Option TraceInstr) (config : O3CPUConfig)
    (large : 32768 < config.physicalRegisters) :
    ¬ (O3CPU.newO3CPU traceReader config).Partitioned config.physicalRegisters := by
  intro partitioned
  have place := partitioned 32768 large
  have beyond : ∀ id : PhysicalRegisterID, ¬ id.toInt = ((32768 : Nat) : Int) := fun id same => by
    have := id.toInt_lt
    omega
  simp only [O3CPU.freeCount,O3CPU.committedCount,O3CPU.inFlightCount,beyond,decide_false,
    List.countP_eq_zero.mpr fun _ _ => Bool.false_ne_true] at place
  omega

theorem register_32768_lost : ¬ (O3CPU.newO3CPU (fun _ => none)
    { defaultO3CPUConfig with physicalRegisters := 32769 }).Partitioned 32769 :=
  unnumbered_register_lost _ _ (by decide)

/-- The panic for an id is none of the panics for a lack of registers. -/
theorem IndexPanic.not_lack {panic : String} (index : IndexPanic numPhysical panic) :
    panic ≠ RegisterAllocator.noFreeRegisters ∧ panic ≠ RegisterAllocator.noFreeRegistersForSource := by
  obtain ⟨_,physReg,rfl⟩ := index
  have start : (RegisterAllocator.indexOutOfRange physReg).toList.head? = some 'r' := by
    unfold RegisterAllocator.indexOutOfRange
    simp only [String.toList_append]
    rfl
  constructor <;> intro same <;> rw [same] at start <;> exact absurd start (by decide)

/-- Physical registers are partitioned, on every run for a trace without mispredict
    flags. As long as ids can number the registers, each is in exactly one place and
    no cycle panics; and with any number of registers, no cycle panics for a lack of
    them. -/
theorem registers_partitioned {traceReader : Nat → Option TraceInstr} {config : O3CPUConfig}
    (unflagged : ∀ n read, traceReader n = some read → read.branchMispredicted = false) {cpu : O3CPU}
    (reached : Lib.Reachable O3CPU.step (.newO3CPU traceReader config) cpu) :
    (config.physicalRegisters ≤ 32768 → cpu.Partitioned config.physicalRegisters ∧ ∃ cpu', cpu.tick = .ok cpu') ∧
    ∀ panic, cpu.tick = .error panic →
      panic ≠ RegisterAllocator.noFreeRegisters ∧ panic ≠ RegisterAllocator.noFreeRegistersForSource := by
  have pipelined := pipelined_reachable unflagged reached
  refine ⟨fun small => ⟨?_,?_⟩,fun panic failed => ?_⟩
  · obtain ⟨retired,past,done,waiting,kept⟩ := pipelined
    exact kept.partitioned small
  · rcases pipelined.tick with ⟨cpu',ticked,_⟩ | ⟨panic,_,index⟩
    · exact ⟨cpu',ticked⟩
    · exact absurd index.1 (Nat.not_lt.mpr small)
  · rcases pipelined.tick with ⟨cpu',ticked,_⟩ | ⟨other,failed',index⟩
    · rw [ticked] at failed
      cases failed
    · obtain rfl : other = panic := Except.error.inj (failed'.symm.trans failed)
      exact index.not_lack

theorem registers_partitioned_pair :
    pairCPU.Partitioned 180 ∧ pairCPU.inFlightCount 0 = 1 ∧ ∃ cpu', pairCPU.tick = .ok cpu' := by
  obtain ⟨partitioned,ticks⟩ := (registers_partitioned dependentPair_unflagged pairCPU_reached).1 (by decide)
  exact ⟨partitioned,by decide +kernel,ticks⟩

end
end FlowSim.Cpu
