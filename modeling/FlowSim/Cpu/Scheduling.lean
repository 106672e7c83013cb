import FlowSim.Cpu.O3CPU
import FlowSim.Cpu.Renaming

/-!
Renaming the registers of an instruction: each valid destination is given a register
of its own, each valid source is read from the latest write before the instruction.
-/
namespace FlowSim.Cpu
set_option linter.unusedSimpArgs false

/-! ### Who writes and reads which register -/

def Alloc.key (x : Alloc) : Nat × UInt8 := (x.instrID,x.archReg)

/-- The writes of an instruction of the trace: one for each valid destination. -/
def writesOf (instrID : Nat) (read : TraceInstr) : List (Nat × UInt8) :=
  (read.destRegisters.filter PhysicalRegisterID.isValid).map fun reg => (instrID,PhysicalRegisterID.archReg reg)

/-- The writes of the first instructions of the trace, in order. -/
def writes (delivered : List TraceInstr) : List (Nat × UInt8) :=
  delivered.zipIdx.flatMap fun (read,instrID) => writesOf instrID read

/-- The registers that destinations were renamed to, with what they were before. -/
def allocsOfRegs (instrID : Nat) (original renamed : List PhysicalRegisterID) : List Alloc :=
  ((original.zip renamed).filter (fun (reg,_) => PhysicalRegisterID.isValid reg)).map
    fun (reg,physReg) => ⟨instrID,PhysicalRegisterID.archReg reg,physReg⟩

def allocsOf (instr : OOOModelInstr) : List Alloc :=
  allocsOfRegs instr.instrID instr.original.destRegisters instr.destRegisters

/-- A destination is renamed to a valid register if it is one. -/
def Renamed (original renamed : PhysicalRegisterID) : Prop :=
  PhysicalRegisterID.isValid renamed = PhysicalRegisterID.isValid original

/-- A source is renamed to the register of the latest write before the instruction,
    or of the initial value. -/
def Source (events : List RegisterEvent) (instrID : Nat) (original renamed : PhysicalRegisterID) : Prop :=
  if PhysicalRegisterID.isValid original then
    renamed = latest (PhysicalRegisterID.archReg original) (initialOf events (PhysicalRegisterID.archReg original))
        ((destAllocs events).filter (fun x => x.instrID < instrID)) ∧
      PhysicalRegisterID.isValid renamed
  else renamed = original

section
variable {ra ra' : RegisterAllocator} {past pending : List Alloc} {instrID : Nat}
  {regs renamed : List PhysicalRegisterID}

@[simp] theorem writes_append_singleton (delivered : List TraceInstr) (read : TraceInstr) :
    writes (delivered ++ [read]) = writes delivered ++ writesOf delivered.length read := by
  simp [writes,List.zipIdx_append]

theorem allocsOfRegs_cons {original physReg : PhysicalRegisterID} (valid : PhysicalRegisterID.isValid original = true) :
    allocsOfRegs instrID (original :: regs) (physReg :: renamed) =
      ⟨instrID,PhysicalRegisterID.archReg original,physReg⟩ :: allocsOfRegs instrID regs renamed := by
  simp [allocsOfRegs,valid]

theorem allocsOfRegs_skip {original physReg : PhysicalRegisterID} (invalid : ¬ PhysicalRegisterID.isValid original = true) :
    allocsOfRegs instrID (original :: regs) (physReg :: renamed) = allocsOfRegs instrID regs renamed := by
  simp [allocsOfRegs,invalid]

/-- The registers allocated for an instruction are its valid destinations, for its
    writes in order. -/
theorem allocsOfRegs_eq (instrID : Nat) (matched : List.Forall₂ Renamed regs renamed) :
    (allocsOfRegs instrID regs renamed).map Alloc.physReg = renamed.filter PhysicalRegisterID.isValid ∧
      (allocsOfRegs instrID regs renamed).map Alloc.key =
        (regs.filter PhysicalRegisterID.isValid).map fun reg => (instrID,PhysicalRegisterID.archReg reg) := by
  induction matched with
  | nil => exact ⟨rfl,rfl⟩
  | @cons original physReg _ _ same _ ih =>
    by_cases valid : PhysicalRegisterID.isValid original = true
    · rw [allocsOfRegs_cons valid,List.filter_cons_of_pos valid,List.filter_cons_of_pos (same.trans valid)]
      exact ⟨congrArg (physReg :: ·) ih.1,congrArg (_ :: ·) ih.2⟩
    · have invalid : ¬ PhysicalRegisterID.isValid physReg = true := by rwa [same]
      rw [allocsOfRegs_skip valid,List.filter_cons_of_neg valid,List.filter_cons_of_neg invalid]
      exact ih

/-- Registers in use stay the latest ones when later writes are added. -/
theorem Source.extends {original physReg : PhysicalRegisterID} {allocs : List Alloc}
    (source : Source ra.events instrID original physReg) (extended : Extends ra ra' allocs)
    (later : ∀ x ∈ allocs, instrID ≤ x.instrID) : Source ra'.events instrID original physReg := by
  obtain ⟨more,events,added⟩ := extended.events
  unfold Source at source ⊢
  split at source
  · next valid =>
    obtain ⟨value,usable⟩ := source
    have older : (destAllocs ra'.events).filter (fun x => x.instrID < instrID) =
        (destAllocs ra.events).filter (fun x => x.instrID < instrID) := by
      rw [events,destAllocs_append,List.filter_append,added,List.append_right_eq_self]
      refine List.filter_eq_nil_iff.mpr fun x member => ?_
      simpa using later x member
    rw [if_pos valid,older]
    refine ⟨?_,usable⟩
    -- an initial value is added only where there is none yet
    rcases found : initials ra.events (PhysicalRegisterID.archReg original) with _ | ⟨first,rest⟩
    · have none_yet : initialOf ra.events (PhysicalRegisterID.archReg original) = invalidPhysicalRegister := by
        simp [initialOf,found]
      rw [value,none_yet]
      rw [value,none_yet] at usable
      exact (latest_start (ne_invalid usable)).symm
    · rw [value,events]
      simp [initialOf,found]
  · next invalid => rw [if_neg invalid]; exact source

/-! ### Renaming an instruction -/

theorem renameAll_nil {rename : UInt8 → RegisterAllocator → Except String (PhysicalRegisterID × RegisterAllocator)}
    (done : O3CPU.renameAll rename [] ra = .ok (renamed,ra')) : renamed = [] ∧ ra' = ra := by
  cases done
  exact ⟨rfl,rfl⟩

theorem renameAll_cons {rename : UInt8 → RegisterAllocator → Except String (PhysicalRegisterID × RegisterAllocator)}
    {reg : PhysicalRegisterID} (done : O3CPU.renameAll rename (reg :: regs) ra = .ok (renamed,ra')) :
    ∃ physReg rest between, renamed = physReg :: rest ∧ O3CPU.renameAll rename regs between = .ok (rest,ra') ∧
      ((PhysicalRegisterID.isValid reg = true ∧ rename (PhysicalRegisterID.archReg reg) ra = .ok (physReg,between)) ∨
        (PhysicalRegisterID.isValid reg = false ∧ physReg = reg ∧ between = ra)) := by
  rw [O3CPU.renameAll] at done
  split at done
  · next valid =>
    rcases first : rename (PhysicalRegisterID.archReg reg) ra with _ | ⟨physReg,between⟩
    · simp [first,bind,Except.bind] at done
    · rcases others : O3CPU.renameAll rename regs between with _ | ⟨rest,last⟩
      · simp [first,others,bind,Except.bind] at done
      · simp only [first,others,bind,Except.bind,Except.ok.injEq,Prod.mk.injEq] at done
        obtain ⟨rfl,rfl⟩ := done
        exact ⟨physReg,rest,between,rfl,others,.inl ⟨valid,rfl⟩⟩
  · next invalid =>
    rcases others : O3CPU.renameAll rename regs ra with _ | ⟨rest,last⟩
    · simp [others,bind,Except.bind] at done
    · simp only [others,bind,Except.bind,Except.ok.injEq,Prod.mk.injEq] at done
      obtain ⟨rfl,rfl⟩ := done
      exact ⟨reg,rest,ra,rfl,others,.inr ⟨by simpa using invalid,rfl,rfl⟩⟩

/-- The sources of an instruction that is younger than all writes so far. -/
theorem allocation_renameSources (instrID : Nat) (kept : Allocation ra past pending)
    (youngest : ∀ x ∈ past ++ pending, x.instrID < instrID) (done : O3CPU.renameSources regs ra = .ok (renamed,ra')) :
    Allocation ra' past pending ∧ Extends ra ra' [] ∧ List.Forall₂ (Source ra'.events instrID) regs renamed := by
  induction regs generalizing ra renamed with
  | nil =>
    obtain ⟨rfl,rfl⟩ := renameAll_nil done
    exact ⟨kept,.refl ra',.nil⟩
  | cons reg regs ih =>
    obtain ⟨physReg,rest,between,rfl,others,⟨valid,first⟩ | ⟨invalid,rfl,rfl⟩⟩ := renameAll_cons done
    · obtain ⟨kept',extended,value,usable⟩ := allocation_renameSrc kept first
      obtain ⟨kept'',extended',sources⟩ := ih kept' others
      refine ⟨kept'',extended.trans extended',.cons ?_ sources⟩
      have older : (destAllocs between.events).filter (fun x => x.instrID < instrID) = past ++ pending := by
        rw [kept'.renames.allocs]
        exact List.filter_eq_self.mpr fun x member => decide_eq_true (youngest x member)
      have source : Source between.events instrID reg physReg := by
        rw [Source,if_pos valid,older]
        exact ⟨value,usable⟩
      exact source.extends extended' (by simp)
    · obtain ⟨kept',extended,sources⟩ := ih kept others
      refine ⟨kept',extended,.cons ?_ sources⟩
      rw [Source,if_neg (by simp [invalid])]

/-- The destinations of an instruction. -/
theorem allocation_renameDests (kept : Allocation ra past pending)
    (done : O3CPU.renameDests instrID regs ra = .ok (renamed,ra')) :
    Allocation ra' past (pending ++ allocsOfRegs instrID regs renamed) ∧
      Extends ra ra' (allocsOfRegs instrID regs renamed) ∧ List.Forall₂ Renamed regs renamed := by
  induction regs generalizing ra pending renamed with
  | nil =>
    obtain ⟨rfl,rfl⟩ := renameAll_nil done
    exact ⟨by simpa [allocsOfRegs] using kept,.refl ra',.nil⟩
  | cons reg regs ih =>
    obtain ⟨physReg,rest,between,rfl,others,⟨valid,first⟩ | ⟨invalid,rfl,rfl⟩⟩ := renameAll_cons done
    · obtain ⟨kept',extended⟩ := allocation_renameDest kept first
      obtain ⟨kept'',extended',dests⟩ := ih kept' others
      rw [allocsOfRegs_cons valid]
      refine ⟨by simpa using kept'',extended.trans extended',.cons ?_ dests⟩
      have used := kept'.renames.inFile.2.1 ⟨instrID,PhysicalRegisterID.archReg reg,physReg⟩ (by simp)
      exact (valid_of_inFile used).trans valid.symm
    · obtain ⟨kept',extended,dests⟩ := ih kept others
      rw [allocsOfRegs_skip (by simp [invalid])]
      exact ⟨kept',extended,.cons rfl dests⟩

/-! ### When renaming panics -/

/-- The panic for an id that is no index into the register file. It takes more
    registers than ids can number. -/
def IndexPanic (numPhysical : Nat) (panic : String) : Prop :=
  32768 < numPhysical ∧ ∃ physReg, panic = RegisterAllocator.indexOutOfRange physReg

/-- The sources of a list that have no register yet. -/
def unallocated (ra : RegisterAllocator) (regs : List PhysicalRegisterID) : Nat :=
  regs.countP fun reg => PhysicalRegisterID.isValid reg && !ra.isAllocated (PhysicalRegisterID.archReg reg)

theorem Allocation.head_inFile {physReg : PhysicalRegisterID} {rest : List PhysicalRegisterID}
    (kept : Allocation ra past pending) (free : ra.freeRegisters = physReg :: rest) (small : ra.numPhysical ≤ 32768) :
    ra.inFile physReg = true := by
  refine kept.renames.inFile.1 physReg ?_
  rw [(kept.covering small).usable_eq,free]
  exact List.mem_cons_self

/-- With a free register, a destination is renamed or its register is no index. -/
theorem renameDestRegister_outcome (archReg : UInt8) (instrID : Nat) (kept : Allocation ra past pending)
    (available : 1 ≤ ra.availableCount) :
    (∃ physReg ra', ra.renameDestRegister archReg instrID = .ok (physReg,ra') ∧ ra'.availableCount + 1 = ra.availableCount) ∨
      ∃ panic, ra.renameDestRegister archReg instrID = .error panic ∧ IndexPanic ra.numPhysical panic := by
  rcases free : ra.freeRegisters with _ | ⟨physReg,rest⟩
  · simp [RegisterAllocator.availableCount,free] at available
  · unfold RegisterAllocator.renameDestRegister
    simp only [free]
    split
    · exact .inl ⟨_,_,rfl,by simp [RegisterAllocator.availableCount,RegisterAllocator.setRegister,free]⟩
    · next outside =>
      refine .inr ⟨_,rfl,?_,physReg,rfl⟩
      by_contra small
      exact outside (kept.head_inFile free (Nat.le_of_not_lt small))

/-- A source takes a register only if it has none. -/
theorem renameSrcRegister_outcome {archReg : UInt8} (kept : Allocation ra past pending)
    (available : ra.isAllocated archReg = false → 1 ≤ ra.availableCount) :
    (∃ physReg ra', ra.renameSrcRegister archReg = .ok (physReg,ra') ∧
      ra.availableCount = ra'.availableCount + (if ra.isAllocated archReg then 0 else 1) ∧
      ∀ a, ra.isAllocated a = true → ra'.isAllocated a = true) ∨
      ∃ panic, ra.renameSrcRegister archReg = .error panic ∧ IndexPanic ra.numPhysical panic := by
  by_cases mapped : ra.isAllocated archReg = true
  · refine .inl ⟨ra.frontendRAT archReg,ra,?_,by rw [if_pos mapped,Nat.add_zero],fun a before => before⟩
    rw [RegisterAllocator.isAllocated,decide_eq_true_eq] at mapped
    exact if_neg mapped
  · rw [Bool.not_eq_true] at mapped
    have available := available mapped
    have none_yet : ra.frontendRAT archReg = invalidPhysicalRegister := by
      simpa [RegisterAllocator.isAllocated] using mapped
    rcases free : ra.freeRegisters with _ | ⟨physReg,rest⟩
    · simp [RegisterAllocator.availableCount,free] at available
    · unfold RegisterAllocator.renameSrcRegister
      simp only [free,none_yet,if_true]
      split
      · next inside =>
        refine .inl ⟨_,_,rfl,by simp [RegisterAllocator.availableCount,RegisterAllocator.setRegister,free,mapped],fun a before => ?_⟩
        simp only [RegisterAllocator.isAllocated,RegisterAllocator.setRegister,Function.update_apply,
          decide_eq_true_eq] at before ⊢
        split
        · exact ne_invalid (valid_of_inFile inside)
        · exact before
      · next outside =>
        refine .inr ⟨_,rfl,?_,physReg,rfl⟩
        by_contra small
        exact outside (kept.head_inFile free (Nat.le_of_not_lt small))

theorem renameAll_step (rename : UInt8 → RegisterAllocator → Except String (PhysicalRegisterID × RegisterAllocator))
    {reg physReg : PhysicalRegisterID} {between : RegisterAllocator} (valid : PhysicalRegisterID.isValid reg = true)
    (first : rename (PhysicalRegisterID.archReg reg) ra = .ok (physReg,between)) :
    O3CPU.renameAll rename (reg :: regs) ra =
      (O3CPU.renameAll rename regs between).map fun (rest,ra') => (physReg :: rest,ra') := by
  rw [O3CPU.renameAll,if_pos valid,first]
  show (O3CPU.renameAll rename regs between).bind _ = _
  cases O3CPU.renameAll rename regs between <;> rfl

theorem renameAll_skip {rename : UInt8 → RegisterAllocator → Except String (PhysicalRegisterID × RegisterAllocator)}
    {reg : PhysicalRegisterID} (invalid : ¬ PhysicalRegisterID.isValid reg = true) :
    O3CPU.renameAll rename (reg :: regs) ra =
      (O3CPU.renameAll rename regs ra).map fun (rest,ra') => (reg :: rest,ra') := by
  rw [O3CPU.renameAll,if_neg invalid]
  show (O3CPU.renameAll rename regs ra).bind _ = _
  cases O3CPU.renameAll rename regs ra <;> rfl

/-- With as many free registers as are needed, and `spare` more, the sources are
    renamed and leave those, or an id is no index. -/
theorem renameSources_outcome (regs : List PhysicalRegisterID) {spare : Nat} (kept : Allocation ra past pending)
    (available : unallocated ra regs + spare ≤ ra.availableCount) :
    (∃ renamed ra', O3CPU.renameSources regs ra = .ok (renamed,ra') ∧ spare ≤ ra'.availableCount) ∨
      ∃ panic, O3CPU.renameSources regs ra = .error panic ∧ IndexPanic ra.numPhysical panic := by
  induction regs generalizing ra with
  | nil => exact .inl ⟨[],ra,rfl,by omega⟩
  | cons reg regs ih =>
    by_cases valid : PhysicalRegisterID.isValid reg = true
    · have enough : ra.isAllocated (PhysicalRegisterID.archReg reg) = false → 1 ≤ ra.availableCount := by
        intro unmapped
        simp only [unallocated,List.countP_cons,valid,unmapped] at available
        simp only [Bool.not_false,Bool.and_self,if_true] at available
        omega
      rcases renameSrcRegister_outcome kept enough with ⟨physReg,between,first,left,grown⟩ | ⟨panic,failed,index⟩
      · obtain ⟨kept',extended,_⟩ := allocation_renameSrc kept first
        have fewer : unallocated between regs ≤ unallocated ra regs := by
          refine List.countP_mono_left fun other _ missing => ?_
          simp only [Bool.and_eq_true,Bool.not_eq_true'] at missing ⊢
          refine ⟨missing.1,?_⟩
          by_contra mapped
          rw [Bool.not_eq_false] at mapped
          exact absurd (grown _ mapped) (by simp [missing.2])
        have counted : unallocated ra (reg :: regs) =
            unallocated ra regs + (if ra.isAllocated (PhysicalRegisterID.archReg reg) then 0 else 1) := by
          by_cases mapped : ra.isAllocated (PhysicalRegisterID.archReg reg) = true <;> simp [unallocated,valid,mapped]
        have still : unallocated between regs + spare ≤ between.availableCount := by omega
        unfold O3CPU.renameSources at ih ⊢
        rw [renameAll_step _ valid first]
        rcases ih kept' still with ⟨rest,last,others,enough⟩ | ⟨panic,failed,index⟩
        · exact .inl ⟨_,last,by rw [others]; rfl,enough⟩
        · exact .inr ⟨panic,by rw [failed]; rfl,extended.numPhysical ▸ index⟩
      · refine .inr ⟨panic,?_,index⟩
        rw [O3CPU.renameSources,O3CPU.renameAll,if_pos valid,failed]
        rfl
    · have fewer : unallocated ra (reg :: regs) = unallocated ra regs := by
        simp [unallocated,valid]
      unfold O3CPU.renameSources at ih ⊢
      rw [renameAll_skip valid]
      rcases ih kept (fewer ▸ available) with ⟨rest,last,others,enough⟩ | ⟨panic,failed,index⟩
      · exact .inl ⟨_,last,by rw [others]; rfl,enough⟩
      · exact .inr ⟨panic,by rw [failed]; rfl,index⟩

/-- The same for destinations, each of which takes a register. -/
theorem renameDests_outcome (instrID : Nat) (kept : Allocation ra past pending)
    (available : regs.countP PhysicalRegisterID.isValid ≤ ra.availableCount) :
    (∃ renamed ra', O3CPU.renameDests instrID regs ra = .ok (renamed,ra')) ∨
      ∃ panic, O3CPU.renameDests instrID regs ra = .error panic ∧ IndexPanic ra.numPhysical panic := by
  induction regs generalizing ra pending with
  | nil => exact .inl ⟨[],ra,rfl⟩
  | cons reg regs ih =>
    unfold O3CPU.renameDests at ih ⊢
    by_cases valid : PhysicalRegisterID.isValid reg = true
    · rw [List.countP_cons_of_pos valid] at available
      rcases renameDestRegister_outcome (PhysicalRegisterID.archReg reg) instrID kept (by omega) with ⟨physReg,between,first,left⟩ | ⟨panic,failed,index⟩
      · obtain ⟨kept',extended⟩ := allocation_renameDest kept first
        rw [renameAll_step (fun archReg ra => ra.renameDestRegister archReg instrID) valid first]
        rcases ih kept' (by omega) with ⟨rest,last,others⟩ | ⟨panic,failed,index⟩
        · exact .inl ⟨_,last,by rw [others]; rfl⟩
        · exact .inr ⟨panic,by rw [failed]; rfl,extended.numPhysical ▸ index⟩
      · refine .inr ⟨panic,?_,index⟩
        rw [O3CPU.renameAll,if_pos valid,failed]
        rfl
    · rw [List.countP_cons_of_neg valid] at available
      rw [renameAll_skip valid]
      rcases ih kept available with ⟨rest,last,others⟩ | ⟨panic,failed,index⟩
      · exact .inl ⟨_,last,by rw [others]; rfl⟩
      · exact .inr ⟨panic,by rw [failed]; rfl,index⟩

end

end FlowSim.Cpu
