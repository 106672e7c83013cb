import FlowSim.Cpu.Loops

/-!
Completing and executing: work on the instructions of the reorder buffer that changes
no register of theirs, and nothing at all of one that is not scheduled.
-/
namespace FlowSim.Cpu
set_option linter.unusedSimpArgs false

/-- `y` is the instruction `x` after some work on it: nothing of it changes before it
    is scheduled, and its registers do not change. -/
structure WorkedOn (x y : OOOModelInstr) : Prop where
  instrID : y.instrID = x.instrID
  original : y.original = x.original
  branchMispredicted : y.branchMispredicted = x.branchMispredicted
  scheduled : y.scheduled = x.scheduled
  destRegisters : y.destRegisters = x.destRegisters
  srcRegisters : y.srcRegisters = x.srcRegisters
  untouched : x.scheduled = false → y.readyTime = x.readyTime ∧ y.executed = x.executed ∧ y.completed = x.completed

/-- The core after work on the instructions of the reorder buffer. -/
structure Worked (cpu cpu' : O3CPU) : Prop where
  rob : List.Forall₂ WorkedOn cpu.rob.buffer cpu'.rob.buffer
  regAlloc : ∃ regs : List PhysicalRegisterID,
    cpu'.regAlloc = regs.foldl (fun ra reg => ra.completeDestRegister reg) cpu.regAlloc
  queues : cpu'.decodeQueue = cpu.decodeQueue ∧ cpu'.fetchQueue = cpu.fetchQueue
  trace : cpu'.traceReader = cpu.traceReader ∧ cpu'.delivered = cpu.delivered ∧ cpu'.instrCounter = cpu.instrCounter
  time : cpu'.config = cpu.config ∧ cpu'.currentCycle = cpu.currentCycle

theorem WorkedOn.refl (x : OOOModelInstr) : WorkedOn x x := ⟨rfl,rfl,rfl,rfl,rfl,rfl,fun _ => ⟨rfl,rfl,rfl⟩⟩

theorem WorkedOn.trans {x y z : OOOModelInstr} (first : WorkedOn x y) (second : WorkedOn y z) : WorkedOn x z where
  instrID := second.instrID.trans first.instrID
  original := second.original.trans first.original
  branchMispredicted := second.branchMispredicted.trans first.branchMispredicted
  scheduled := second.scheduled.trans first.scheduled
  destRegisters := second.destRegisters.trans first.destRegisters
  srcRegisters := second.srcRegisters.trans first.srcRegisters
  untouched unscheduled := by
    obtain ⟨ready,executed,completed⟩ := first.untouched unscheduled
    obtain ⟨ready',executed',completed'⟩ := second.untouched (first.scheduled.trans unscheduled)
    exact ⟨ready'.trans ready,executed'.trans executed,completed'.trans completed⟩

theorem Worked.refl (cpu : O3CPU) : Worked cpu cpu where
  rob := List.forall₂_same.mpr fun x _ => .refl x
  regAlloc := ⟨[],rfl⟩
  queues := ⟨rfl,rfl⟩
  trace := ⟨rfl,rfl,rfl⟩
  time := ⟨rfl,rfl⟩

theorem forall₂_worked_trans {xs ys zs : List OOOModelInstr} (first : List.Forall₂ WorkedOn xs ys)
    (second : List.Forall₂ WorkedOn ys zs) : List.Forall₂ WorkedOn xs zs := by
  induction first generalizing zs with
  | nil => exact second
  | cons here _ ih =>
    cases second with
    | cons here' rest => exact .cons (here.trans here') (ih rest)

theorem Worked.trans {cpu cpu' cpu'' : O3CPU} (first : Worked cpu cpu') (second : Worked cpu' cpu'') : Worked cpu cpu'' where
  rob := forall₂_worked_trans first.rob second.rob
  regAlloc := by
    obtain ⟨regs,same⟩ := first.regAlloc
    obtain ⟨regs',same'⟩ := second.regAlloc
    exact ⟨regs ++ regs',by rw [same',same,List.foldl_append]⟩
  queues := ⟨second.queues.1.trans first.queues.1,second.queues.2.trans first.queues.2⟩
  trace := ⟨second.trace.1.trans first.trace.1,second.trace.2.1.trans first.trace.2.1,
    second.trace.2.2.trans first.trace.2.2⟩
  time := ⟨second.time.1.trans first.time.1,second.time.2.trans first.time.2⟩

theorem worked_foldl {α : Type} {f : O3CPU → α → O3CPU} (each : ∀ cpu a, Worked cpu (f cpu a)) :
    ∀ (as : List α) (cpu : O3CPU), Worked cpu (as.foldl f cpu)
  | [],cpu => .refl cpu
  | a :: as,cpu => (each cpu a).trans (worked_foldl each as (f cpu a))

theorem forall₂_set {xs : List OOOModelInstr} {x y : OOOModelInstr} : ∀ {i : Nat}, xs[i]? = some x → WorkedOn x y →
    List.Forall₂ WorkedOn xs (xs.set i y) := by
  induction xs with
  | nil => exact fun {i} found => by simp at found
  | cons first rest ih =>
    intro i found worked
    cases i with
    | zero =>
      obtain rfl := Option.some.inj found
      exact .cons worked (List.forall₂_same.mpr fun x _ => .refl x)
    | succ i => exact .cons (.refl first) (ih (by simpa using found) worked)

/-- Work on one instruction. -/
theorem Worked.set {cpu : O3CPU} {i : Nat} {x y : OOOModelInstr} (found : cpu.rob.peekAt i = some x)
    (worked : WorkedOn x y) : Worked cpu { cpu with rob := cpu.rob.set i y } :=
  { Worked.refl cpu with rob := forall₂_set found worked }

theorem worked_countMemOp (cpu : O3CPU) (instrID : Nat) : Worked cpu (cpu.countMemOp instrID) := by
  unfold O3CPU.countMemOp
  split
  · exact .refl cpu
  · split
    · exact .refl cpu
    · next found => exact .set found ⟨rfl,rfl,rfl,rfl,rfl,rfl,fun _ => ⟨rfl,rfl,rfl⟩⟩

theorem worked_handleLoadResponse (cpu : O3CPU) (instrID cycle : Nat) :
    Worked cpu (cpu.handleLoadResponse instrID cycle).1 := by
  unfold O3CPU.handleLoadResponse
  split
  · exact .refl cpu
  · next lsq _ =>
    have changed : Worked cpu { cpu with lsq } := { Worked.refl cpu with }
    exact changed.trans (worked_countMemOp ..)

theorem worked_handleStoreResponse (cpu : O3CPU) (instrID cycle : Nat) :
    Worked cpu (cpu.handleStoreResponse instrID cycle).1 := by
  unfold O3CPU.handleStoreResponse
  split
  · exact .refl cpu
  · next lsq _ =>
    have changed : Worked cpu { cpu with lsq } := { Worked.refl cpu with }
    exact changed.trans (worked_countMemOp ..)

theorem worked_processPendingLoads (cpu : O3CPU) : Worked cpu cpu.processPendingLoads := by
  have answered := worked_foldl (fun now (op : PendingMemOp) => worked_handleLoadResponse now op.instrID cpu.currentCycle)
    (cpu.pendingLoads.filter (fun op => op.due cpu.currentCycle)) cpu
  exact answered.trans { Worked.refl _ with }

theorem worked_processPendingStores (cpu : O3CPU) : Worked cpu cpu.processPendingStores := by
  have answered := worked_foldl (fun now (op : PendingMemOp) => worked_handleStoreResponse now op.instrID cpu.currentCycle)
    (cpu.pendingStores.filter (fun op => op.due cpu.currentCycle)) cpu
  exact answered.trans { Worked.refl _ with }

theorem worked_respondAll (cpu : O3CPU) (instr : OOOModelInstr) : Worked cpu (cpu.respondAll instr) :=
  (worked_foldl (fun cpu _ => worked_handleLoadResponse cpu instr.instrID (cpu.currentCycle + 1)) instr.srcMemory cpu).trans
    (worked_foldl (fun cpu _ => worked_handleStoreResponse cpu instr.instrID (cpu.currentCycle + 1)) instr.destMemory _)

theorem worked_accessLoad (cache : Nat → Nat) (instrID : Nat) (cpu : O3CPU) (addr : UInt64) :
    Worked cpu (O3CPU.accessLoad cache instrID cpu addr) := by
  unfold O3CPU.accessLoad O3CPU.access
  split
  · exact .refl cpu
  · dsimp only
    split <;> exact { Worked.refl cpu with }

theorem worked_accessStore (cache : Nat → Nat) (instrID : Nat) (cpu : O3CPU) (addr : UInt64) :
    Worked cpu (O3CPU.accessStore cache instrID cpu addr) := by
  unfold O3CPU.accessStore O3CPU.access
  split
  · exact .refl cpu
  · dsimp only
    split <;> exact { Worked.refl cpu with }

theorem worked_executeMemoryOperation (cpu : O3CPU) (instr : OOOModelInstr) :
    Worked cpu (cpu.executeMemoryOperation instr) := by
  unfold O3CPU.executeMemoryOperation
  split
  · next cache _ =>
    have loads := worked_foldl (worked_accessLoad cache instr.instrID) instr.srcMemory cpu
    have stores := loads.trans (worked_foldl (worked_accessStore cache instr.instrID) instr.destMemory _)
    dsimp only
    split
    · exact stores.trans (worked_respondAll ..)
    · exact stores
  · split
    · exact worked_respondAll ..
    · exact .refl cpu

theorem worked_executeInstr {cpu : O3CPU} {i : Nat} {instr : OOOModelInstr} (found : cpu.rob.peekAt i = some instr)
    (scheduled : instr.scheduled = true) : Worked cpu (cpu.executeInstr i instr) := by
  have worked : WorkedOn instr
      { instr with executed := true, readyTime := cpu.currentCycle + cpu.config.executeLatency } :=
    ⟨rfl,rfl,rfl,rfl,rfl,rfl,fun unscheduled => absurd scheduled (by simp [unscheduled])⟩
  unfold O3CPU.executeInstr
  dsimp only
  split
  · exact (Worked.set found worked).trans (worked_executeMemoryOperation ..)
  · exact .set found worked

theorem worked_executeLoop (remaining i executeCount : Nat) (cpu : O3CPU) :
    Worked cpu (O3CPU.executeLoop remaining i executeCount cpu) :=
  O3CPU.executeLoop_rule (P := Worked cpu)
    (fun _ _ _ worked found scheduled _ => worked.trans (worked_executeInstr found scheduled)) remaining i executeCount (.refl cpu)

/-- Only what is scheduled has been executed. -/
def ExecutedScheduled (cpu : O3CPU) : Prop := ∀ x ∈ cpu.rob.buffer, x.executed = true → x.scheduled = true

theorem ExecutedScheduled.worked {cpu cpu' : O3CPU} (sane : ExecutedScheduled cpu) (worked : Worked cpu cpu') :
    ExecutedScheduled cpu' := by
  intro y member executed
  obtain ⟨i,here⟩ := List.mem_iff_getElem?.mp member
  obtain ⟨same,pairs⟩ := List.forall₂_iff_get.mp worked.rob
  obtain ⟨inside,rfl⟩ := List.getElem?_eq_some_iff.mp here
  have pair := pairs i (same ▸ inside) inside
  simp only [List.get_eq_getElem] at pair
  rw [pair.scheduled]
  by_contra unscheduled
  rw [Bool.not_eq_true] at unscheduled
  rw [(pair.untouched unscheduled).2.1] at executed
  exact absurd (sane _ (List.getElem_mem _) executed) (by simp [unscheduled])

theorem worked_doCompleteExecution {cpu : O3CPU} {i : Nat} {instr : OOOModelInstr}
    (found : cpu.rob.peekAt i = some instr) (scheduled : instr.scheduled = true) :
    Worked cpu (cpu.doCompleteExecution i instr) := by
  have worked : WorkedOn instr { instr with completed := true } :=
    ⟨rfl,rfl,rfl,rfl,rfl,rfl,fun unscheduled => absurd scheduled (by simp [unscheduled])⟩
  exact { Worked.set found worked with regAlloc := ⟨_,rfl⟩ }

theorem worked_completeLoop (remaining i completeCount : Nat) (cpu : O3CPU) (sane : ExecutedScheduled cpu) :
    Worked cpu (O3CPU.completeLoop remaining i completeCount cpu) := by
  refine O3CPU.completeLoop_rule (P := Worked cpu) (fun mid i instr worked found executed _ => ?_) remaining i completeCount (.refl cpu)
  exact worked.trans (worked_doCompleteExecution found (sane.worked worked instr (List.mem_of_getElem? found) executed))

end FlowSim.Cpu
