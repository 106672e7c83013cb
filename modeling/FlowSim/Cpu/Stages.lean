import FlowSim.Cpu.Pipeline

/-!
The stages of a cycle between retiring and dispatching. They work on instructions and on
entries of the load and store queues, but which instructions the core holds, in which
order, and which entries belong to which instruction they leave alone.
-/
namespace FlowSim.Cpu
set_option linter.unusedSimpArgs false

/-- What of an instruction stays the same while it is in the core. -/
structure Card where
  original : TraceInstr
  instrID : Nat
  isBranch : Bool
  branchMispredicted : Bool
  srcMemory : List UInt64
  destMemory : List UInt64
deriving DecidableEq

def OOOModelInstr.card (instr : OOOModelInstr) : Card :=
  ⟨instr.original,instr.instrID,instr.isBranch,instr.branchMispredicted,instr.srcMemory,instr.destMemory⟩

/-- The card of the instruction that the trace has at a place. -/
def TraceInstr.card (read : TraceInstr) (instrID : Nat) : Card :=
  ⟨read,instrID,read.isBranch,read.branchMispredicted,read.srcMemory,read.destMemory⟩

/-- The core after work that moves nothing. -/
structure Kept (cpu cpu' : O3CPU) : Prop where
  rob : cpu'.rob.buffer.map OOOModelInstr.card = cpu.rob.buffer.map OOOModelInstr.card
  robSize : cpu'.rob.maxSize = cpu.rob.maxSize
  loads : cpu'.lsq.loadQueue.map LSQEntry.instrID = cpu.lsq.loadQueue.map LSQEntry.instrID
  stores : cpu'.lsq.storeQueue.map LSQEntry.instrID = cpu.lsq.storeQueue.map LSQEntry.instrID
  lsqSizes : cpu'.lsq.maxLQSize = cpu.lsq.maxLQSize ∧ cpu'.lsq.maxSQSize = cpu.lsq.maxSQSize
  queues : cpu'.decodeQueue = cpu.decodeQueue ∧ cpu'.fetchQueue = cpu.fetchQueue
  trace : cpu'.traceReader = cpu.traceReader ∧ cpu'.reads = cpu.reads ∧ cpu'.delivered = cpu.delivered ∧
    cpu'.instrCounter = cpu.instrCounter
  time : cpu'.config = cpu.config ∧ cpu'.currentCycle = cpu.currentCycle

section
variable {cpu cpu' cpu'' : O3CPU}

theorem Kept.refl (cpu : O3CPU) : Kept cpu cpu := ⟨rfl,rfl,rfl,rfl,⟨rfl,rfl⟩,⟨rfl,rfl⟩,⟨rfl,rfl,rfl,rfl⟩,⟨rfl,rfl⟩⟩

theorem Kept.trans (first : Kept cpu cpu') (second : Kept cpu' cpu'') : Kept cpu cpu'' where
  rob := second.rob.trans first.rob
  robSize := second.robSize.trans first.robSize
  loads := second.loads.trans first.loads
  stores := second.stores.trans first.stores
  lsqSizes := ⟨second.lsqSizes.1.trans first.lsqSizes.1,second.lsqSizes.2.trans first.lsqSizes.2⟩
  queues := ⟨second.queues.1.trans first.queues.1,second.queues.2.trans first.queues.2⟩
  trace := ⟨second.trace.1.trans first.trace.1,second.trace.2.1.trans first.trace.2.1,
    second.trace.2.2.1.trans first.trace.2.2.1,second.trace.2.2.2.trans first.trace.2.2.2⟩
  time := ⟨second.time.1.trans first.time.1,second.time.2.trans first.time.2⟩

theorem kept_foldl {α : Type} {f : O3CPU → α → O3CPU} (each : ∀ cpu a, Kept cpu (f cpu a)) :
    ∀ (items : List α) (cpu : O3CPU), Kept cpu (items.foldl f cpu)
  | [], cpu => .refl cpu
  | item :: rest, cpu => (each cpu item).trans (kept_foldl each rest (f cpu item))

/-- Work on one instruction that keeps its card. -/
theorem Kept.set {i : Nat} {x y : OOOModelInstr} (found : cpu.rob.peekAt i = some x) (same : y.card = x.card) :
    Kept cpu { cpu with rob := cpu.rob.set i y } := by
  refine { Kept.refl cpu with rob := ?_, robSize := rfl }
  show (cpu.rob.buffer.set i y).map _ = _
  obtain ⟨inside,rfl⟩ := List.getElem?_eq_some_iff.mp found
  conv_rhs => rw [← List.set_getElem_self inside]
  rw [List.map_set,List.map_set,same]

/-! ### Memory operations -/

theorem kept_countMemOp (cpu : O3CPU) (instrID : Nat) : Kept cpu (cpu.countMemOp instrID) := by
  unfold O3CPU.countMemOp
  split
  · exact .refl cpu
  · split
    · exact .refl cpu
    · next found => exact .set found rfl

/-- Completing an entry leaves the instructions of the entries as they are. -/
theorem completeEntry_instrID {instrID cycle : Nat} : ∀ {entries entries' : List LSQEntry},
    completeEntry instrID cycle entries = some entries' → entries'.map LSQEntry.instrID = entries.map LSQEntry.instrID
  | [], _, done => by cases done
  | entry :: rest, entries', done => by
    rw [completeEntry] at done
    split at done
    · cases done
      rfl
    · obtain ⟨rest',later,rfl⟩ := Option.map_eq_some_iff.mp done
      rw [List.map_cons,List.map_cons,completeEntry_instrID later]

theorem kept_handleLoadResponse (cpu : O3CPU) (instrID cycle : Nat) : Kept cpu (cpu.handleLoadResponse instrID cycle).1 := by
  unfold O3CPU.handleLoadResponse LoadStoreQueue.handleLoadResponse
  split
  · exact .refl cpu
  · next lsq done =>
    obtain ⟨loadQueue,completed,rfl⟩ := Option.map_eq_some_iff.mp done
    have changed : Kept cpu { cpu with lsq := { cpu.lsq with loadQueue } } :=
      { Kept.refl cpu with loads := completeEntry_instrID completed }
    exact changed.trans (kept_countMemOp ..)

theorem kept_handleStoreResponse (cpu : O3CPU) (instrID cycle : Nat) : Kept cpu (cpu.handleStoreResponse instrID cycle).1 := by
  unfold O3CPU.handleStoreResponse LoadStoreQueue.handleStoreResponse
  split
  · exact .refl cpu
  · next lsq done =>
    obtain ⟨storeQueue,completed,rfl⟩ := Option.map_eq_some_iff.mp done
    have changed : Kept cpu { cpu with lsq := { cpu.lsq with storeQueue } } :=
      { Kept.refl cpu with stores := completeEntry_instrID completed }
    exact changed.trans (kept_countMemOp ..)

theorem kept_processPendingMemOps (cpu : O3CPU) : Kept cpu cpu.processPendingMemOps := by
  have loads := kept_foldl (fun now (op : PendingMemOp) => kept_handleLoadResponse now op.instrID cpu.currentCycle)
    (cpu.pendingLoads.filter (fun op => op.due cpu.currentCycle)) cpu
  have loaded : Kept cpu cpu.processPendingLoads := loads.trans { Kept.refl _ with }
  have stores := kept_foldl
    (fun now (op : PendingMemOp) => kept_handleStoreResponse now op.instrID cpu.processPendingLoads.currentCycle)
    (cpu.processPendingLoads.pendingStores.filter (fun op => op.due cpu.processPendingLoads.currentCycle)) cpu.processPendingLoads
  exact loaded.trans (stores.trans { Kept.refl _ with })

theorem kept_respondAll (cpu : O3CPU) (instr : OOOModelInstr) : Kept cpu (cpu.respondAll instr) :=
  (kept_foldl (fun cpu _ => kept_handleLoadResponse cpu instr.instrID (cpu.currentCycle + 1)) instr.srcMemory cpu).trans
    (kept_foldl (fun cpu _ => kept_handleStoreResponse cpu instr.instrID (cpu.currentCycle + 1)) instr.destMemory _)

theorem kept_accessLoad (cache : Nat → Nat) (instrID : Nat) (cpu : O3CPU) (addr : UInt64) :
    Kept cpu (O3CPU.accessLoad cache instrID cpu addr) := by
  unfold O3CPU.accessLoad O3CPU.access
  split
  · exact .refl cpu
  · dsimp only
    split <;> exact { Kept.refl cpu with }

theorem kept_accessStore (cache : Nat → Nat) (instrID : Nat) (cpu : O3CPU) (addr : UInt64) :
    Kept cpu (O3CPU.accessStore cache instrID cpu addr) := by
  unfold O3CPU.accessStore O3CPU.access
  split
  · exact .refl cpu
  · dsimp only
    split <;> exact { Kept.refl cpu with }

theorem kept_executeMemoryOperation (cpu : O3CPU) (instr : OOOModelInstr) : Kept cpu (cpu.executeMemoryOperation instr) := by
  unfold O3CPU.executeMemoryOperation
  split
  · next cache _ =>
    have loads := kept_foldl (kept_accessLoad cache instr.instrID) instr.srcMemory cpu
    have stores := loads.trans (kept_foldl (kept_accessStore cache instr.instrID) instr.destMemory _)
    dsimp only
    split
    · exact stores.trans (kept_respondAll ..)
    · exact stores
  · split
    · exact kept_respondAll ..
    · exact .refl cpu

/-! ### Complete, execute and schedule -/

theorem kept_executeInstr {i : Nat} {instr : OOOModelInstr} (found : cpu.rob.peekAt i = some instr) :
    Kept cpu (cpu.executeInstr i instr) := by
  unfold O3CPU.executeInstr
  dsimp only
  split
  · exact (Kept.set found (by rfl)).trans (kept_executeMemoryOperation ..)
  · exact .set found (by rfl)

theorem kept_executeLoop (remaining i executeCount : Nat) (cpu : O3CPU) :
    Kept cpu (O3CPU.executeLoop remaining i executeCount cpu) :=
  O3CPU.executeLoop_rule (P := Kept cpu) (fun _ _ _ kept found _ _ => kept.trans (kept_executeInstr found))
    remaining i executeCount (.refl cpu)

theorem kept_doCompleteExecution {i : Nat} {instr : OOOModelInstr} (found : cpu.rob.peekAt i = some instr) :
    Kept cpu (cpu.doCompleteExecution i instr) :=
  { Kept.set (y := { instr with completed := true }) found (by rfl) with }

theorem kept_completeLoop (remaining i completeCount : Nat) (cpu : O3CPU) :
    Kept cpu (O3CPU.completeLoop remaining i completeCount cpu) :=
  O3CPU.completeLoop_rule (P := Kept cpu) (fun _ _ _ kept found _ _ => kept.trans (kept_doCompleteExecution found))
    remaining i completeCount (.refl cpu)

theorem kept_doScheduling {i : Nat} {instr : OOOModelInstr} (found : cpu.rob.peekAt i = some instr)
    (scheduled : cpu.doScheduling i instr = .ok cpu') : Kept cpu cpu' := by
  obtain ⟨srcRegisters,_,destRegisters,_,_,_,rfl⟩ := O3CPU.doScheduling_ok scheduled
  exact { Kept.set (y := { instr with srcRegisters, destRegisters, scheduled := true }) found (by rfl) with }

theorem kept_scheduleLoop (remaining i searchCount : Nat) {cpu cpu' : O3CPU}
    (done : O3CPU.scheduleLoop remaining i searchCount cpu = .ok cpu') : Kept cpu cpu' :=
  O3CPU.scheduleLoop_rule (P := Kept cpu) (fun _ _ _ _ kept found scheduled => kept.trans (kept_doScheduling found scheduled))
    remaining i searchCount (.refl cpu) done

/-- The cycle from retiring to dispatching. -/
theorem kept_schedule (cpu : O3CPU) {scheduled : O3CPU}
    (done : cpu.processPendingMemOps.completeInflightInstruction.execute.schedule = .ok scheduled) : Kept cpu scheduled :=
  (kept_processPendingMemOps cpu).trans <| (kept_completeLoop ..).trans <| (kept_executeLoop ..).trans <| kept_scheduleLoop _ _ _ done

/-- A cycle that does not panic: retiring, work that moves nothing, and the three stages
    that bring instructions in. -/
theorem tick_stages {cpu cpu' : O3CPU} (ticked : cpu.tick = .ok cpu') :
    ∃ mid, Kept { cpu with currentCycle := cpu.currentCycle + 1 }.retire mid ∧ cpu' = mid.dispatch.decode.fetch := by
  obtain ⟨mid,scheduled,same⟩ := tick_ok ticked
  exact ⟨mid,kept_schedule _ scheduled,same⟩

end
end FlowSim.Cpu
