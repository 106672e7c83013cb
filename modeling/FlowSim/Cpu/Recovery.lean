import FlowSim.Cpu.Completions

/-!
Recovery from mispredicted branches. A branch is taken from the reorder buffer before what
follows it there is flushed, so the flush finds no branch and drops nothing; the entries of
the younger instructions and their registers stay as well, and the mapping is not reset.
What recovers is a core in which nothing has been dispatched behind the branch.
-/
namespace FlowSim.Cpu
open FlowSim.Lib
set_option linter.unusedSimpArgs false

/-- Nothing is left of the instructions younger than the branch: none is in the core or has
    an entry, the registers allocated to them are free, and renaming goes on from what is
    committed. -/
structure Recovered (before : O3CPU) (branch : OOOModelInstr) (after : O3CPU) : Prop where
  inside : ∀ instr ∈ after.rob.buffer ++ (after.decodeQueue ++ after.fetchQueue), instr.instrID ≤ branch.instrID
  entries : ∀ entry ∈ after.lsq.loadQueue ++ after.lsq.storeQueue, entry.instrID ≤ branch.instrID
  registers : ∀ instr ∈ before.inside, branch.instrID < instr.instrID → instr.scheduled = true →
    ∀ reg ∈ instr.destRegisters, PhysicalRegisterID.isValid reg = true → reg ∈ after.regAlloc.freeRegisters
  mapping : after.regAlloc.frontendRAT = after.regAlloc.backendRAT

/-- The ids of the load and store entries. -/
def O3CPU.entryIDs (cpu : O3CPU) : List Nat :=
  cpu.lsq.loadQueue.map LSQEntry.instrID ++ cpu.lsq.storeQueue.map LSQEntry.instrID

/-- Of what is dispatched, the youngest is in the reorder buffer, unless that is empty. -/
def Recent (cpu : O3CPU) : Prop := ∀ id ∈ cpu.entryIDs, cpu.rob.buffer = [] ∨ ∃ x ∈ cpu.rob.buffer, id ≤ x.instrID

section
variable {cpu cpu' : O3CPU}

/-! ### The youngest entry -/

theorem Recent.kept (recent : Recent cpu) (kept : Kept cpu cpu') : Recent cpu' := by
  intro id member
  rw [O3CPU.entryIDs,kept.loads,kept.stores] at member
  rcases recent id member with nothing | ⟨x,inside,younger⟩
  · have cards := kept.rob
    rw [nothing,List.map_nil,List.map_eq_nil_iff] at cards
    exact .inl cards
  · have card : x.card ∈ cpu'.rob.buffer.map OOOModelInstr.card := kept.rob ▸ List.mem_map_of_mem inside
    obtain ⟨y,inside',same⟩ := List.mem_map.mp card
    have id_same : y.instrID = x.instrID := congrArg Card.instrID same
    exact .inr ⟨y,inside',id_same ▸ younger⟩

theorem Recent.same (recent : Recent cpu) (rob : cpu'.rob = cpu.rob) (lsq : cpu'.lsq = cpu.lsq) : Recent cpu' := by
  intro id member
  rw [O3CPU.entryIDs,lsq] at member
  rw [rob]
  exact recent id member

theorem releaseLsq_subset (lsq : LoadStoreQueue) (instr : OOOModelInstr) :
    (releaseLsq lsq instr).loadQueue ⊆ lsq.loadQueue ∧ (releaseLsq lsq instr).storeQueue ⊆ lsq.storeQueue := by
  unfold releaseLsq LoadStoreQueue.removeLoad LoadStoreQueue.removeStore
  dsimp only
  by_cases loads : instr.isLoad = true <;> by_cases stores : instr.isStore = true <;>
    simp [loads,stores,List.eraseP_subset]

/-- The entries of the instruction that leaves are older than those behind it. -/
theorem Recent.retireInstr (recent : Recent cpu) {instr : OOOModelInstr} {rob : ReorderBuffer}
    (taken : cpu.rob.retire = some (instr,rob)) (older : ∀ other ∈ rob.buffer, instr.instrID < other.instrID) :
    Recent ({ cpu with rob }.retireInstr instr) := by
  obtain ⟨buffer,_,_⟩ := retire_some taken
  obtain ⟨loads,stores⟩ := releaseLsq_subset cpu.lsq instr
  obtain ⟨regAlloc,fetchQueue,_,eq⟩ := @retireInstr_eq cpu _ _ older
  rw [eq]
  intro id member
  have before : id ∈ cpu.entryIDs := by
    rcases List.mem_append.mp member with load | store
    · exact List.mem_append_left _ (List.map_subset _ loads load)
    · exact List.mem_append_right _ (List.map_subset _ stores store)
  show rob.buffer = [] ∨ ∃ x ∈ rob.buffer, id ≤ x.instrID
  rcases recent id before with nothing | ⟨x,inside,younger⟩
  · rw [buffer] at nothing
    cases nothing
  rw [buffer] at inside
  rcases List.mem_cons.mp inside with rfl | later
  · rcases others : rob.buffer with _ | ⟨y,rest⟩
    · exact .inl rfl
    · have first : y ∈ rob.buffer := others ▸ List.mem_cons_self
      exact .inr ⟨y,List.mem_cons_self,younger.trans (Nat.le_of_lt (older y first))⟩
  · exact .inr ⟨x,later,younger⟩

/-- What is dispatched is younger than all entries before it. -/
theorem recent_dispatched {instr : OOOModelInstr} {rest : List OOOModelInstr}
    (coming : ∀ id ∈ cpu.entryIDs, id < instr.instrID) : Recent (cpu.dispatchedFirst instr rest) := by
  intro id member
  refine .inr ⟨{ instr with readyTime := cpu.currentCycle + cpu.config.dispatchLatency },?_,?_⟩
  · exact List.mem_append_right _ List.mem_cons_self
  obtain ⟨lsq,eq,grown⟩ := doMemoryScheduling_added { cpu with rob := { cpu.rob with buffer := cpu.rob.buffer ++
    [{ instr with readyTime := cpu.currentCycle + cpu.config.dispatchLatency }] } } instr
  rw [O3CPU.entryIDs,O3CPU.dispatchedFirst,eq] at member
  have old_or_mine : ∀ accessType, ∀ entry ∈ lsq.queue accessType, entry ∈ cpu.lsq.queue accessType ∨ entry.instrID = instr.instrID := by
    intro accessType entry inside
    obtain ⟨new,same,mine,_⟩ := grown accessType
    rw [same] at inside
    rcases List.mem_append.mp inside with old | now
    · exact .inl old
    · exact .inr (mine entry now).1
  rcases List.mem_append.mp member with load | store
  · obtain ⟨entry,inside,rfl⟩ := List.mem_map.mp load
    rcases old_or_mine .load entry inside with old | mine
    · exact Nat.le_of_lt (coming _ (List.mem_append_left _ (List.mem_map_of_mem old)))
    · exact Nat.le_of_eq mine
  · obtain ⟨entry,inside,rfl⟩ := List.mem_map.mp store
    rcases old_or_mine .store entry inside with old | mine
    · exact Nat.le_of_lt (coming _ (List.mem_append_right _ (List.mem_map_of_mem old)))
    · exact Nat.le_of_eq mine

/-! ### What is kept -/

/-- The books of the memory operations are right, the youngest entry is known, and renaming
    has a frontier. -/
structure Tidy (cpu : O3CPU) : Prop where
  accounts : cpu.ledger.Accounts
  recent : Recent cpu
  frontier : ∃ past done waiting, Frontier cpu past done waiting

theorem Tidy.ordered (tidy : Tidy cpu) : (cpu.inside.map OOOModelInstr.instrID).Pairwise (· < ·) := by
  have ordered := tidy.accounts.ordered
  simp only [O3CPU.ledger] at ordered
  rw [← List.map_append,List.map_map] at ordered
  exact ordered

/-- The instructions behind the one that retires are younger. -/
theorem Tidy.older (tidy : Tidy cpu) {instr : OOOModelInstr} {rob : ReorderBuffer} (taken : cpu.rob.retire = some (instr,rob)) :
    ∀ other ∈ rob.buffer, instr.instrID < other.instrID := by
  intro other member
  have ordered := tidy.ordered
  rw [O3CPU.inside,(retire_some taken).1,List.cons_append,List.map_cons,List.pairwise_cons] at ordered
  exact ordered.1 _ (List.mem_map_of_mem (List.mem_append_left _ member))

theorem Tidy.retireInstr (tidy : Tidy cpu) {instr : OOOModelInstr} {rob : ReorderBuffer}
    (taken : cpu.rob.retire = some (instr,rob)) : Tidy ({ cpu with rob }.retireInstr instr) := by
  have older := tidy.older taken
  refine ⟨tidy.accounts.leaves (leaves_retireInstr taken).ledger,tidy.recent.retireInstr taken older,?_⟩
  obtain ⟨past,done,waiting,kept⟩ := tidy.frontier
  obtain ⟨rest,_,_,kept'⟩ := kept.retireInstr taken fun _ other member => (Nat.ne_of_lt (older other member)).symm
  exact ⟨_,rest,waiting,kept'⟩

theorem Tidy.nextCycle (tidy : Tidy cpu) : Tidy { cpu with currentCycle := cpu.currentCycle + 1 } := by
  obtain ⟨past,done,waiting,kept⟩ := tidy.frontier
  refine ⟨tidy.accounts,tidy.recent.same rfl rfl,past,done,waiting,{ kept with bound := fun x member => ?_ }⟩
  have before := kept.bound x member
  simp only
  omega

/-- The cycle up to scheduling. -/
theorem Tidy.scheduled {mid : O3CPU} (tidy : Tidy cpu) (scheduled : cpu.beforeSchedule.schedule = .ok mid) : Tidy mid := by
  have retired : Tidy { cpu with currentCycle := cpu.currentCycle + 1 }.retire :=
    O3CPU.retireLoop_rule (fun _ _ _ tidy taken => tidy.retireInstr taken) _ tidy.nextCycle
  refine ⟨accounts_scheduled tidy.accounts scheduled,retired.recent.kept (kept_schedule _ scheduled),?_⟩
  obtain ⟨past,done,waiting,kept⟩ := retired.frontier
  obtain ⟨_,_,_,_,answered⟩ := kept.worked ((worked_processPendingLoads _).trans (worked_processPendingStores _))
  obtain ⟨_,_,_,_,completed⟩ := answered.worked (worked_completeLoop _ 0 0 _ answered.executedScheduled)
  obtain ⟨_,_,_,_,executed⟩ := completed.worked (worked_executeLoop _ 0 0 _)
  exact ⟨past,executed.schedule scheduled⟩

theorem Tidy.dispatch (tidy : Tidy cpu) : Tidy cpu.dispatch := by
  refine O3CPU.dispatch_rule (fun cpu instr rest tidy queue => ?_) tidy
  refine ⟨tidy.accounts.moves (moves_dispatchedFirst queue).1,recent_dispatched fun id member => ?_,?_⟩
  · have coming : instr.work ∈ cpu.ledger.coming :=
      List.mem_map_of_mem (List.mem_append_left _ (queue ▸ List.mem_cons_self))
    rcases List.mem_append.mp member with load | store
    · obtain ⟨entry,inside,rfl⟩ := List.mem_map.mp load
      exact (tidy.accounts.entered .load entry inside).2 _ coming
    · obtain ⟨entry,inside,rfl⟩ := List.mem_map.mp store
      exact (tidy.accounts.entered .store entry inside).2 _ coming
  · obtain ⟨past,done,waiting,kept⟩ := tidy.frontier
    exact ⟨past,done,_,kept.dispatched queue⟩

theorem Tidy.decode (tidy : Tidy cpu) : Tidy cpu.decode := by
  refine O3CPU.decode_rule (fun cpu instr rest tidy queue => ?_) tidy
  obtain ⟨past,done,waiting,kept⟩ := tidy.frontier
  exact ⟨tidy.accounts.moves (moves_decodedFirst queue).1,tidy.recent.same rfl rfl,past,done,waiting,kept.decoded queue⟩

theorem Tidy.fetch (tidy : Tidy cpu) : Tidy cpu.fetch := by
  refine O3CPU.fetch_rule (fun cpu tidy _ => ?_) (fun cpu read tidy _ => ?_) tidy
  · obtain ⟨past,done,waiting,kept⟩ := tidy.frontier
    exact ⟨tidy.accounts,tidy.recent.same rfl rfl,past,done,waiting,{ kept with }⟩
  · obtain ⟨past,done,waiting,kept⟩ := tidy.frontier
    exact ⟨tidy.accounts.moves (moves_fetched cpu read).1,tidy.recent.same rfl rfl,past,done,waiting,kept.fetched read⟩

/-- Work that moves nothing. -/
theorem Tidy.worked (tidy : Tidy cpu) (accounts : cpu'.ledger.Accounts) (kept : Kept cpu cpu') (worked : Worked cpu cpu') :
    Tidy cpu' := by
  obtain ⟨past,done,waiting,frontier⟩ := tidy.frontier
  obtain ⟨done',waiting',_,_,frontier'⟩ := frontier.worked worked
  exact ⟨accounts,tidy.recent.kept kept,past,done',waiting',frontier'⟩

theorem Tidy.step {action : O3CPU.Action} (tidy : Tidy cpu) (stepped : cpu.step action = some cpu') : Tidy cpu' := by
  cases action with
  | tick =>
    obtain ⟨mid,scheduled,rfl⟩ := tick_ok (O3CPU.tick_of_step stepped)
    exact (tidy.scheduled scheduled).dispatch.decode.fetch
  | fetch =>
    cases stepped
    exact tidy.fetch
  | handleLoadResponse instrID cycle =>
    cases stepped
    exact tidy.worked (accounts_handleLoadResponse instrID cycle tidy.accounts) (kept_handleLoadResponse ..)
      (worked_handleLoadResponse ..)
  | handleStoreResponse instrID cycle =>
    cases stepped
    exact tidy.worked (accounts_handleStoreResponse instrID cycle tidy.accounts) (kept_handleStoreResponse ..)
      (worked_handleStoreResponse ..)
  | setStandaloneMode standalone =>
    cases stepped
    exact tidy.worked tidy.accounts { Kept.refl cpu with } { Worked.refl cpu with }
  | setL1DCache cache =>
    cases stepped
    exact tidy.worked tidy.accounts { Kept.refl cpu with } { Worked.refl cpu with }

theorem tidy_new (traceReader : Nat → Option TraceInstr) (config : O3CPUConfig) : Tidy (.newO3CPU traceReader config) where
  accounts := accounts_new traceReader config
  recent _ member := absurd member List.not_mem_nil
  frontier := ⟨[],[],[],rfl,fun _ member => absurd member List.not_mem_nil,
    ⟨fun _ member => absurd member List.not_mem_nil,fun _ member => absurd member List.not_mem_nil⟩,.nil,
    fun _ member => absurd member List.not_mem_nil,allocation_new config.physicalRegisters⟩

/-! ### When it recovers -/

/-- The retirement of a mispredicted branch, as the code has it. -/
theorem retireInstr_mispredicted {branch : OOOModelInstr} {rob : ReorderBuffer}
    (older : ∀ other ∈ rob.buffer, branch.instrID < other.instrID) (is_branch : branch.isBranch = true)
    (mispredicted : branch.branchMispredicted = true) : ∃ regAlloc, { cpu with rob }.retireInstr branch =
      { cpu with rob, regAlloc, lsq := releaseLsq cpu.lsq branch, decodeQueue := [], fetchQueue := [] } := by
  refine ⟨(branch.destRegisters.filter PhysicalRegisterID.isValid).foldl (fun ra reg => ra.retireDestRegister reg) cpu.regAlloc,?_⟩
  unfold O3CPU.retireInstr
  simp only [is_branch,mispredicted,Bool.and_self,if_true]
  rw [O3CPU.handleBranchMisprediction,flush_absent fun other member => (Nat.ne_of_lt (older other member)).symm]
  rfl

theorem Tidy.recovered_iff (tidy : Tidy cpu) {branch : OOOModelInstr} {rob : ReorderBuffer}
    (taken : cpu.rob.retire = some (branch,rob)) (is_branch : branch.isBranch = true)
    (mispredicted : branch.branchMispredicted = true) :
    Recovered cpu branch ({ cpu with rob }.retireInstr branch) ↔ cpu.rob.buffer = [branch] := by
  have older := tidy.older taken
  obtain ⟨buffer,_,_⟩ := retire_some taken
  obtain ⟨regAlloc,eq⟩ := @retireInstr_mispredicted cpu branch rob older is_branch mispredicted
  constructor
  · -- what is behind the branch stays
    intro recovered
    have inside := recovered.inside
    rw [eq] at inside
    rcases behind : rob.buffer with _ | ⟨first,rest⟩
    · rw [buffer,behind]
    · have member : first ∈ rob.buffer := behind ▸ List.mem_cons_self
      exact absurd (inside first (List.mem_append_left _ member)) (Nat.not_le.mpr (older first member))
  · intro alone
    have empty : rob.buffer = [] := by
      rw [buffer] at alone
      exact (List.cons.inj alone).2
    obtain ⟨past,done,waiting,kept⟩ := tidy.frontier
    obtain ⟨rest,_,_,kept'⟩ := kept.retireInstr taken fun _ other member => (Nat.ne_of_lt (older other member)).symm
    have mapping : ({ cpu with rob }.retireInstr branch).regAlloc.frontendRAT = ({ cpu with rob }.retireInstr branch).regAlloc.backendRAT := by
      have split := kept'.rob
      rw [eq] at split
      have nothing : rest = [] := (List.append_eq_nil_iff.mp (split.symm.trans empty)).1
      subst nothing
      exact kept'.mapping
    refine ⟨?_,?_,?_,mapping⟩
    · rw [eq]
      dsimp only
      rw [empty]
      exact fun _ member => absurd member List.not_mem_nil
    · rw [eq]
      intro entry member
      obtain ⟨loads,stores⟩ := releaseLsq_subset cpu.lsq branch
      have entered : entry.instrID ∈ cpu.entryIDs := by
        rcases List.mem_append.mp member with load | store
        · exact List.mem_append_left _ (List.mem_map_of_mem (loads load))
        · exact List.mem_append_right _ (List.mem_map_of_mem (stores store))
      rcases tidy.recent _ entered with nothing | ⟨x,inside,younger⟩
      · rw [alone] at nothing
        cases nothing
      · rw [alone] at inside
        exact List.mem_singleton.mp inside ▸ younger
    · -- the others have not been renamed
      intro instr member younger scheduled
      rw [O3CPU.inside,alone] at member
      rcases List.mem_cons.mp member with rfl | queued
      · exact absurd younger (Nat.lt_irrefl _)
      · exact absurd scheduled (by simp [(kept.fresh.2 instr queued).scheduled])

/-- Whenever a mispredicted branch retires, in any state that runs reach, the core recovers
    exactly if nothing has been dispatched behind the branch. -/
theorem recovers_iff {traceReader : Nat → Option TraceInstr} {config : O3CPUConfig}
    (reached : Reachable O3CPU.step (.newO3CPU traceReader config) cpu) {before after : O3CPU} {branch : OOOModelInstr}
    (retires : (before,branch,after) ∈ cpu.nextRetireSteps) (is_branch : branch.isBranch = true)
    (mispredicted : branch.branchMispredicted = true) : Recovered before branch after ↔ before.rob.buffer = [branch] := by
  have tidy : Tidy cpu := reached.invariant (tidy_new traceReader config) fun _ tidy _ stepped => tidy.step stepped
  obtain ⟨tidy',rob,taken,rfl⟩ := retireSteps_rule (fun _ _ _ tidy taken => tidy.retireInstr taken) tidy.nextCycle retires
  exact tidy'.recovered_iff taken is_branch mispredicted

/-- A mispredicted branch, and behind it a load into a register. -/
def mispredictedBranch : Nat → Option TraceInstr
  | 0 => some { isBranch := true, branchMispredicted := true, destRegisters := [], srcRegisters := [],
                destMemory := [], srcMemory := [] }
  | 1 => some { isBranch := false, branchMispredicted := false, destRegisters := [1], srcRegisters := [],
                destMemory := [], srcMemory := [64] }
  | _ => none

/-- The core in the cycle before the branch retires. -/
def branchRun (config : O3CPUConfig) : Option O3CPU :=
  runActions O3CPU.step (fun _ _ => True) (List.replicate 6 .tick) (.newO3CPU mispredictedBranch config)

/-- With room for one instruction in the reorder buffer, the load is still in the decode queue. -/
theorem recovers_iff_single : ∃ cpu before branch after, branchRun { defaultO3CPUConfig with robSize := 1 } = some cpu ∧
    (before,branch,after) ∈ cpu.nextRetireSteps ∧ before.decodeQueue.map OOOModelInstr.instrID = [1] ∧
      Recovered before branch after := by
  have ends : (branchRun { defaultO3CPUConfig with robSize := 1 }).bind (fun cpu => cpu.nextRetireSteps.head?.map fun step =>
      (step.2.1.isBranch,step.2.1.branchMispredicted,step.1.decodeQueue.map OOOModelInstr.instrID,
        decide (step.1.rob.buffer = [step.2.1]))) = some (true,true,[1],true) := by decide +kernel
  obtain ⟨cpu,ran,taken⟩ := Option.bind_eq_some_iff.mp ends
  obtain ⟨⟨before,branch,after⟩,first,facts⟩ := Option.map_eq_some_iff.mp taken
  simp only [Prod.mk.injEq,decide_eq_true_eq] at facts
  obtain ⟨is_branch,mispredicted,queue,alone⟩ := facts
  have member := List.mem_of_head? first
  exact ⟨cpu,before,branch,after,ran,member,queue,
    (recovers_iff (reaches_runActions _ ran) member is_branch mispredicted).mpr alone⟩

/-- With the default configuration the load has been dispatched and renamed, and stays: in
    the reorder buffer, in the load queue, with its register. -/
theorem younger_left_behind : ∃ cpu before branch after, Reachable O3CPU.step (.newO3CPU mispredictedBranch defaultO3CPUConfig) cpu ∧
    (before,branch,after) ∈ cpu.nextRetireSteps ∧ branch.isBranch = true ∧ branch.branchMispredicted = true ∧
      after.rob.buffer.map (fun instr => (instr.instrID,instr.destRegisters)) = [(1,[0])] ∧
      after.lsq.loadQueue.map LSQEntry.instrID = [1] ∧ 0 ∉ after.regAlloc.freeRegisters ∧
      after.regAlloc.frontendRAT 1 ≠ after.regAlloc.backendRAT 1 ∧ ¬ Recovered before branch after := by
  have ends : (branchRun defaultO3CPUConfig).bind (fun cpu => cpu.nextRetireSteps.head?.map fun step =>
      (step.2.1.isBranch,step.2.1.branchMispredicted,
        decide (step.2.2.rob.buffer.map (fun instr => (instr.instrID,instr.destRegisters)) = [(1,[0])] ∧
          step.2.2.lsq.loadQueue.map LSQEntry.instrID = [1] ∧ 0 ∉ step.2.2.regAlloc.freeRegisters ∧
          step.2.2.regAlloc.frontendRAT 1 ≠ step.2.2.regAlloc.backendRAT 1))) = some (true,true,true) := by decide +kernel
  obtain ⟨cpu,ran,taken⟩ := Option.bind_eq_some_iff.mp ends
  obtain ⟨⟨before,branch,after⟩,first,facts⟩ := Option.map_eq_some_iff.mp taken
  simp only [Prod.mk.injEq,decide_eq_true_eq] at facts
  obtain ⟨is_branch,mispredicted,buffer,loads,used,apart⟩ := facts
  exact ⟨cpu,before,branch,after,reaches_runActions _ ran,List.mem_of_head? first,is_branch,mispredicted,buffer,loads,used,apart,
    fun recovered => apart (congrFun recovered.mapping 1)⟩

end
end FlowSim.Cpu
