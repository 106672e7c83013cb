import FlowSim.Cpu.Scheduling
import FlowSim.Cpu.Execution

/-!
The frontier of renaming. The reorder buffer is `done`, whose destinations are renamed,
followed by `waiting`, which is as fetched; `past` are the registers of the writes that
have been committed. Scheduling moves the frontier by one instruction, retiring the
start; nothing of this depends on what the trace says about branches.
-/
namespace FlowSim.Cpu
set_option linter.unusedSimpArgs false

/-- The instructions in the core, oldest first. -/
def O3CPU.inside (cpu : O3CPU) : List OOOModelInstr := cpu.rob.buffer ++ (cpu.decodeQueue ++ cpu.fetchQueue)

/-- An instruction as the trace has it, with its id. -/
def OOOModelInstr.tag (instr : OOOModelInstr) : TraceInstr × Nat := (instr.original,instr.instrID)

/-- The instruction has only been fetched and queued. -/
structure Fresh (instr : OOOModelInstr) : Prop where
  scheduled : instr.scheduled = false
  executed : instr.executed = false
  completed : instr.completed = false
  destRegisters : instr.destRegisters = instr.original.destRegisters
  srcRegisters : instr.srcRegisters = instr.original.srcRegisters

structure Frontier (cpu : O3CPU) (past : List Alloc) (done waiting : List OOOModelInstr) : Prop where
  rob : cpu.rob.buffer = done ++ waiting
  renamed : ∀ x ∈ done, x.scheduled = true ∧ List.Forall₂ Renamed x.original.destRegisters x.destRegisters
  fresh : (∀ x ∈ waiting, Fresh x) ∧ ∀ x ∈ cpu.decodeQueue ++ cpu.fetchQueue, Fresh x
  order : waiting.Pairwise (fun x y => x.readyTime ≤ y.readyTime)
  bound : ∀ x ∈ waiting, x.readyTime ≤ cpu.currentCycle + cpu.config.dispatchLatency
  allocation : Allocation cpu.regAlloc past (done.flatMap allocsOf)

section
variable {cpu cpu' : O3CPU} {past : List Alloc} {done waiting : List OOOModelInstr}

theorem Frontier.split (kept : Frontier cpu past done waiting) : O3CPU.Split cpu done waiting where
  rob := kept.rob
  scheduled x member := (kept.renamed x member).1
  unscheduled x member := (kept.fresh.1 x member).scheduled
  order := kept.order

theorem Frontier.executedScheduled (kept : Frontier cpu past done waiting) : ExecutedScheduled cpu := by
  intro x member executed
  rw [kept.rob] at member
  rcases List.mem_append.mp member with old | young
  · exact (kept.renamed x old).1
  · exact absurd executed (by simp [(kept.fresh.1 x young).executed])

/-- With nothing before the frontier, what is renamed is what is committed. -/
theorem Frontier.mapping (kept : Frontier cpu past [] waiting) : cpu.regAlloc.frontendRAT = cpu.regAlloc.backendRAT := by
  have renames := kept.allocation.renames
  funext a
  rw [renames.frontend,renames.backend,List.flatMap_nil,List.append_nil]

/-! ### Work on instructions -/

theorem allocation_completeAll {ra : RegisterAllocator} {pending : List Alloc} (kept : Allocation ra past pending) :
    ∀ regs : List PhysicalRegisterID,
      Allocation (regs.foldl (fun ra reg => ra.completeDestRegister reg) ra) past pending ∧
        Extends ra (regs.foldl (fun ra reg => ra.completeDestRegister reg) ra) [] := by
  intro regs
  induction regs generalizing ra with
  | nil => exact ⟨kept,.refl ra⟩
  | cons reg regs ih =>
    obtain ⟨kept',extended⟩ := allocation_complete kept reg
    obtain ⟨kept'',extended'⟩ := ih kept'
    exact ⟨kept'',extended.trans extended'⟩

theorem forall₂_worked_append {xs ys zs : List OOOModelInstr} (worked : List.Forall₂ WorkedOn (xs ++ ys) zs) :
    ∃ xs' ys', zs = xs' ++ ys' ∧ List.Forall₂ WorkedOn xs xs' ∧ List.Forall₂ WorkedOn ys ys' := by
  induction xs generalizing zs with
  | nil => exact ⟨[],zs,rfl,.nil,worked⟩
  | cons x xs ih =>
    cases worked with
    | cons here rest =>
      obtain ⟨xs',ys',rfl,first,second⟩ := ih rest
      exact ⟨_ :: xs',ys',rfl,.cons here first,second⟩

theorem forall₂_worked_map {α : Type} {f : OOOModelInstr → α} (same : ∀ x y, WorkedOn x y → f y = f x)
    {xs ys : List OOOModelInstr} (worked : List.Forall₂ WorkedOn xs ys) : ys.map f = xs.map f := by
  induction worked with
  | nil => rfl
  | cons here _ ih => rw [List.map_cons,List.map_cons,same _ _ here,ih]

theorem WorkedOn.tag {x y : OOOModelInstr} (worked : WorkedOn x y) : y.tag = x.tag := by
  rw [OOOModelInstr.tag,OOOModelInstr.tag,worked.original,worked.instrID]

theorem WorkedOn.allocsOf {x y : OOOModelInstr} (worked : WorkedOn x y) : allocsOf y = allocsOf x := by
  rw [Cpu.allocsOf,Cpu.allocsOf,worked.original,worked.instrID,worked.destRegisters]

theorem WorkedOn.fresh {x y : OOOModelInstr} (worked : WorkedOn x y) (fresh : Fresh x) :
    Fresh y ∧ y.readyTime = x.readyTime := by
  obtain ⟨ready,executed,completed⟩ := worked.untouched fresh.scheduled
  refine ⟨?_,ready⟩
  constructor
  · exact worked.scheduled.trans fresh.scheduled
  · exact executed.trans fresh.executed
  · exact completed.trans fresh.completed
  · rw [worked.destRegisters,worked.original,fresh.destRegisters]
  · rw [worked.srcRegisters,worked.original,fresh.srcRegisters]

theorem forall₂_mem {xs ys : List OOOModelInstr} (worked : List.Forall₂ WorkedOn xs ys) {y : OOOModelInstr}
    (member : y ∈ ys) : ∃ x ∈ xs, WorkedOn x y := by
  induction worked with
  | nil => cases member
  | @cons x _ xs _ here _ ih =>
    rcases List.mem_cons.mp member with rfl | later
    · exact ⟨x,List.mem_cons_self,here⟩
    · obtain ⟨x',inside,worked⟩ := ih later
      exact ⟨x',List.mem_cons_of_mem _ inside,worked⟩

theorem forall₂_worked_ready {xs ys : List OOOModelInstr} (worked : List.Forall₂ WorkedOn xs ys)
    (fresh : ∀ x ∈ xs, Fresh x) : ys.map OOOModelInstr.readyTime = xs.map OOOModelInstr.readyTime := by
  induction worked with
  | nil => rfl
  | cons here _ ih =>
    rw [List.forall_mem_cons] at fresh
    rw [List.map_cons,List.map_cons,(here.fresh fresh.1).2,ih fresh.2]

/-- Work on instructions leaves the frontier where it is. -/
theorem Frontier.worked (kept : Frontier cpu past done waiting) (worked : Worked cpu cpu') :
    ∃ done' waiting', List.Forall₂ WorkedOn done done' ∧ Extends cpu.regAlloc cpu'.regAlloc [] ∧
      Frontier cpu' past done' waiting' := by
  have pairs := worked.rob
  rw [kept.rob] at pairs
  obtain ⟨done',waiting',rob,first,second⟩ := forall₂_worked_append pairs
  obtain ⟨decode,fetch⟩ := worked.queues
  obtain ⟨config,cycle⟩ := worked.time
  obtain ⟨regs,completed⟩ := worked.regAlloc
  obtain ⟨allocation,extended⟩ := allocation_completeAll kept.allocation regs
  rw [← completed] at allocation extended
  have same : done'.flatMap allocsOf = done.flatMap allocsOf := by
    rw [List.flatMap_def,forall₂_worked_map (fun _ _ => WorkedOn.allocsOf) first,← List.flatMap_def]
  refine ⟨done',waiting',first,extended,?_⟩
  constructor
  case rob => exact rob
  case renamed =>
    intro y member
    obtain ⟨x,inside,here⟩ := forall₂_mem first member
    obtain ⟨scheduled,dests⟩ := kept.renamed x inside
    refine ⟨here.scheduled.trans scheduled,?_⟩
    rw [here.original,here.destRegisters]
    exact dests
  case fresh =>
    refine ⟨fun y member => ?_,by rw [decode,fetch]; exact kept.fresh.2⟩
    obtain ⟨x,inside,here⟩ := forall₂_mem second member
    exact (here.fresh (kept.fresh.1 x inside)).1
  case order =>
    have before := kept.order
    rw [← List.pairwise_map (f := OOOModelInstr.readyTime) (R := (· ≤ ·))] at before ⊢
    rw [forall₂_worked_ready second kept.fresh.1]
    exact before
  case bound =>
    intro y member
    obtain ⟨x,inside,here⟩ := forall₂_mem second member
    rw [config,cycle,(here.fresh (kept.fresh.1 x inside)).2]
    exact kept.bound x inside
  case allocation =>
    rw [same]
    exact allocation

/-! ### Retire -/

theorem allocation_retireAll {ra : RegisterAllocator} {pending allocs : List Alloc}
    (kept : Allocation ra past (allocs ++ pending)) :
    Allocation ((allocs.map Alloc.physReg).foldl (fun ra reg => ra.retireDestRegister reg) ra) (past ++ allocs) pending ∧
      Extends ra ((allocs.map Alloc.physReg).foldl (fun ra reg => ra.retireDestRegister reg) ra) [] := by
  induction allocs generalizing ra past with
  | nil => exact ⟨by simpa using kept,.refl ra⟩
  | cons x allocs ih =>
    obtain ⟨kept',extended⟩ := allocation_retireDest kept
    obtain ⟨kept'',extended'⟩ := ih kept'
    exact ⟨by simpa using kept'',extended.trans extended'⟩

/-- The head of the reorder buffer retires only when it is scheduled. -/
theorem Frontier.retire_head (kept : Frontier cpu past done waiting) {instr : OOOModelInstr} {rob : ReorderBuffer}
    (taken : cpu.rob.retire = some (instr,rob)) :
    ∃ rest, done = instr :: rest ∧ rob = { cpu.rob with buffer := rest ++ waiting } := by
  unfold ReorderBuffer.retire at taken
  rw [kept.rob] at taken
  cases done with
  | nil =>
    cases waiting with
    | nil => cases taken
    | cons first rest =>
      simp [(kept.fresh.1 first List.mem_cons_self).completed] at taken
  | cons first rest =>
    simp only [List.cons_append] at taken
    split at taken
    · cases taken
      exact ⟨rest,rfl,rfl⟩
    · cases taken

/-- A flush for an instruction that has left the reorder buffer drops nothing of it. -/
theorem flush_absent {rob : ReorderBuffer} {instrID : Nat} (absent : ∀ instr ∈ rob.buffer, instr.instrID ≠ instrID) :
    rob.flush instrID = rob := by
  have none_found : rob.findByInstrID instrID = none := by
    rw [ReorderBuffer.findByInstrID,List.findIdx?_eq_none_iff]
    intro instr member
    simpa using absent instr member
  rw [ReorderBuffer.flush,none_found]

/-- A retirement commits the writes of the instruction, whether it is a mispredicted
    branch or not: the reorder buffer only loses the instruction. -/
theorem Frontier.retireInstr (kept : Frontier cpu past done waiting) {instr : OOOModelInstr} {rob : ReorderBuffer}
    (taken : cpu.rob.retire = some (instr,rob))
    (apart : instr.branchMispredicted = true → ∀ other ∈ rob.buffer, other.instrID ≠ instr.instrID) :
    ∃ rest, done = instr :: rest ∧ Extends cpu.regAlloc ({ cpu with rob }.retireInstr instr).regAlloc [] ∧
      Frontier ({ cpu with rob }.retireInstr instr) (past ++ allocsOf instr) rest waiting := by
  obtain ⟨rest,rfl,rfl⟩ := kept.retire_head taken
  have allocation := kept.allocation
  rw [List.flatMap_cons] at allocation
  obtain ⟨allocation,extended⟩ := allocation_retireAll allocation
  rw [allocsOf,(allocsOfRegs_eq instr.instrID (kept.renamed instr List.mem_cons_self).2).1] at allocation extended
  have older : ∀ x ∈ rest, x.scheduled = true ∧ List.Forall₂ Renamed x.original.destRegisters x.destRegisters :=
    fun x member => kept.renamed x (List.mem_cons_of_mem _ member)
  refine ⟨rest,rfl,?_⟩
  unfold O3CPU.retireInstr
  dsimp only
  split
  · next flagged =>
    rw [O3CPU.handleBranchMisprediction,flush_absent (apart (Bool.and_eq_true_iff.mp flagged).2)]
    exact ⟨extended,rfl,older,⟨kept.fresh.1,fun _ member => absurd member List.not_mem_nil⟩,kept.order,kept.bound,allocation⟩
  · exact ⟨extended,rfl,older,kept.fresh,kept.order,kept.bound,allocation⟩

/-! ### Schedule -/

/-- The sources are renamed for any reader; the ids of the writers do not matter. -/
theorem allocation_sources {ra ra' : RegisterAllocator} {pending : List Alloc} {regs renamed : List PhysicalRegisterID}
    (kept : Allocation ra past pending) (done : O3CPU.renameSources regs ra = .ok (renamed,ra')) :
    Allocation ra' past pending ∧ Extends ra ra' [] := by
  -- a reader younger than all writes so far
  obtain ⟨youngest,above⟩ : ∃ n, ∀ x ∈ past ++ pending, x.instrID < n := by
    refine ⟨((past ++ pending).map Alloc.instrID).sum + 1,fun x member => ?_⟩
    exact Nat.lt_succ_of_le (List.single_le_sum (fun _ _ => Nat.zero_le _) _ (List.mem_map_of_mem member))
  obtain ⟨allocation,extended,_⟩ := allocation_renameSources youngest kept above done
  exact ⟨allocation,extended⟩

/-- The core after the oldest waiting instruction is renamed. -/
theorem Frontier.renameFirst {instr : OOOModelInstr} {rest : List OOOModelInstr} {between last : RegisterAllocator}
    {srcRegisters destRegisters : List PhysicalRegisterID} (kept : Frontier cpu past done (instr :: rest))
    (first : O3CPU.renameSources instr.srcRegisters cpu.regAlloc = .ok (srcRegisters,between))
    (second : O3CPU.renameDests instr.instrID instr.destRegisters between = .ok (destRegisters,last)) :
    let instr' := { instr with srcRegisters, destRegisters, scheduled := true }
    Frontier { cpu with regAlloc := last, rob := cpu.rob.set done.length instr' } past (done ++ [instr']) rest := by
  intro instr'
  have fresh := kept.fresh.1 instr List.mem_cons_self
  obtain ⟨allocation,_⟩ := allocation_sources kept.allocation first
  obtain ⟨allocation',_,dests⟩ := allocation_renameDests allocation second
  constructor
  case rob =>
    show cpu.rob.buffer.set done.length instr' = _
    rw [kept.rob,List.set_append_right _ _ (Nat.le_refl _)]
    simp
  case renamed =>
    intro x member
    rcases List.mem_append.mp member with old | new
    · exact kept.renamed x old
    · obtain rfl := List.mem_singleton.mp new
      refine ⟨rfl,?_⟩
      show List.Forall₂ Renamed instr.original.destRegisters destRegisters
      rw [← fresh.destRegisters]
      exact dests
  case fresh => exact ⟨fun x member => kept.fresh.1 x (List.mem_cons_of_mem _ member),kept.fresh.2⟩
  case order => exact (List.pairwise_cons.mp kept.order).2
  case bound => exact fun x member => kept.bound x (List.mem_cons_of_mem _ member)
  case allocation =>
    rw [List.flatMap_append,List.flatMap_singleton]
    show Allocation last past (_ ++ allocsOfRegs instr.instrID instr.original.destRegisters destRegisters)
    rw [← fresh.destRegisters]
    exact allocation'

/-- Scheduling the oldest waiting instruction moves the frontier, or panics. -/
theorem Frontier.doScheduling {instr : OOOModelInstr} {rest : List OOOModelInstr}
    (kept : Frontier cpu past done (instr :: rest)) :
    (∃ cpu' instr', cpu.doScheduling done.length instr = .ok cpu' ∧ Frontier cpu' past (done ++ [instr']) rest) ∨
      ∃ panic, cpu.doScheduling done.length instr = .error panic ∧ True := by
  rcases scheduled : cpu.doScheduling done.length instr with panic | next
  · exact .inr ⟨panic,rfl,trivial⟩
  · obtain ⟨_,_,_,_,first,second,rfl⟩ := O3CPU.doScheduling_ok scheduled
    exact .inl ⟨_,_,rfl,kept.renameFirst first second⟩

theorem Frontier.schedule (kept : Frontier cpu past done waiting) (scheduled : cpu.schedule = .ok cpu') :
    ∃ done' waiting', Frontier cpu' past done' waiting' := by
  rcases O3CPU.scheduleLoop_inOrder (P := fun cpu done waiting => Frontier cpu past done waiting) (E := fun _ => True)
      Frontier.split (fun kept _ => kept.doScheduling) cpu.rob.size 0 0 kept (fun later => absurd later (Nat.not_lt_zero _)) with
    ⟨next,done',waiting',ran,kept'⟩ | ⟨panic,failed,_⟩
  · have same : cpu.schedule = .ok next := ran
    rw [scheduled] at same
    cases same
    exact ⟨done',waiting',kept'⟩
  · have same : cpu.schedule = .error panic := failed
    rw [scheduled] at same
    cases same

/-! ### Dispatch, decode and fetch -/

/-- What is dispatched waits behind the others. -/
theorem Frontier.dispatched {instr : OOOModelInstr} {rest : List OOOModelInstr} (kept : Frontier cpu past done waiting)
    (queue : cpu.decodeQueue = instr :: rest) : Frontier (cpu.dispatchedFirst instr rest) past done
      (waiting ++ [{ instr with readyTime := cpu.currentCycle + cpu.config.dispatchLatency }]) := by
  have fresh := kept.fresh.2
  rw [queue] at fresh
  constructor
  case rob =>
    show cpu.rob.buffer ++ _ = _
    rw [kept.rob,List.append_assoc]
  case renamed => exact kept.renamed
  case fresh =>
    refine ⟨fun x member => ?_,fun x member => fresh x (List.mem_cons_of_mem _ member)⟩
    rcases List.mem_append.mp member with old | new
    · exact kept.fresh.1 x old
    · obtain rfl := List.mem_singleton.mp new
      exact { fresh instr List.mem_cons_self with }
  case order =>
    refine List.pairwise_append.mpr ⟨kept.order,List.pairwise_singleton ..,fun x member y new => ?_⟩
    obtain rfl := List.mem_singleton.mp new
    exact kept.bound x member
  case bound =>
    intro x member
    rcases List.mem_append.mp member with old | new
    · exact kept.bound x old
    · obtain rfl := List.mem_singleton.mp new
      exact Nat.le_refl _
  case allocation => exact kept.allocation

theorem Frontier.decoded {instr : OOOModelInstr} {rest : List OOOModelInstr} (kept : Frontier cpu past done waiting)
    (queue : cpu.fetchQueue = instr :: rest) : Frontier (cpu.decodedFirst instr rest) past done waiting := by
  have fresh := kept.fresh.2
  rw [queue] at fresh
  refine { kept with fresh := ⟨kept.fresh.1,fun x member => ?_⟩ }
  have here : x ∈ cpu.decodeQueue ++ [_] ++ rest := member
  simp only [List.mem_append,List.mem_cons,List.not_mem_nil,or_false] at here fresh
  rcases here with (queued | rfl) | young
  · exact fresh x (.inl queued)
  · exact { fresh instr (.inr (.inl rfl)) with }
  · exact fresh x (.inr (.inr young))

theorem Frontier.fetched (kept : Frontier cpu past done waiting) (read : TraceInstr) :
    Frontier (cpu.fetched read) past done waiting := by
  refine { kept with fresh := ⟨kept.fresh.1,fun x member => ?_⟩ }
  have here : x ∈ cpu.decodeQueue ++ (cpu.fetchQueue ++ [_]) := member
  rw [← List.append_assoc] at here
  rcases List.mem_append.mp here with old | new
  · exact kept.fresh.2 x old
  · obtain rfl := List.mem_singleton.mp new
    exact ⟨rfl,rfl,rfl,rfl,rfl⟩

end
end FlowSim.Cpu
