import FlowSim.Cpu.Frontier

/-!
What the core keeps from cycle to cycle, when no branch of the trace is flagged as
mispredicted. The instructions from the head of the reorder buffer to the fetch queue are
the rest of those delivered, in order, and the writes of the instructions before the
frontier of renaming have been given registers in the order of the trace.
-/
namespace FlowSim.Cpu
set_option linter.unusedSimpArgs false

/-- A scheduled instruction, its registers renamed. -/
structure Scheduled (events : List RegisterEvent) (instr : OOOModelInstr) : Prop where
  scheduled : instr.scheduled = true
  dests : List.Forall₂ Renamed instr.original.destRegisters instr.destRegisters
  sources : List.Forall₂ (Source events instr.instrID) instr.original.srcRegisters instr.srcRegisters

structure Pipeline (numPhysical : Nat) (cpu : O3CPU) (retired : Nat) (past : List Alloc) (done waiting : List OOOModelInstr) : Prop where
  unflagged : ∀ n read, cpu.traceReader n = some read → read.branchMispredicted = false
  rob : cpu.rob.buffer = done ++ waiting
  tags : cpu.inside.map OOOModelInstr.tag = cpu.delivered.zipIdx.drop retired
  counter : cpu.instrCounter = cpu.delivered.length ∧ retired ≤ cpu.delivered.length
  predicted : ∀ x ∈ cpu.inside, x.branchMispredicted = false
  scheduled : ∀ x ∈ done, Scheduled cpu.regAlloc.events x
  fresh : (∀ x ∈ waiting, Fresh x) ∧ ∀ x ∈ cpu.decodeQueue ++ cpu.fetchQueue, Fresh x
  order : waiting.Pairwise (fun x y => x.readyTime ≤ y.readyTime)
  bound : ∀ x ∈ waiting, x.readyTime ≤ cpu.currentCycle + cpu.config.dispatchLatency
  allocation : Allocation cpu.regAlloc past (done.flatMap allocsOf)
  distinct : (past ++ done.flatMap allocsOf).Nodup
  number : cpu.regAlloc.numPhysical = numPhysical
  keys : past.map Alloc.key = writes (cpu.delivered.take retired)

section
variable {cpu cpu' : O3CPU} {numPhysical retired : Nat} {past : List Alloc} {done waiting : List OOOModelInstr}

/-! ### Reading the invariant -/

theorem Pipeline.tag_getElem (kept : Pipeline numPhysical cpu retired past done waiting) {n : Nat} {x : OOOModelInstr}
    (found : cpu.inside[n]? = some x) :
    x.instrID = retired + n ∧ cpu.delivered[retired + n]? = some x.original := by
  have tagged := congrArg (·[n]?) kept.tags
  simp only [List.getElem?_map,found,Option.map_some,List.getElem?_drop,List.getElem?_zipIdx] at tagged
  rcases delivered : cpu.delivered[retired + n]? with _ | read
  · simp [delivered] at tagged
  · simp only [delivered,Option.map_some,Option.some.injEq,OOOModelInstr.tag,Prod.mk.injEq,Nat.zero_add] at tagged
    exact ⟨tagged.2,by rw [tagged.1]⟩

theorem allocsOf_instrID {x : OOOModelInstr} {y : Alloc} (member : y ∈ allocsOf x) : y.instrID = x.instrID := by
  obtain ⟨pair,_,rfl⟩ := List.mem_map.mp member
  rfl

theorem writes_instrID {delivered : List TraceInstr} {key : Nat × UInt8} (member : key ∈ writes delivered) :
    key.1 < delivered.length := by
  obtain ⟨⟨read,instrID⟩,inside,written⟩ := List.mem_flatMap.mp member
  obtain ⟨_,_,rfl⟩ := List.mem_map.mp written
  have := List.mem_zipIdx inside
  show instrID < _
  omega

/-- The registers are allocated for the writes in the order of the trace. -/
theorem Pipeline.past_instrID (kept : Pipeline numPhysical cpu retired past done waiting) {y : Alloc} (member : y ∈ past) :
    y.instrID < retired := by
  have inside : y.key ∈ writes (cpu.delivered.take retired) := kept.keys ▸ List.mem_map_of_mem member
  have below := writes_instrID inside
  rw [List.length_take] at below
  exact Nat.lt_of_lt_of_le below (Nat.min_le_left ..)

theorem Pipeline.done_instrID (kept : Pipeline numPhysical cpu retired past done waiting) {x : OOOModelInstr} (member : x ∈ done) :
    x.instrID < retired + done.length := by
  obtain ⟨n,small,rfl⟩ := List.getElem_of_mem member
  have found : cpu.inside[n]? = some (done.get ⟨n,small⟩) := by
    rw [O3CPU.inside,kept.rob,List.append_assoc,List.getElem?_append_left small]
    exact List.getElem?_eq_getElem small
  have := (kept.tag_getElem found).1
  simp only [List.get_eq_getElem] at this
  omega

theorem Pipeline.older (kept : Pipeline numPhysical cpu retired past done waiting) :
    ∀ y ∈ past ++ done.flatMap allocsOf, y.instrID < retired + done.length := by
  intro y member
  rcases List.mem_append.mp member with old | used
  · exact Nat.lt_of_lt_of_le (kept.past_instrID old) (Nat.le_add_right ..)
  · obtain ⟨x,here,allocated⟩ := List.mem_flatMap.mp used
    rw [allocsOf_instrID allocated]
    exact kept.done_instrID here

theorem Scheduled.extends {ra ra' : RegisterAllocator} {x : OOOModelInstr} {allocs : List Alloc}
    (scheduled : Scheduled ra.events x) (extended : Extends ra ra' allocs) (later : ∀ y ∈ allocs, x.instrID ≤ y.instrID) :
    Scheduled ra'.events x :=
  { scheduled with sources := scheduled.sources.imp fun _ _ source => source.extends extended later }

/-! ### Work on instructions -/

theorem Pipeline.frontier (kept : Pipeline numPhysical cpu retired past done waiting) : Frontier cpu past done waiting where
  rob := kept.rob
  renamed x member := ⟨(kept.scheduled x member).scheduled,(kept.scheduled x member).dests⟩
  fresh := kept.fresh
  order := kept.order
  bound := kept.bound
  allocation := kept.allocation

theorem Pipeline.worked (kept : Pipeline numPhysical cpu retired past done waiting) (worked : Worked cpu cpu') :
    ∃ done' waiting', Pipeline numPhysical cpu' retired past done' waiting' := by
  obtain ⟨done',waiting',first,extended,frontier⟩ := kept.frontier.worked worked
  obtain ⟨decode,fetch⟩ := worked.queues
  obtain ⟨reader,delivered,counter⟩ := worked.trace
  have same : done'.flatMap allocsOf = done.flatMap allocsOf := by
    rw [List.flatMap_def,forall₂_worked_map (fun _ _ => WorkedOn.allocsOf) first,← List.flatMap_def]
  refine ⟨done',waiting',?_⟩
  constructor
  case unflagged => rw [reader]; exact kept.unflagged
  case rob => exact frontier.rob
  case tags =>
    rw [delivered,← kept.tags,O3CPU.inside,O3CPU.inside,decode,fetch,List.map_append,
      forall₂_worked_map (fun _ _ => WorkedOn.tag) worked.rob,← List.map_append]
  case counter => rw [counter,delivered]; exact kept.counter
  case predicted =>
    intro y member
    have before := kept.predicted
    rw [O3CPU.inside,decode,fetch] at member
    rcases List.mem_append.mp member with robbed | queued
    · obtain ⟨x,inside,here⟩ := forall₂_mem worked.rob robbed
      exact here.branchMispredicted.trans (before x (List.mem_append_left _ inside))
    · exact before y (List.mem_append_right _ queued)
  case scheduled =>
    intro y member
    obtain ⟨x,inside,here⟩ := forall₂_mem first member
    have scheduled := (kept.scheduled x inside).extends extended (by simp)
    refine ⟨here.scheduled.trans scheduled.scheduled,?_,?_⟩
    · rw [here.original,here.destRegisters]; exact scheduled.dests
    · rw [here.original,here.srcRegisters,here.instrID]; exact scheduled.sources
  case fresh => exact frontier.fresh
  case order => exact frontier.order
  case bound => exact frontier.bound
  case allocation => exact frontier.allocation
  case distinct => rw [same]; exact kept.distinct
  case number => exact extended.numPhysical.trans kept.number
  case keys => rw [delivered]; exact kept.keys

/-! ### Retire -/

theorem Pipeline.retireInstr (kept : Pipeline numPhysical cpu retired past done waiting) {instr : OOOModelInstr} {rob : ReorderBuffer}
    (taken : cpu.rob.retire = some (instr,rob)) :
    ∃ rest, Pipeline numPhysical ({ cpu with rob }.retireInstr instr) (retired + 1) (past ++ allocsOf instr) rest waiting := by
  obtain ⟨rest,rfl,rfl⟩ := kept.frontier.retire_head taken
  have inside : cpu.inside = instr :: (rest ++ waiting ++ (cpu.decodeQueue ++ cpu.fetchQueue)) := by
    rw [O3CPU.inside,kept.rob]
    rfl
  have predicted := kept.predicted instr (by rw [inside]; exact List.mem_cons_self)
  obtain ⟨_,same,extended,frontier⟩ := kept.frontier.retireInstr taken (by simp [predicted])
  obtain rfl := (List.cons.inj same).2
  obtain ⟨id,delivered⟩ := kept.tag_getElem (n := 0) (x := instr) (by rw [inside]; rfl)
  rw [Nat.add_zero] at id delivered
  obtain ⟨within,original⟩ := List.getElem?_eq_some_iff.mp delivered
  obtain ⟨_,keys⟩ := allocsOfRegs_eq instr.instrID (kept.scheduled instr List.mem_cons_self).dests
  -- nothing is flushed
  obtain ⟨regAlloc,lsq,eq⟩ : ∃ regAlloc lsq, { cpu with rob := { cpu.rob with buffer := rest ++ waiting } }.retireInstr instr =
      { cpu with rob := { cpu.rob with buffer := rest ++ waiting }, regAlloc, lsq } := by
    unfold O3CPU.retireInstr
    simp only [predicted,Bool.and_false,Bool.false_eq_true,if_false]
    exact ⟨_,_,rfl⟩
  rw [eq] at extended frontier ⊢
  refine ⟨rest,?_⟩
  constructor
  case unflagged => exact kept.unflagged
  case rob => exact frontier.rob
  case tags =>
    have tags := kept.tags
    rw [inside,List.map_cons] at tags
    have dropped := congrArg List.tail tags
    rwa [List.tail_cons,List.tail_drop] at dropped
  case counter => exact ⟨kept.counter.1,within⟩
  case predicted =>
    intro x member
    exact kept.predicted x (by rw [inside]; exact List.mem_cons_of_mem _ member)
  case scheduled =>
    exact fun x member => (kept.scheduled x (List.mem_cons_of_mem _ member)).extends extended (by simp)
  case fresh => exact frontier.fresh
  case order => exact frontier.order
  case bound => exact frontier.bound
  case allocation => exact frontier.allocation
  case distinct =>
    rw [List.append_assoc,← List.flatMap_cons]
    exact kept.distinct
  case number => exact extended.numPhysical.trans kept.number
  case keys =>
    rw [List.map_append,kept.keys,List.take_succ_eq_append_getElem within,writes_append_singleton,List.length_take,
      Nat.min_eq_left (Nat.le_of_lt within),original]
    exact congrArg _ (keys.trans (by rw [id]; rfl))

/-! ### Schedule -/

theorem Pipeline.first_waiting {instr : OOOModelInstr} {rest : List OOOModelInstr}
    (kept : Pipeline numPhysical cpu retired past done (instr :: rest)) : instr.instrID = retired + done.length := by
  refine (kept.tag_getElem ?_).1
  rw [O3CPU.inside,kept.rob,List.append_assoc,List.getElem?_append_right (Nat.le_refl _)]
  simp

/-- The core after the oldest waiting instruction is renamed. -/
theorem Pipeline.renameFirst {instr : OOOModelInstr} {rest : List OOOModelInstr} {between last : RegisterAllocator}
    {srcRegisters destRegisters : List PhysicalRegisterID} (kept : Pipeline numPhysical cpu retired past done (instr :: rest))
    (first : O3CPU.renameSources instr.srcRegisters cpu.regAlloc = .ok (srcRegisters,between))
    (second : O3CPU.renameDests instr.instrID instr.destRegisters between = .ok (destRegisters,last)) :
    let instr' := { instr with srcRegisters, destRegisters, scheduled := true }
    Pipeline numPhysical { cpu with regAlloc := last, rob := cpu.rob.set done.length instr' } retired past (done ++ [instr']) rest := by
  intro instr'
  have frontier := kept.frontier.renameFirst first second
  have id := kept.first_waiting
  have fresh := kept.fresh.1 instr List.mem_cons_self
  obtain ⟨allocation,extended,sources⟩ := allocation_renameSources instr.instrID kept.allocation
    (by rw [id]; exact kept.older) first
  obtain ⟨allocation',extended',_⟩ := allocation_renameDests allocation second
  have total := extended.trans extended'
  rw [List.nil_append] at total
  have later : ∀ y ∈ allocsOfRegs instr.instrID instr.destRegisters destRegisters, y.instrID = instr.instrID := by
    intro y member
    obtain ⟨pair,_,rfl⟩ := List.mem_map.mp member
    rfl
  constructor
  case unflagged => exact kept.unflagged
  case rob => exact frontier.rob
  case tags =>
    have tags := kept.tags
    rw [O3CPU.inside,kept.rob] at tags
    rw [O3CPU.inside,frontier.rob,← tags]
    simp [OOOModelInstr.tag,instr']
  case counter => exact kept.counter
  case predicted =>
    intro x member
    have predicted := kept.predicted
    rw [O3CPU.inside,frontier.rob] at member
    rw [O3CPU.inside,kept.rob] at predicted
    simp only [List.mem_append,List.mem_cons,List.not_mem_nil,or_false] at member predicted
    rcases member with ((old | rfl) | young) | queued
    · exact predicted x (.inl (.inl old))
    · exact predicted instr (.inl (.inr (.inl rfl)))
    · exact predicted x (.inl (.inr (.inr young)))
    · exact predicted x (.inr queued)
  case scheduled =>
    intro x member
    obtain ⟨scheduled,renamed⟩ := frontier.renamed x member
    rcases List.mem_append.mp member with old | new
    · refine (kept.scheduled x old).extends total fun y allocated => ?_
      rw [later y allocated,id]
      exact Nat.le_of_lt (kept.done_instrID old)
    · obtain rfl := List.mem_singleton.mp new
      refine ⟨scheduled,renamed,?_⟩
      show List.Forall₂ (Source _ instr.instrID) instr.original.srcRegisters srcRegisters
      rw [← fresh.srcRegisters]
      exact sources.imp fun _ _ source => source.extends extended' fun y allocated => Nat.le_of_eq (later y allocated).symm
  case fresh => exact frontier.fresh
  case order => exact frontier.order
  case bound => exact frontier.bound
  case allocation => exact frontier.allocation
  case distinct =>
    rw [List.flatMap_append,List.flatMap_singleton,← List.append_assoc]
    show (_ ++ allocsOfRegs instr.instrID instr.original.destRegisters destRegisters).Nodup
    rw [← fresh.destRegisters]
    refine List.nodup_append.mpr ⟨kept.distinct,?_,fun x old y new same => ?_⟩
    · have registers := allocation'.renames.nodup.of_append_right
      rw [List.map_append] at registers
      exact registers.of_append_right.of_map
    · have before := kept.older x old
      rw [same,later y new,id] at before
      exact Nat.lt_irrefl _ before
  case number => exact total.numPhysical.trans kept.number
  case keys => exact kept.keys

/-- Scheduling the oldest waiting instruction renames its registers, or panics
    because an id is no index. -/
theorem Pipeline.doScheduling {instr : OOOModelInstr} {rest : List OOOModelInstr}
    (kept : Pipeline numPhysical cpu retired past done (instr :: rest))
    (available : cpu.registersNeeded instr ≤ cpu.regAlloc.availableCount) :
    (∃ cpu' instr', cpu.doScheduling done.length instr = .ok cpu' ∧
      Pipeline numPhysical cpu' retired past (done ++ [instr']) rest) ∨
      ∃ panic, cpu.doScheduling done.length instr = .error panic ∧ IndexPanic numPhysical panic := by
  unfold O3CPU.doScheduling
  rcases renameSources_outcome instr.srcRegisters kept.allocation available with
    ⟨srcRegisters,between,first,enough⟩ | ⟨panic,failed,index⟩
  · obtain ⟨allocation,extended,_⟩ := allocation_renameSources instr.instrID kept.allocation
      (by rw [kept.first_waiting]; exact kept.older) first
    rcases renameDests_outcome instr.instrID allocation enough with
      ⟨destRegisters,last,second⟩ | ⟨panic,failed,index⟩
    · refine .inl ⟨_,_,?_,kept.renameFirst first second⟩
      simp only [first,second,bind,Except.bind]
    · refine .inr ⟨panic,by simp only [first,failed,bind,Except.bind],?_⟩
      rw [← kept.number,← extended.numPhysical]
      exact index
  · exact .inr ⟨panic,by simp only [failed,bind,Except.bind],kept.number ▸ index⟩

/-! ### Dispatch, decode and fetch -/

theorem Pipeline.dispatched {instr : OOOModelInstr} {rest : List OOOModelInstr}
    (kept : Pipeline numPhysical cpu retired past done waiting) (queue : cpu.decodeQueue = instr :: rest) :
    ∃ waiting', Pipeline numPhysical (cpu.dispatchedFirst instr rest) retired past done waiting' := by
  have frontier := kept.frontier.dispatched queue
  have tags := kept.tags
  have predicted := kept.predicted
  rw [O3CPU.inside,queue] at tags predicted
  refine ⟨_,{ kept with
    rob := frontier.rob, tags := ?_, predicted := ?_, fresh := frontier.fresh, order := frontier.order, bound := frontier.bound }⟩
  · show (cpu.rob.buffer ++ [_] ++ (rest ++ cpu.fetchQueue)).map _ = cpu.delivered.zipIdx.drop retired
    rw [← tags]
    simp [OOOModelInstr.tag]
  · intro x member
    have here : x ∈ cpu.rob.buffer ++ [_] ++ (rest ++ cpu.fetchQueue) := member
    simp only [List.mem_append,List.mem_cons,List.not_mem_nil,or_false] at here predicted
    rcases here with (old | rfl) | queued
    · exact predicted x (.inl old)
    · exact predicted instr (.inr (.inl (.inl rfl)))
    · exact predicted x (.inr (queued.imp_left .inr))

theorem Pipeline.decoded {instr : OOOModelInstr} {rest : List OOOModelInstr}
    (kept : Pipeline numPhysical cpu retired past done waiting) (queue : cpu.fetchQueue = instr :: rest) :
    Pipeline numPhysical (cpu.decodedFirst instr rest) retired past done waiting := by
  have tags := kept.tags
  have predicted := kept.predicted
  rw [O3CPU.inside,queue] at tags predicted
  refine { kept with tags := ?_, predicted := ?_, fresh := (kept.frontier.decoded queue).fresh }
  · show (cpu.rob.buffer ++ (cpu.decodeQueue ++ [_] ++ rest)).map _ = cpu.delivered.zipIdx.drop retired
    rw [← tags]
    simp [OOOModelInstr.tag]
  · intro x member
    have here : x ∈ cpu.rob.buffer ++ (cpu.decodeQueue ++ [_] ++ rest) := member
    simp only [List.mem_append,List.mem_cons,List.not_mem_nil,or_false] at here predicted
    rcases here with old | (queued | rfl) | young
    · exact predicted x (.inl old)
    · exact predicted x (.inr (.inl queued))
    · exact predicted instr (.inr (.inr (.inl rfl)))
    · exact predicted x (.inr (.inr (.inr young)))

theorem Pipeline.fetched {read : TraceInstr} (kept : Pipeline numPhysical cpu retired past done waiting)
    (arrived : cpu.traceReader cpu.reads = some read) :
    Pipeline numPhysical (cpu.fetched read) retired past done waiting := by
  obtain ⟨counter,within⟩ := kept.counter
  let instr := { OOOModelInstr.ofTrace read with
    instrID := cpu.instrCounter
    readyTime := cpu.currentCycle + cpu.config.fetchLatency
    fetchIssued := true }
  refine { kept with tags := ?_, counter := ⟨?_,?_⟩, predicted := ?_, fresh := (kept.frontier.fetched read).fresh, keys := ?_ }
  · have tags := kept.tags
    show (cpu.rob.buffer ++ (cpu.decodeQueue ++ (cpu.fetchQueue ++ [instr]))).map _ = (cpu.delivered ++ [read]).zipIdx.drop retired
    rw [List.zipIdx_append,List.drop_append_of_le_length (by rw [List.length_zipIdx]; exact within),← tags]
    simp [O3CPU.inside,OOOModelInstr.tag,instr,OOOModelInstr.ofTrace,counter]
  · simp [O3CPU.fetched,counter]
  · rw [O3CPU.fetched,List.length_append]
    omega
  · intro x member
    have here : x ∈ cpu.rob.buffer ++ (cpu.decodeQueue ++ (cpu.fetchQueue ++ [instr])) := member
    rw [← List.append_assoc,← List.append_assoc,List.append_assoc cpu.rob.buffer] at here
    rcases List.mem_append.mp here with old | new
    · exact kept.predicted x old
    · obtain rfl := List.mem_singleton.mp new
      exact kept.unflagged _ _ arrived
  · show past.map Alloc.key = writes ((cpu.delivered ++ [read]).take retired)
    rw [List.take_append_of_le_length within]
    exact kept.keys

/-! ### Runs -/

/-- The invariant without its witnesses. -/
def Pipelined (numPhysical : Nat) (cpu : O3CPU) : Prop :=
  ∃ retired past done waiting, Pipeline numPhysical cpu retired past done waiting

theorem Pipelined.worked (kept : Pipelined numPhysical cpu) (worked : Worked cpu cpu') : Pipelined numPhysical cpu' := by
  obtain ⟨retired,past,done,waiting,kept⟩ := kept
  obtain ⟨done',waiting',kept'⟩ := kept.worked worked
  exact ⟨retired,past,done',waiting',kept'⟩

theorem Pipelined.executedScheduled (kept : Pipelined numPhysical cpu) : ExecutedScheduled cpu := by
  obtain ⟨retired,past,done,waiting,kept⟩ := kept
  exact kept.frontier.executedScheduled

theorem Pipelined.nextCycle (kept : Pipelined numPhysical cpu) :
    Pipelined numPhysical { cpu with currentCycle := cpu.currentCycle + 1 } := by
  obtain ⟨retired,past,done,waiting,kept⟩ := kept
  refine ⟨retired,past,done,waiting,{ kept with bound := fun x member => ?_ }⟩
  have before := kept.bound x member
  simp only
  omega

theorem Pipelined.retire (kept : Pipelined numPhysical cpu) : Pipelined numPhysical cpu.retire := by
  refine O3CPU.retireLoop_rule (fun cpu instr rob kept taken => ?_) _ kept
  obtain ⟨retired,past,done,waiting,kept⟩ := kept
  obtain ⟨rest,kept'⟩ := kept.retireInstr taken
  exact ⟨_,_,rest,waiting,kept'⟩

theorem Pipelined.processPendingMemOps (kept : Pipelined numPhysical cpu) :
    Pipelined numPhysical cpu.processPendingMemOps :=
  (kept.worked (worked_processPendingLoads cpu)).worked (worked_processPendingStores _)

theorem Pipelined.completeInflightInstruction (kept : Pipelined numPhysical cpu) :
    Pipelined numPhysical cpu.completeInflightInstruction :=
  kept.worked (worked_completeLoop cpu.rob.size 0 0 cpu kept.executedScheduled)

theorem Pipelined.execute (kept : Pipelined numPhysical cpu) : Pipelined numPhysical cpu.execute :=
  kept.worked (worked_executeLoop cpu.rob.size 0 0 cpu)

theorem Pipelined.schedule (kept : Pipelined numPhysical cpu) :
    (∃ cpu', cpu.schedule = .ok cpu' ∧ Pipelined numPhysical cpu') ∨
      ∃ panic, cpu.schedule = .error panic ∧ IndexPanic numPhysical panic := by
  obtain ⟨retired,past,done,waiting,kept⟩ := kept
  rcases O3CPU.scheduleLoop_inOrder (P := fun cpu done waiting => Pipeline numPhysical cpu retired past done waiting)
      (fun kept => kept.frontier.split) (fun kept enough => kept.doScheduling enough) cpu.rob.size 0 0 kept
      (fun later => absurd later (Nat.not_lt_zero _)) with
    ⟨cpu',done',waiting',scheduled,kept'⟩ | failed
  · exact .inl ⟨cpu',scheduled,retired,past,done',waiting',kept'⟩
  · exact .inr failed

theorem Pipelined.dispatch (kept : Pipelined numPhysical cpu) : Pipelined numPhysical cpu.dispatch := by
  refine O3CPU.dispatch_rule (fun cpu instr rest kept queue => ?_) kept
  obtain ⟨retired,past,done,waiting,kept⟩ := kept
  obtain ⟨waiting',kept'⟩ := kept.dispatched queue
  exact ⟨retired,past,done,waiting',kept'⟩

theorem Pipelined.decode (kept : Pipelined numPhysical cpu) : Pipelined numPhysical cpu.decode := by
  refine O3CPU.decode_rule (fun cpu instr rest kept queue => ?_) kept
  obtain ⟨retired,past,done,waiting,kept⟩ := kept
  exact ⟨retired,past,done,waiting,kept.decoded queue⟩

theorem Pipelined.fetch (kept : Pipelined numPhysical cpu) : Pipelined numPhysical cpu.fetch := by
  refine O3CPU.fetch_rule (fun cpu kept _ => ?_) (fun cpu read kept arrived => ?_) kept
  · obtain ⟨retired,past,done,waiting,kept⟩ := kept
    exact ⟨retired,past,done,waiting,{ kept with }⟩
  · obtain ⟨retired,past,done,waiting,kept⟩ := kept
    exact ⟨retired,past,done,waiting,kept.fetched arrived⟩

/-- The cycle up to scheduling. -/
def O3CPU.beforeSchedule (cpu : O3CPU) : O3CPU :=
  { cpu with currentCycle := cpu.currentCycle + 1 }.retire.processPendingMemOps.completeInflightInstruction.execute

theorem tick_eq (cpu : O3CPU) :
    cpu.tick = cpu.beforeSchedule.schedule.map fun scheduled => scheduled.dispatch.decode.fetch := by
  show cpu.beforeSchedule.schedule.bind _ = _
  cases cpu.beforeSchedule.schedule <;> rfl

/-- A cycle that does not panic. -/
theorem tick_ok (ticked : cpu.tick = .ok cpu') :
    ∃ mid, cpu.beforeSchedule.schedule = .ok mid ∧ cpu' = mid.dispatch.decode.fetch := by
  rw [tick_eq] at ticked
  rcases scheduled : cpu.beforeSchedule.schedule with panic | mid
  · rw [scheduled] at ticked
    cases ticked
  · rw [scheduled] at ticked
    cases ticked
    exact ⟨mid,rfl,rfl⟩

/-- A cycle keeps the invariant, or panics because an id is no index. -/
theorem Pipelined.tick (kept : Pipelined numPhysical cpu) :
    (∃ cpu', cpu.tick = .ok cpu' ∧ Pipelined numPhysical cpu') ∨
      ∃ panic, cpu.tick = .error panic ∧ IndexPanic numPhysical panic := by
  have before : Pipelined numPhysical cpu.beforeSchedule :=
    kept.nextCycle.retire.processPendingMemOps.completeInflightInstruction.execute
  rw [tick_eq]
  rcases before.schedule with ⟨cpu',scheduled,kept'⟩ | ⟨panic,failed,index⟩
  · exact .inl ⟨_,by rw [scheduled]; rfl,kept'.dispatch.decode.fetch⟩
  · exact .inr ⟨panic,by rw [failed]; rfl,index⟩

theorem pipelined_new {traceReader : Nat → Option TraceInstr} {config : O3CPUConfig}
    (unflagged : ∀ n read, traceReader n = some read → read.branchMispredicted = false) :
    Pipelined config.physicalRegisters (.newO3CPU traceReader config) := by
  refine ⟨0,[],[],[],?_⟩
  constructor
  case unflagged => exact unflagged
  case allocation => exact allocation_new config.physicalRegisters
  all_goals simp [O3CPU.newO3CPU,O3CPU.inside,ReorderBuffer.newReorderBuffer,RegisterAllocator.newRegisterAllocator,writes]

theorem Pipelined.step {action : O3CPU.Action} (kept : Pipelined numPhysical cpu) (stepped : cpu.step action = some cpu') :
    Pipelined numPhysical cpu' := by
  cases action with
  | tick =>
    rcases kept.tick with ⟨next,done,kept'⟩ | ⟨panic,failed,_⟩
    · simp only [O3CPU.step,done,Except.toOption,Option.some.injEq] at stepped
      exact stepped ▸ kept'
    · simp [O3CPU.step,failed,Except.toOption] at stepped
  | fetch =>
    cases stepped
    exact kept.fetch
  | handleLoadResponse instrID cycle =>
    cases stepped
    exact kept.worked (worked_handleLoadResponse ..)
  | handleStoreResponse instrID cycle =>
    cases stepped
    exact kept.worked (worked_handleStoreResponse ..)
  | setStandaloneMode standalone =>
    cases stepped
    exact kept.worked { Worked.refl cpu with }
  | setL1DCache cache =>
    cases stepped
    exact kept.worked { Worked.refl cpu with }

/-- Every state that runs of the core reach is as described. -/
theorem pipelined_reachable {traceReader : Nat → Option TraceInstr} {config : O3CPUConfig}
    (unflagged : ∀ n read, traceReader n = some read → read.branchMispredicted = false)
    (reached : Lib.Reachable O3CPU.step (.newO3CPU traceReader config) cpu) : Pipelined config.physicalRegisters cpu :=
  reached.invariant (pipelined_new unflagged) fun _ kept _ stepped => kept.step stepped

/-! ### A short run -/

/-- An instruction that writes register 1, and one that reads it and writes 1 and 2. -/
def dependentPair : Nat → Option TraceInstr
  | 0 => some { isBranch := false, branchMispredicted := false, destRegisters := [1], srcRegisters := [],
                destMemory := [], srcMemory := [] }
  | 1 => some { isBranch := false, branchMispredicted := false, destRegisters := [1,2], srcRegisters := [1],
                destMemory := [], srcMemory := [] }
  | _ => none

theorem dependentPair_unflagged (n : Nat) (read : TraceInstr) (found : dependentPair n = some read) :
    read.branchMispredicted = false := by
  match n with
  | 0 => cases found; rfl
  | 1 => cases found; rfl
  | n + 2 => cases found

def pairScheduled : Option O3CPU :=
  Lib.runActions O3CPU.step (fun _ _ => True) [.tick,.tick,.tick,.tick] (.newO3CPU dependentPair defaultO3CPUConfig)

theorem pairScheduled_isSome : pairScheduled.isSome = true := by decide +kernel

/-- The core after the two have been scheduled. -/
def pairCPU : O3CPU := pairScheduled.get pairScheduled_isSome

theorem pairCPU_reached : Lib.Reachable O3CPU.step (.newO3CPU dependentPair defaultO3CPUConfig) pairCPU :=
  Lib.reaches_runActions _ (Option.some_get pairScheduled_isSome).symm

end
end FlowSim.Cpu
