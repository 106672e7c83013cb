import FlowSim.Cpu.Pipeline

/-!
Renaming keeps the flow of data. A renamed source is the register allocated for the
last write before the instruction, or for the initial value, and nothing happens to
that register as long as the instruction is in the reorder buffer.
-/
namespace FlowSim.Cpu
set_option linter.unusedSimpArgs false

/-! ### What has happened stays -/

/-- Instructions are delivered and registers allocated and freed, nothing of which is
    undone. -/
structure Grows (cpu cpu' : O3CPU) : Prop where
  delivered : cpu.delivered <+: cpu'.delivered
  events : cpu.regAlloc.events <+: cpu'.regAlloc.events

section
variable {cpu cpu' cpu'' : O3CPU} {ra ra' : RegisterAllocator}

theorem Grows.refl (cpu : O3CPU) : Grows cpu cpu := ⟨List.prefix_rfl,List.prefix_rfl⟩

theorem Grows.trans (first : Grows cpu cpu') (second : Grows cpu' cpu'') : Grows cpu cpu'' :=
  ⟨first.delivered.trans second.delivered,first.events.trans second.events⟩

theorem events_completeDestRegister (physReg : PhysicalRegisterID) :
    (ra.completeDestRegister physReg).events = ra.events := by
  unfold RegisterAllocator.completeDestRegister
  split <;> rfl

theorem events_retireDestRegister (physReg : PhysicalRegisterID) :
    ra.events <+: (ra.retireDestRegister physReg).events := by
  unfold RegisterAllocator.retireDestRegister RegisterAllocator.freeRegister
  dsimp only
  split
  · exact List.prefix_rfl
  · split
    · split
      · exact List.prefix_rfl
      · exact List.prefix_append ..
    · exact List.prefix_rfl

theorem events_renameAll {rename : UInt8 → RegisterAllocator → Except String (PhysicalRegisterID × RegisterAllocator)}
    (each : ∀ {archReg ra physReg ra'}, rename archReg ra = .ok (physReg,ra') → ra.events <+: ra'.events)
    {regs renamed : List PhysicalRegisterID} (done : O3CPU.renameAll rename regs ra = .ok (renamed,ra')) :
    ra.events <+: ra'.events := by
  induction regs generalizing ra renamed with
  | nil =>
    obtain ⟨_,rfl⟩ := renameAll_nil done
    exact List.prefix_rfl
  | cons reg regs ih =>
    obtain ⟨physReg,rest,between,rfl,others,⟨_,first⟩ | ⟨_,_,rfl⟩⟩ := renameAll_cons done
    · exact (each first).trans (ih others)
    · exact ih others

theorem events_renameSources {regs renamed : List PhysicalRegisterID}
    (done : O3CPU.renameSources regs ra = .ok (renamed,ra')) : ra.events <+: ra'.events := by
  refine events_renameAll (fun {archReg ra physReg ra'} first => ?_) done
  rcases RegisterAllocator.renameSrcRegister_ok first with ⟨_,_,rfl⟩ | ⟨_,_,_,_,rfl⟩
  · exact List.prefix_rfl
  · exact List.prefix_append ..

theorem events_renameDests {instrID : Nat} {regs renamed : List PhysicalRegisterID}
    (done : O3CPU.renameDests instrID regs ra = .ok (renamed,ra')) : ra.events <+: ra'.events := by
  refine events_renameAll (fun {archReg ra physReg ra'} first => ?_) done
  obtain ⟨_,_,_,rfl⟩ := RegisterAllocator.renameDestRegister_ok first
  exact List.prefix_append ..

theorem Worked.grows (worked : Worked cpu cpu') : Grows cpu cpu' := by
  obtain ⟨regs,same⟩ := worked.regAlloc
  refine ⟨by rw [worked.trace.2.1],?_⟩
  rw [same]
  clear same worked
  induction regs generalizing cpu with
  | nil => exact List.prefix_rfl
  | cons reg regs ih =>
    have rest := @ih { cpu with regAlloc := cpu.regAlloc.completeDestRegister reg }
    rwa [events_completeDestRegister] at rest

theorem grows_retireInstr (cpu : O3CPU) (instr : OOOModelInstr) : Grows cpu (cpu.retireInstr instr) := by
  have freed : ∀ (regs : List PhysicalRegisterID) (ra : RegisterAllocator),
      ra.events <+: (regs.foldl (fun ra reg => ra.retireDestRegister reg) ra).events := by
    intro regs
    induction regs with
    | nil => exact fun ra => List.prefix_rfl
    | cons reg regs ih => exact fun ra => (events_retireDestRegister reg).trans (ih _)
  unfold O3CPU.retireInstr
  dsimp only
  split <;> exact ⟨List.prefix_rfl,freed _ _⟩

theorem grows_retire (cpu : O3CPU) : Grows cpu cpu.retire := by
  refine O3CPU.retireLoop_rule (P := Grows cpu) (fun mid instr rob grown _ => grown.trans ?_) cpu.config.retireWidth (.refl cpu)
  have taken : Grows mid { mid with rob } := ⟨List.prefix_rfl,List.prefix_rfl⟩
  exact taken.trans (grows_retireInstr _ instr)

theorem grows_doScheduling {i : Nat} {instr : OOOModelInstr} (done : cpu.doScheduling i instr = .ok cpu') :
    Grows cpu cpu' := by
  obtain ⟨_,_,_,_,first,second,rfl⟩ := O3CPU.doScheduling_ok done
  exact ⟨List.prefix_rfl,(events_renameSources first).trans (events_renameDests second)⟩

theorem grows_schedule (scheduled : cpu.schedule = .ok cpu') : Grows cpu cpu' :=
  O3CPU.scheduleLoop_rule (P := Grows cpu) (fun _ _ _ _ grown _ done => grown.trans (grows_doScheduling done)) cpu.rob.size 0 0
    (.refl cpu) scheduled

theorem grows_dispatch (cpu : O3CPU) : Grows cpu cpu.dispatch :=
  O3CPU.dispatch_rule (P := Grows cpu) (fun _ _ _ grown _ => grown.trans ⟨List.prefix_rfl,List.prefix_rfl⟩) (.refl cpu)

theorem grows_decode (cpu : O3CPU) : Grows cpu cpu.decode :=
  O3CPU.decode_rule (P := Grows cpu) (fun _ _ _ grown _ => grown.trans ⟨List.prefix_rfl,List.prefix_rfl⟩) (.refl cpu)

theorem grows_fetch (cpu : O3CPU) : Grows cpu cpu.fetch :=
  O3CPU.fetch_rule (P := Grows cpu) (fun _ grown _ => grown.trans ⟨List.prefix_rfl,List.prefix_rfl⟩)
    (fun _ _ grown _ => grown.trans ⟨List.prefix_append ..,List.prefix_rfl⟩) (.refl cpu)

theorem Pipelined.grows_tick {numPhysical : Nat} (kept : Pipelined numPhysical cpu) (ticked : cpu.tick = .ok cpu') :
    Grows cpu cpu' := by
  obtain ⟨next,scheduled,rfl⟩ := tick_ok ticked
  have answered := kept.nextCycle.retire.processPendingMemOps
  have start : Grows cpu { cpu with currentCycle := cpu.currentCycle + 1 } := ⟨List.prefix_rfl,List.prefix_rfl⟩
  have before : Grows cpu cpu.beforeSchedule :=
    (((start.trans (grows_retire _)).trans ((worked_processPendingLoads _).grows.trans
      (worked_processPendingStores _).grows)).trans
        (worked_completeLoop _ 0 0 _ answered.executedScheduled).grows).trans (worked_executeLoop _ 0 0 _).grows
  have after := (grows_dispatch next).trans ((grows_decode _).trans (grows_fetch _))
  exact before.trans ((grows_schedule scheduled).trans after)

theorem Pipelined.grows {numPhysical : Nat} {action : O3CPU.Action} (kept : Pipelined numPhysical cpu)
    (stepped : cpu.step action = some cpu') : Grows cpu cpu' := by
  cases action with
  | tick =>
    exact kept.grows_tick (O3CPU.tick_of_step stepped)
  | fetch =>
    cases stepped
    exact grows_fetch cpu
  | handleLoadResponse instrID cycle =>
    cases stepped
    exact (worked_handleLoadResponse ..).grows
  | handleStoreResponse instrID cycle =>
    cases stepped
    exact (worked_handleStoreResponse ..).grows
  | setStandaloneMode standalone =>
    cases stepped
    exact ⟨List.prefix_rfl,List.prefix_rfl⟩
  | setL1DCache cache =>
    cases stepped
    exact ⟨List.prefix_rfl,List.prefix_rfl⟩

/-- Along a run. -/
theorem Pipelined.run {numPhysical : Nat} (kept : Pipelined numPhysical cpu)
    (reached : Lib.Reachable O3CPU.step cpu cpu') : Pipelined numPhysical cpu' ∧ Grows cpu cpu' :=
  reached.invariant (P := fun later => Pipelined numPhysical later ∧ Grows cpu later) ⟨kept,.refl cpu⟩
    fun _ before _ stepped => ⟨before.1.step stepped,before.2.trans (before.1.grows stepped)⟩

end

/-! ### The writer of a source -/

def writesTo (delivered : List TraceInstr) (archReg : UInt8) (instrID : Nat) : Bool :=
  delivered[instrID]?.any fun read =>
    read.destRegisters.any fun reg => PhysicalRegisterID.isValid reg && PhysicalRegisterID.archReg reg = archReg

/-- The youngest instruction older than `instrID` that writes the register. -/
def youngestWriter (delivered : List TraceInstr) (instrID : Nat) (archReg : UInt8) : Option Nat :=
  (List.range instrID).reverse.find? (writesTo delivered archReg)

/-- The register was allocated for that instruction's write, its last one of the
    architectural register. Without such an instruction, it was allocated once, for the
    initial value. -/
def AllocatedFor (cpu : O3CPU) (instrID : Nat) (archReg : UInt8) (physReg : PhysicalRegisterID) : Prop :=
  match youngestWriter cpu.delivered instrID archReg with
  | some writer =>
    ((destAllocs cpu.regAlloc.events).filter (fun x => x.key = (writer,archReg))).getLast?.map Alloc.physReg = some physReg
  | none => initials cpu.regAlloc.events archReg = [physReg]

/-- The event that allocated it. -/
def allocationEvent (cpu : O3CPU) (instrID : Nat) (archReg : UInt8) (physReg : PhysicalRegisterID) : RegisterEvent :=
  match youngestWriter cpu.delivered instrID archReg with
  | some writer => .dest writer archReg physReg
  | none => .initial archReg physReg

section
variable {cpu cpu' : O3CPU} {numPhysical retired instrID : Nat} {past : List Alloc} {done waiting : List OOOModelInstr}
  {delivered : List TraceInstr} {archReg : UInt8} {physReg : PhysicalRegisterID} {events : List RegisterEvent}

/-- The youngest writer is that of the last of the older writes. -/
theorem youngestWriter_eq : youngestWriter delivered instrID archReg =
    ((writes (delivered.take instrID)).filter (fun key => key.2 = archReg)).getLast?.map Prod.fst := by
  induction instrID with
  | zero => rfl
  | succ instrID ih =>
    have step : youngestWriter delivered (instrID + 1) archReg =
        if writesTo delivered archReg instrID then some instrID else youngestWriter delivered instrID archReg := by
      rw [youngestWriter,List.range_succ,List.reverse_append,List.reverse_singleton,List.singleton_append,List.find?_cons]
      split
      · next found => rw [if_pos found]
      · next missing => rw [if_neg (by simp [missing])]; rfl
    rw [step]
    rcases Nat.lt_or_ge instrID delivered.length with within | beyond
    · rw [List.take_succ_eq_append_getElem within,writes_append_singleton,List.length_take,
        Nat.min_eq_left (Nat.le_of_lt within),List.filter_append,List.getLast?_append]
      have here : delivered[instrID]? = some (delivered.get ⟨instrID,within⟩) := List.getElem?_eq_getElem within
      rcases last : ((writesOf instrID (delivered.get ⟨instrID,within⟩)).filter (fun key => key.2 = archReg)).getLast? with
        _ | key
      · -- it does not write the register
        have unwritten : writesTo delivered archReg instrID = false := by
          rw [List.getLast?_eq_none_iff,List.filter_eq_nil_iff] at last
          rw [writesTo,here,Option.any_some,List.any_eq_false]
          intro reg member written
          rw [Bool.and_eq_true,decide_eq_true_eq] at written
          exact last _ (List.mem_map_of_mem (List.mem_filter.mpr ⟨member,written.1⟩)) (decide_eq_true written.2)
        simp only [List.get_eq_getElem] at last
        rw [unwritten,last]
        simpa using ih
      · obtain ⟨written,named⟩ := List.mem_filter.mp (List.mem_of_getLast? last)
        obtain ⟨reg,member,rfl⟩ := List.mem_map.mp written
        have writer : writesTo delivered archReg instrID = true := by
          rw [writesTo,here,Option.any_some,List.any_eq_true]
          exact ⟨reg,(List.mem_filter.mp member).1,Bool.and_eq_true_iff.mpr ⟨(List.mem_filter.mp member).2,named⟩⟩
        simp only [List.get_eq_getElem] at last
        rw [writer,last]
        rfl
    · have unwritten : writesTo delivered archReg instrID = false := by
        rw [writesTo,List.getElem?_eq_none beyond]
        rfl
      rw [unwritten,List.take_of_length_le (Nat.le_succ_of_le beyond)]
      rw [List.take_of_length_le beyond] at ih
      exact ih

/-- The writes of the first instructions, and the others. -/
theorem writes_take_append (delivered : List TraceInstr) (n : Nat) : ∃ rest, writes delivered = writes (delivered.take n) ++ rest ∧
    ∀ key ∈ rest, n ≤ key.1 := by
  refine ⟨((delivered.drop n).zipIdx (delivered.take n).length).flatMap fun entry => writesOf entry.2 entry.1,?_,?_⟩
  · conv_lhs => rw [← List.take_append_drop n delivered]
    rw [writes,List.zipIdx_append,List.flatMap_append,Nat.zero_add]
    rfl
  · intro key member
    obtain ⟨⟨read,instrID⟩,inside,written⟩ := List.mem_flatMap.mp member
    obtain ⟨reg,_,rfl⟩ := List.mem_map.mp written
    have bounds := List.mem_zipIdx inside
    simp only [List.length_take,List.length_drop] at bounds ⊢
    omega

theorem writes_take (n : Nat) : writes (delivered.take n) =
    (delivered.zipIdx.take n).flatMap fun (read,instrID) => writesOf instrID read := by
  induction delivered using List.reverseRecOn with
  | nil => simp [writes]
  | append_singleton rest read ih =>
    rcases Nat.lt_or_ge rest.length n with all | within
    · rw [List.take_of_length_le (by simpa using all),List.take_of_length_le (by simpa using all)]
      rfl
    · rw [List.take_append_of_le_length within,List.zipIdx_append,List.take_append_of_le_length (by simpa using within)]
      exact ih

/-- Each write of the instructions scheduled so far has been given a register, once,
    in the order of the trace. -/
theorem Pipeline.allocs_keys (kept : Pipeline numPhysical cpu retired past done waiting) :
    (destAllocs cpu.regAlloc.events).map Alloc.key = writes (cpu.delivered.take (retired + done.length)) := by
  have tags : done.map OOOModelInstr.tag = (cpu.delivered.zipIdx.drop retired).take done.length := by
    rw [← kept.tags,O3CPU.inside,kept.rob,List.append_assoc,List.map_append,List.take_append_of_le_length (by simp),
      List.take_of_length_le (by simp)]
  rw [kept.allocation.renames.allocs,List.map_append,kept.keys,writes_take (retired + done.length),List.take_add,
    List.flatMap_append,writes_take,← tags,List.flatMap_map,List.map_flatMap]
  congr 1
  refine List.flatMap_congr fun x member => ?_
  exact (allocsOfRegs_eq x.instrID (kept.scheduled x member).dests).2

/-- The registers allocated for writes of older instructions. -/
def olderAllocs (cpu : O3CPU) (instrID : Nat) : List Alloc :=
  (destAllocs cpu.regAlloc.events).filter (fun x => x.instrID < instrID)

theorem Pipeline.older_keys (kept : Pipeline numPhysical cpu retired past done waiting)
    (scheduled : instrID ≤ retired + done.length) :
    (olderAllocs cpu instrID).map Alloc.key = writes (cpu.delivered.take instrID) := by
  have keys := congrArg (List.filter (fun key => decide (key.1 < instrID))) kept.allocs_keys
  rw [List.filter_map] at keys
  refine Eq.trans keys ?_
  obtain ⟨rest,split,later⟩ := writes_take_append (cpu.delivered.take (retired + done.length)) instrID
  rw [List.take_take,Nat.min_eq_left scheduled] at split
  have dropped : rest.filter (fun key => decide (key.1 < instrID)) = [] :=
    List.filter_eq_nil_iff.mpr fun key member => by simpa using later key member
  rw [split,List.filter_append,dropped,List.append_nil]
  refine List.filter_eq_self.mpr fun key member => ?_
  have below := writes_instrID member
  rw [List.length_take] at below
  exact decide_eq_true (Nat.lt_of_lt_of_le below (Nat.min_le_left ..))

theorem Pipeline.youngestWriter (kept : Pipeline numPhysical cpu retired past done waiting)
    (scheduled : instrID ≤ retired + done.length) : youngestWriter cpu.delivered instrID archReg =
      ((olderAllocs cpu instrID).filter (fun x => x.archReg = archReg)).getLast?.map Alloc.instrID := by
  rw [youngestWriter_eq,← kept.older_keys scheduled,List.filter_map,List.getLast?_map,Option.map_map]
  rfl

theorem getLast?_filter_of_getLast? {α : Type} {q : α → Bool} {xs : List α} {x : α} (last : xs.getLast? = some x)
    (good : q x = true) : (xs.filter q).getLast? = some x := by
  obtain ⟨before,rfl⟩ := List.getLast?_eq_some_iff.mp last
  simp [good]

/-- The latest register of the older writes is the one allocated for the youngest
    writer, or for the initial value. -/
theorem Pipeline.allocatedFor (kept : Pipeline numPhysical cpu retired past done waiting)
    (scheduled : instrID ≤ retired + done.length) (valid : PhysicalRegisterID.isValid physReg = true)
    (value : physReg = latest archReg (initialOf cpu.regAlloc.events archReg) (olderAllocs cpu instrID)) :
    AllocatedFor cpu instrID archReg physReg ∧
      allocationEvent cpu instrID archReg physReg = originEvent archReg (olderAllocs cpu instrID) physReg := by
  rw [AllocatedFor,allocationEvent,kept.youngestWriter scheduled]
  rcases latest_cases archReg (initialOf cpu.regAlloc.events archReg) (olderAllocs cpu instrID) with
    ⟨x,last,register⟩ | ⟨none_,register⟩
  · obtain ⟨member,named⟩ := List.mem_filter.mp (List.mem_of_getLast? last)
    obtain ⟨_,older⟩ := List.mem_filter.mp member
    rw [decide_eq_true_eq] at named older
    have whole : ((destAllocs cpu.regAlloc.events).filter (fun y => y.key = (x.instrID,archReg))).getLast? = some x := by
      have again := getLast?_filter_of_getLast? (q := fun y => decide (y.instrID = x.instrID)) last (by simp)
      rw [olderAllocs,List.filter_filter,List.filter_filter] at again
      refine Eq.trans (congrArg List.getLast? (List.filter_congr fun y _ => ?_)) again
      rw [Bool.eq_iff_iff]
      simp only [Alloc.key,Prod.mk.injEq,Bool.and_eq_true,decide_eq_true_eq]
      constructor
      · rintro ⟨same,arch⟩
        exact ⟨⟨same,arch⟩,same ▸ older⟩
      · exact And.left
    simp only [last,Option.map_some,originEvent,Option.getD_some]
    refine ⟨?_,?_⟩
    · rw [whole,value,register]
      rfl
    · rw [Alloc.event,named,value,register]
  · simp only [none_,Option.map_none,originEvent,Option.getD_none]
    refine ⟨?_,trivial⟩
    rw [register] at value
    have once := kept.allocation.renames.once archReg
    rcases found : initials cpu.regAlloc.events archReg with _ | ⟨first,rest⟩
    · exact absurd (value.trans (by simp [initialOf,found])) (ne_invalid valid)
    · rw [found] at once
      obtain rfl : rest = [] := List.length_eq_zero_iff.mp (by simpa using once)
      simp [value,initialOf,found]

/-- As long as the reader has not retired, nothing has happened to the register since. -/
theorem Pipeline.heldFor (kept : Pipeline numPhysical cpu retired past done waiting) (unretired : retired ≤ instrID)
    (valid : PhysicalRegisterID.isValid physReg = true)
    (value : physReg = latest archReg (initialOf cpu.regAlloc.events archReg) (olderAllocs cpu instrID)) :
    lastEvent cpu.regAlloc.events physReg = some (originEvent archReg (olderAllocs cpu instrID) physReg) := by
  have renames := kept.allocation.renames
  -- the older writes are those of retired instructions and some of those under way
  have older : olderAllocs cpu instrID = past ++ (done.flatMap allocsOf).filter (fun x => x.instrID < instrID) := by
    rw [olderAllocs,renames.allocs,List.filter_append]
    congr 1
    exact List.filter_eq_self.mpr fun x member =>
      decide_eq_true (Nat.lt_of_lt_of_le (kept.past_instrID member) unretired)
  rw [older] at value ⊢
  generalize inflight : (done.flatMap allocsOf).filter (fun x => x.instrID < instrID) = used at value ⊢
  rcases found : (used.filter (fun x => x.archReg = archReg)).getLast? with _ | x
  · rw [List.getLast?_eq_none_iff] at found
    rw [latest_append,latest_of_filter found,← renames.backend archReg] at value
    rw [originEvent,List.filter_append,found,List.append_nil,value]
    exact renames.backendEvent archReg (value ▸ ne_invalid valid)
  · have last : ((past ++ used).filter (fun x => x.archReg = archReg)).getLast? = some x := by
      rw [List.filter_append,List.getLast?_append,found]
      rfl
    have register : physReg = x.physReg := by
      rcases latest_cases archReg (initialOf cpu.regAlloc.events archReg) (past ++ used) with ⟨y,same,register⟩ | ⟨none_,_⟩
      · rw [last] at same
        rw [value,register,Option.some.inj same]
      · rw [last] at none_
        cases none_
    have member : x ∈ done.flatMap allocsOf := by
      rw [← inflight] at found
      exact (List.mem_filter.mp (List.mem_filter.mp (List.mem_of_getLast? found)).1).1
    rw [originEvent,last,register]
    exact renames.pendingEvent x member

/-- A register is allocated once for each purpose. -/
theorem Pipeline.event_once (kept : Pipeline numPhysical cpu retired past done waiting)
    {before after : List RegisterEvent} (split : cpu.regAlloc.events = before ++ after) {allocs : List Alloc}
    (first : originEvent archReg allocs physReg ∈ before) (second : originEvent archReg allocs physReg ∈ after) : False := by
  unfold originEvent at first second
  rcases last : (allocs.filter (fun x => x.archReg = archReg)).getLast? with _ | x <;> rw [last] at first second
  · have once := kept.allocation.renames.once archReg
    rw [split,initials_append,List.length_append] at once
    have here : ∀ {events : List RegisterEvent}, .initial archReg physReg ∈ events → 0 < (initials events archReg).length :=
      fun {events} member => List.length_pos_of_mem (List.mem_filterMap.mpr ⟨_,member,if_pos rfl⟩)
    have one : 0 < (initials before archReg).length := here first
    have two : 0 < (initials after archReg).length := here second
    omega
  · have distinct := kept.distinct
    rw [← kept.allocation.renames.allocs,split,destAllocs_append] at distinct
    have one : x ∈ destAllocs before := List.mem_filterMap.mpr ⟨_,first,rfl⟩
    have two : x ∈ destAllocs after := List.mem_filterMap.mpr ⟨_,second,rfl⟩
    exact (List.nodup_append.mp distinct).2.2 x one x two rfl

/-- The older writes are the same in every later state. -/
theorem Pipeline.older_run {retired' : Nat} {past' : List Alloc} {done' waiting' : List OOOModelInstr}
    (kept : Pipeline numPhysical cpu retired past done waiting)
    (kept' : Pipeline numPhysical cpu' retired' past' done' waiting') (grows : Grows cpu cpu')
    (scheduled : instrID ≤ retired + done.length) :
    ∃ more, cpu'.regAlloc.events = cpu.regAlloc.events ++ more ∧ Extends cpu.regAlloc cpu'.regAlloc (destAllocs more) ∧
      ∀ x ∈ destAllocs more, instrID ≤ x.instrID := by
  obtain ⟨more,events⟩ := grows.events
  refine ⟨more,events.symm,⟨kept'.number.trans kept.number.symm,more,events.symm,rfl⟩,fun x member => ?_⟩
  obtain ⟨since,delivered⟩ := grows.delivered
  have keys := kept'.allocs_keys
  rw [← events,destAllocs_append,List.map_append,kept.allocs_keys] at keys
  obtain ⟨rest,split,later⟩ := writes_take_append (cpu'.delivered.take (retired' + done'.length))
    (retired + done.length)
  have within : retired + done.length ≤ cpu.delivered.length := by
    have tags := congrArg List.length kept.tags
    rw [O3CPU.inside,kept.rob] at tags
    simp only [List.length_map,List.length_append,List.length_drop,List.length_zipIdx] at tags
    have := kept.counter.2
    omega
  rw [List.take_take] at split
  rcases Nat.le_total (retired + done.length) (retired' + done'.length) with more_scheduled | fewer
  · rw [Nat.min_eq_left more_scheduled,← delivered,List.take_append_of_le_length within,delivered,← keys,
      List.append_cancel_left_eq] at split
    have inside : x.key ∈ rest := split ▸ List.mem_map_of_mem member
    exact Nat.le_trans scheduled (later _ inside)
  · -- nothing has been allocated since
    obtain ⟨others,whole,_⟩ := writes_take_append (cpu'.delivered.take (retired + done.length))
      (retired' + done'.length)
    rw [List.take_take,Nat.min_eq_left fewer,← keys] at whole
    have same : cpu'.delivered.take (retired + done.length) = cpu.delivered.take (retired + done.length) := by
      rw [← delivered,List.take_append_of_le_length within]
    rw [same] at whole
    have lengths := congrArg List.length whole
    simp only [List.length_append,List.length_map] at lengths
    have none_added : destAllocs more = [] := List.length_eq_zero_iff.mp (by omega)
    rw [none_added] at member
    cases member

theorem olderAllocs_extends {allocs : List Alloc} (extended : Extends cpu.regAlloc cpu'.regAlloc allocs)
    (later : ∀ x ∈ allocs, instrID ≤ x.instrID) : olderAllocs cpu' instrID = olderAllocs cpu instrID := by
  obtain ⟨more,events,added⟩ := extended.events
  rw [olderAllocs,events,destAllocs_append,added,List.filter_append,olderAllocs]
  refine (congrArg _ (List.filter_eq_nil_iff.mpr fun x member => ?_)).trans (List.append_nil _)
  simpa using later x member

/-- Nothing happens to the register as long as the reader has not retired. -/
theorem Pipeline.untouched {retired' : Nat} {past' : List Alloc} {done' waiting' : List OOOModelInstr}
    {original : PhysicalRegisterID} (kept : Pipeline numPhysical cpu retired past done waiting)
    (kept' : Pipeline numPhysical cpu' retired' past' done' waiting') (grows : Grows cpu cpu')
    (scheduled : instrID ≤ retired + done.length) (unretired : retired ≤ instrID) (unretired' : retired' ≤ instrID)
    (usable : PhysicalRegisterID.isValid original = true) (source : Source cpu.regAlloc.events instrID original physReg) :
    ∃ more, cpu'.regAlloc.events = cpu.regAlloc.events ++ more ∧ ∀ event ∈ more, event.register ≠ physReg := by
  obtain ⟨more,events,extended,later⟩ := kept.older_run kept' grows scheduled
  have source' := source.extends extended later
  rw [Source,if_pos usable] at source source'
  have before := kept.heldFor unretired source.2 source.1
  have after := kept'.heldFor unretired' source'.2 source'.1
  rw [olderAllocs_extends extended later] at after
  refine ⟨more,events,fun event member touched => ?_⟩
  -- the last thing that happened to the register would have happened twice
  have first := List.mem_of_mem_filter (List.mem_of_getLast? before)
  refine kept'.event_once events first ?_
  have found : event ∈ more.filter (fun event => event.register = physReg) :=
    List.mem_filter.mpr ⟨member,decide_eq_true touched⟩
  rw [lastEvent,events,List.filter_append,List.getLast?_append_of_ne_nil _ (List.ne_nil_of_mem found)] at after
  exact List.mem_of_mem_filter (List.mem_of_getLast? after)

theorem allocationEvent_writer {writer : Nat} (found : youngestWriter cpu.delivered instrID archReg = some writer) :
    allocationEvent cpu instrID archReg physReg = .dest writer archReg physReg := by
  rw [allocationEvent,found]

/-- The scheduled instructions of the reorder buffer come first. -/
def ScheduledPrefix (cpu : O3CPU) : Prop :=
  ∃ n, ∀ i instr, cpu.rob.peekAt i = some instr → (instr.scheduled = true ↔ i < n)

theorem Pipeline.scheduledPrefix (kept : Pipeline numPhysical cpu retired past done waiting) : ScheduledPrefix cpu := by
  refine ⟨done.length,fun i instr found => ?_⟩
  rcases kept.frontier.split.place found with ⟨old,member⟩ | ⟨young,member⟩
  · exact ⟨fun _ => old,fun _ => (kept.scheduled instr member).scheduled⟩
  · have unscheduled := (kept.fresh.1 instr (List.mem_of_getElem? member)).scheduled
    exact ⟨fun scheduled => absurd scheduled (by simp [unscheduled]),fun old => absurd old (Nat.not_lt.mpr young)⟩

/-- The scheduled instructions are known by their place in the trace. -/
theorem Pipeline.scheduled_mem (kept : Pipeline numPhysical cpu retired past done waiting) {instr : OOOModelInstr}
    (member : instr ∈ cpu.rob.buffer) (scheduled : instr.scheduled = true) :
    Scheduled cpu.regAlloc.events instr ∧ instr.instrID < retired + done.length := by
  rw [kept.rob] at member
  rcases List.mem_append.mp member with old | young
  · exact ⟨kept.scheduled instr old,kept.done_instrID old⟩
  · exact absurd scheduled (by simp [(kept.fresh.1 instr young).scheduled])

theorem Pipeline.rob_mem (kept : Pipeline numPhysical cpu retired past done waiting) {instr : OOOModelInstr}
    (member : instr ∈ cpu.rob.buffer) :
    retired ≤ instr.instrID ∧ cpu.delivered[instr.instrID]? = some instr.original := by
  obtain ⟨n,found⟩ := List.mem_iff_getElem?.mp member
  have here : cpu.inside[n]? = some instr := by
    rw [O3CPU.inside,List.getElem?_append_left (List.getElem?_eq_some_iff.mp found).1]
    exact found
  obtain ⟨id,delivered⟩ := kept.tag_getElem here
  rw [id]
  exact ⟨Nat.le_add_right ..,delivered⟩

/-- Register renaming keeps the flow of data, on every run for a trace without
    mispredict flags. The scheduled instructions come first. Each valid source of one
    has been renamed to the register allocated for the youngest older writer, or once
    for the initial value; that allocation is the last thing that happened to the
    register, and nothing more happens to it as long as the instruction is there. -/
theorem renaming_preserves_dataflow {traceReader : Nat → Option TraceInstr} {config : O3CPUConfig}
    (unflagged : ∀ n read, traceReader n = some read → read.branchMispredicted = false) {cpu : O3CPU}
    (reached : Lib.Reachable O3CPU.step (.newO3CPU traceReader config) cpu) :
    ScheduledPrefix cpu ∧
    ∀ instr ∈ cpu.rob.buffer, instr.scheduled = true →
      ∃ read, cpu.delivered[instr.instrID]? = some read ∧ instr.srcRegisters.length = read.srcRegisters.length ∧
        ∀ (j : Nat) (original : PhysicalRegisterID), read.srcRegisters[j]? = some original → PhysicalRegisterID.isValid original = true →
          ∃ physReg, instr.srcRegisters[j]? = some physReg ∧ PhysicalRegisterID.isValid physReg = true ∧
            AllocatedFor cpu instr.instrID (PhysicalRegisterID.archReg original) physReg ∧
            lastEvent cpu.regAlloc.events physReg =
              some (allocationEvent cpu instr.instrID (PhysicalRegisterID.archReg original) physReg) ∧
            ∀ cpu', Lib.Reachable O3CPU.step cpu cpu' →
              (∃ instr' ∈ cpu'.rob.buffer, instr'.instrID = instr.instrID) →
              ∃ more, cpu'.regAlloc.events = cpu.regAlloc.events ++ more ∧ ∀ event ∈ more, event.register ≠ physReg := by
  have pipelined := pipelined_reachable unflagged reached
  obtain ⟨retired,past,done,waiting,kept⟩ := pipelined_reachable unflagged reached
  refine ⟨kept.scheduledPrefix,fun instr member scheduled => ?_⟩
  obtain ⟨unretired,delivered⟩ := kept.rob_mem member
  obtain ⟨renamed,below⟩ := kept.scheduled_mem member scheduled
  have sources := List.forall₂_iff_get.mp renamed.sources
  refine ⟨instr.original,delivered,sources.1.symm,fun j original read usable => ?_⟩
  obtain ⟨inside,rfl⟩ := List.getElem?_eq_some_iff.mp read
  have inside' : j < instr.srcRegisters.length := sources.1 ▸ inside
  have source := sources.2 j inside inside'
  simp only [List.get_eq_getElem] at source
  have facts := source
  rw [Source,if_pos usable] at facts
  obtain ⟨value,valid⟩ := facts
  obtain ⟨allocated,event⟩ := kept.allocatedFor (Nat.le_of_lt below) valid value
  refine ⟨instr.srcRegisters[j],List.getElem?_eq_getElem inside',valid,allocated,?_,fun cpu' later present => ?_⟩
  · rw [event]
    exact kept.heldFor unretired valid value
  · obtain ⟨⟨retired',past',done',waiting',kept'⟩,grows⟩ := pipelined.run later
    obtain ⟨instr',member',id⟩ := present
    have unretired' := (kept'.rob_mem member').1
    rw [id] at unretired'
    exact kept.untouched kept' grows (Nat.le_of_lt below) unretired unretired' usable source

set_option linter.constructorNameAsVariable false in
theorem renaming_preserves_dataflow_pair : ScheduledPrefix pairCPU ∧ ∃ instr ∈ pairCPU.rob.buffer,
    instr.instrID = 1 ∧ youngestWriter pairCPU.delivered 1 1 = some 0 ∧
      ∃ physReg, instr.srcRegisters[0]? = some physReg ∧ AllocatedFor pairCPU 1 1 physReg ∧
        lastEvent pairCPU.regAlloc.events physReg = some (.dest 0 1 physReg) := by
  obtain ⟨first,flow⟩ := renaming_preserves_dataflow dependentPair_unflagged pairCPU_reached
  have found : pairCPU.rob.buffer[1]?.any (fun instr => instr.instrID = 1 && instr.scheduled) = true := by decide +kernel
  obtain ⟨instr,here,facts⟩ := Option.any_eq_true _ _ |>.mp found
  rw [Bool.and_eq_true,decide_eq_true_eq] at facts
  obtain ⟨read,delivered,_,sources⟩ := flow instr (List.mem_of_getElem? here) facts.2
  rw [facts.1] at delivered sources
  have second : dependentPair 1 = pairCPU.delivered[1]? := by decide +kernel
  obtain rfl := Option.some.inj (second.trans delivered)
  obtain ⟨physReg,renamed,_,allocated,held,_⟩ := sources 0 1 rfl (by decide)
  have register : PhysicalRegisterID.archReg 1 = 1 := by decide
  rw [register] at allocated held
  have writer : youngestWriter pairCPU.delivered 1 1 = some 0 := by decide +kernel
  rw [allocationEvent_writer writer] at held
  refine ⟨first,instr,List.mem_of_getElem? here,facts.1,writer,physReg,renamed,?_,held⟩
  generalize pairCPU = cpu at allocated ⊢
  exact allocated

end
end FlowSim.Cpu
