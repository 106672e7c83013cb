import FlowSim.Cpu.Ledger
import FlowSim.Cpu.LoadStore

/-!
The core keeps the books: what its stages do to the loads and stores of its instructions,
told as what happens in the ledger. Retiring makes instructions leave, the answers of the
pending operations complete entries, and all other stages are moves.
-/
namespace FlowSim.Cpu
set_option linter.unusedSimpArgs false

def OOOModelInstr.operands (instr : OOOModelInstr) : AccessType → List UInt64
  | .load => instr.srcMemory
  | .store => instr.destMemory

def OOOModelInstr.work (instr : OOOModelInstr) : Work :=
  ⟨instr.instrID,instr.operands,instr.executed,instr.completed,instr.completedMemOps⟩

def LoadStoreQueue.queue (lsq : LoadStoreQueue) : AccessType → List LSQEntry
  | .load => lsq.loadQueue
  | .store => lsq.storeQueue

namespace O3CPU

/-- The ledger of a core. -/
def ledger (cpu : O3CPU) : Ledger where
  works := cpu.rob.buffer.map OOOModelInstr.work
  coming := (cpu.decodeQueue ++ cpu.fetchQueue).map OOOModelInstr.work
  next := cpu.instrCounter
  entries := cpu.lsq.queue
  accesses := cpu.accesses
  awaited := cpu.pendingLoads.map PendingMemOp.instrID ++ cpu.pendingStores.map PendingMemOp.instrID

/-- How the core is set up. -/
def mode (cpu : O3CPU) : Bool × Option (Nat → Nat) := (cpu.standaloneMode,cpu.l1dCache)

/-- The pending operations whose data is there in a cycle. -/
def due (cpu : O3CPU) (currentCycle : Nat) : AccessType → List Nat
  | .load => (cpu.pendingLoads.filter (fun op => op.due currentCycle)).map PendingMemOp.instrID
  | .store => (cpu.pendingStores.filter (fun op => op.due currentCycle)).map PendingMemOp.instrID

end O3CPU

section
variable {cpu cpu' cpu'' : O3CPU}

/-- Work that is moves in the ledger. -/
def Moves (cpu cpu' : O3CPU) : Prop := Relation.ReflTransGen Ledger.Move cpu.ledger cpu'.ledger ∧ cpu'.mode = cpu.mode

theorem Moves.refl (cpu : O3CPU) : Moves cpu cpu := ⟨.refl,rfl⟩

theorem Moves.trans (first : Moves cpu cpu') (second : Moves cpu' cpu'') : Moves cpu cpu'' :=
  ⟨first.1.trans second.1,second.2.trans first.2⟩

theorem Moves.single (moved : Ledger.Move cpu.ledger cpu'.ledger) (mode : cpu'.mode = cpu.mode) : Moves cpu cpu' :=
  ⟨.single moved,mode⟩

theorem Moves.same (ledger : cpu'.ledger = cpu.ledger) (mode : cpu'.mode = cpu.mode) : Moves cpu cpu' :=
  ⟨ledger ▸ .refl,mode⟩

/-- The instruction at a place, and the list with another one there. -/
theorem split_place {rob : ReorderBuffer} {i : Nat} {x : OOOModelInstr} (found : rob.peekAt i = some x) :
    ∃ before after, rob.buffer = before ++ x :: after ∧ ∀ y, (rob.set i y).buffer = before ++ y :: after := by
  obtain ⟨inside,rfl⟩ := List.getElem?_eq_some_iff.mp found
  refine ⟨rob.buffer.take i,rob.buffer.drop (i + 1),?_,fun y => ?_⟩
  · rw [List.cons_getElem_drop_succ,List.take_append_drop]
  · show rob.buffer.set i y = _
    rw [List.set_eq_take_append_cons_drop,if_pos inside]

/-- The works of the reorder buffer, and those with another instruction at a place. -/
theorem works_at {i : Nat} {instr : OOOModelInstr} (found : cpu.rob.peekAt i = some instr) :
    ∃ before after, cpu.ledger.works = before ++ instr.work :: after ∧
      ∀ y, (cpu.rob.set i y).buffer.map OOOModelInstr.work = before ++ y.work :: after := by
  obtain ⟨before,after,here,changed⟩ := split_place found
  refine ⟨before.map OOOModelInstr.work,after.map OOOModelInstr.work,?_,fun y => ?_⟩
  · simp only [O3CPU.ledger]
    rw [here,List.map_append,List.map_cons]
  · rw [changed,List.map_append,List.map_cons]

/-! ### Memory responses -/

theorem works_countMemOp (instrID : Nat) : ∀ buffer : List OOOModelInstr,
    (buffer.findIdx? (fun instr => instr.instrID = instrID) = none →
      Ledger.countWork instrID (buffer.map OOOModelInstr.work) = buffer.map OOOModelInstr.work) ∧
    ∀ i, buffer.findIdx? (fun instr => instr.instrID = instrID) = some i → ∃ x, buffer[i]? = some x ∧
      (buffer.set i { x with completedMemOps := x.completedMemOps + 1 }).map OOOModelInstr.work =
        Ledger.countWork instrID (buffer.map OOOModelInstr.work)
  | [] => ⟨fun _ => rfl,fun _ found => by simp at found⟩
  | instr :: rest => by
    obtain ⟨absent,present⟩ := works_countMemOp instrID rest
    rw [List.findIdx?_cons,List.map_cons,Ledger.countWork]
    by_cases same : instr.instrID = instrID
    · rw [if_pos (decide_eq_true same),if_pos (show instr.work.instrID = instrID from same)]
      refine ⟨fun found => (by cases found),fun i found => ?_⟩
      obtain rfl := Option.some.inj found
      exact ⟨instr,rfl,rfl⟩
    · rw [if_neg (by simpa using same),if_neg (show instr.work.instrID ≠ instrID from same)]
      refine ⟨fun found => ?_,fun i found => ?_⟩
      · rw [absent (Option.map_eq_none_iff.mp found)]
      · obtain ⟨j,found',rfl⟩ := Option.map_eq_some_iff.mp found
        obtain ⟨x,here,changed⟩ := present j found'
        refine ⟨x,here,?_⟩
        rw [List.set_cons_succ,List.map_cons,changed]

theorem ledger_countMemOp (cpu : O3CPU) (instrID : Nat) :
    (∃ rob, cpu.countMemOp instrID = { cpu with rob }) ∧
      (cpu.countMemOp instrID).ledger = { cpu.ledger with works := Ledger.countWork instrID cpu.ledger.works } := by
  obtain ⟨absent,present⟩ := works_countMemOp instrID cpu.rob.buffer
  unfold O3CPU.countMemOp
  rcases found : cpu.rob.findByInstrID instrID with _ | i
  · refine ⟨⟨_,rfl⟩,?_⟩
    simp only [O3CPU.ledger]
    rw [absent found]
  · obtain ⟨x,here,changed⟩ := present i found
    dsimp only
    rw [show cpu.rob.peekAt i = some x from here]
    refine ⟨⟨_,rfl⟩,?_⟩
    simp only [O3CPU.ledger]
    rw [← changed]
    rfl

theorem queue_loadQueue (lsq : LoadStoreQueue) (loadQueue : List LSQEntry) :
    { lsq with loadQueue }.queue = Function.update lsq.queue .load loadQueue := by
  funext accessType
  cases accessType with
  | load => rw [Function.update_self]; rfl
  | store => rw [Function.update_of_ne (by decide)]; rfl

theorem queue_storeQueue (lsq : LoadStoreQueue) (storeQueue : List LSQEntry) :
    { lsq with storeQueue }.queue = Function.update lsq.queue .store storeQueue := by
  funext accessType
  cases accessType with
  | load => rw [Function.update_of_ne (by decide)]; rfl
  | store => rw [Function.update_self]; rfl

/-- A response completes the first load that is left of its instruction. -/
theorem ledger_handleLoadResponse (cpu : O3CPU) (instrID cycle : Nat) :
    (∃ rob lsq, (cpu.handleLoadResponse instrID cycle).1 = { cpu with rob, lsq }) ∧
      (cpu.handleLoadResponse instrID cycle).1.ledger = cpu.ledger.complete .load instrID cycle := by
  have entries : cpu.ledger.entries .load = cpu.lsq.loadQueue := rfl
  unfold O3CPU.handleLoadResponse LoadStoreQueue.handleLoadResponse Ledger.complete
  rw [entries]
  rcases completeEntry instrID cycle cpu.lsq.loadQueue with _ | loadQueue
  · exact ⟨⟨_,_,rfl⟩,rfl⟩
  · obtain ⟨⟨rob,same⟩,works⟩ := ledger_countMemOp { cpu with lsq := { cpu.lsq with loadQueue } } instrID
    refine ⟨⟨rob,{ cpu.lsq with loadQueue },same⟩,works.trans ?_⟩
    simp only [O3CPU.ledger,queue_loadQueue]

theorem ledger_handleStoreResponse (cpu : O3CPU) (instrID cycle : Nat) :
    (∃ rob lsq, (cpu.handleStoreResponse instrID cycle).1 = { cpu with rob, lsq }) ∧
      (cpu.handleStoreResponse instrID cycle).1.ledger = cpu.ledger.complete .store instrID cycle := by
  have entries : cpu.ledger.entries .store = cpu.lsq.storeQueue := rfl
  unfold O3CPU.handleStoreResponse LoadStoreQueue.handleStoreResponse Ledger.complete
  rw [entries]
  rcases completeEntry instrID cycle cpu.lsq.storeQueue with _ | storeQueue
  · exact ⟨⟨_,_,rfl⟩,rfl⟩
  · obtain ⟨⟨rob,same⟩,works⟩ := ledger_countMemOp { cpu with lsq := { cpu.lsq with storeQueue } } instrID
    refine ⟨⟨rob,{ cpu.lsq with storeQueue },same⟩,works.trans ?_⟩
    simp only [O3CPU.ledger,queue_storeQueue]

theorem Ledger.complete_awaited (l : Ledger) (awaited : List Nat) (accessType : AccessType) (instrID cycle : Nat) :
    { l with awaited }.complete accessType instrID cycle = { l.complete accessType instrID cycle with awaited } := by
  unfold Ledger.complete
  dsimp only
  split <;> rfl

theorem Ledger.completeAll_awaited (awaited : List Nat) (accessType : AccessType) (cycle : Nat) : ∀ (ids : List Nat) (l : Ledger),
    { l with awaited }.completeAll accessType cycle ids = { l.completeAll accessType cycle ids with awaited }
  | [], _ => rfl
  | id :: rest, l => by
    rw [Ledger.completeAll,List.foldl_cons,Ledger.complete_awaited]
    exact Ledger.completeAll_awaited awaited accessType cycle rest _

/-- Responses one after the other. -/
theorem ledger_responses {accessType : AccessType} {cycle : Nat} {respond : O3CPU → Nat → O3CPU}
    (each : ∀ cpu instrID, (∃ rob lsq, respond cpu instrID = { cpu with rob, lsq }) ∧
      (respond cpu instrID).ledger = cpu.ledger.complete accessType instrID cycle) :
    ∀ (ops : List PendingMemOp) (cpu : O3CPU), let answered := ops.foldl (fun now op => respond now op.instrID) cpu
      (∃ rob lsq, answered = { cpu with rob, lsq }) ∧
        answered.ledger = cpu.ledger.completeAll accessType cycle (ops.map PendingMemOp.instrID)
  | [], _ => ⟨⟨_,_,rfl⟩,rfl⟩
  | op :: rest, cpu => by
    obtain ⟨⟨rob,lsq,same⟩,ledger⟩ := each cpu op.instrID
    obtain ⟨⟨rob',lsq',same'⟩,ledger'⟩ := ledger_responses each rest (respond cpu op.instrID)
    refine ⟨⟨rob',lsq',?_⟩,?_⟩
    · rw [List.foldl_cons,same',same]
    · rw [List.foldl_cons,ledger',ledger]
      rfl

/-- The pending operations whose data is there are answered. -/
theorem ledger_processPendingMemOps (cpu : O3CPU) : ∃ awaited, awaited ⊆ cpu.ledger.awaited ∧
    cpu.processPendingMemOps.mode = cpu.mode ∧ cpu.processPendingMemOps.ledger =
      { (cpu.ledger.completeAll .load cpu.currentCycle (cpu.due cpu.currentCycle .load)).completeAll .store cpu.currentCycle
          (cpu.due cpu.currentCycle .store) with awaited } := by
  obtain ⟨⟨rob,lsq,same⟩,ledger⟩ := ledger_responses (fun cpu' instrID => ledger_handleLoadResponse cpu' instrID cpu.currentCycle)
    (cpu.pendingLoads.filter (fun op => op.due cpu.currentCycle)) cpu
  have loaded : cpu.processPendingLoads =
      { cpu with rob, lsq, pendingLoads := cpu.pendingLoads.filter (fun op => !op.due cpu.currentCycle) } := by
    unfold O3CPU.processPendingLoads
    rw [same]
  have loaded_ledger : cpu.processPendingLoads.ledger =
      { cpu.ledger.completeAll .load cpu.currentCycle (cpu.due cpu.currentCycle .load) with
        awaited := cpu.processPendingLoads.ledger.awaited } := by
    rw [O3CPU.due,← ledger,loaded,same]
    rfl
  obtain ⟨⟨rob',lsq',same'⟩,ledger'⟩ := ledger_responses
    (fun cpu' instrID => ledger_handleStoreResponse cpu' instrID cpu.currentCycle)
    (cpu.pendingStores.filter (fun op => op.due cpu.currentCycle)) cpu.processPendingLoads
  have stored : cpu.processPendingMemOps = { cpu.processPendingLoads with
      rob := rob', lsq := lsq', pendingStores := cpu.pendingStores.filter (fun op => !op.due cpu.currentCycle) } := by
    unfold O3CPU.processPendingMemOps O3CPU.processPendingStores
    have times : cpu.processPendingLoads.currentCycle = cpu.currentCycle ∧
        cpu.processPendingLoads.pendingStores = cpu.pendingStores := by
      rw [loaded]
      exact ⟨rfl,rfl⟩
    rw [times.1,times.2,same']
  refine ⟨cpu.processPendingMemOps.ledger.awaited,?_,?_,?_⟩
  · rw [stored,loaded]
    refine List.append_subset.mpr ⟨?_,?_⟩
    · exact fun id member => List.mem_append_left _ ((List.filter_sublist.map _).subset member)
    · exact fun id member => List.mem_append_right _ ((List.filter_sublist.map _).subset member)
  · rw [stored,loaded]
    rfl
  · have filtered : cpu.processPendingMemOps.ledger = { cpu.processPendingLoads.ledger.completeAll .store cpu.currentCycle
        (cpu.due cpu.currentCycle .store) with awaited := cpu.processPendingMemOps.ledger.awaited } := by
      rw [O3CPU.due,← ledger',stored,same']
      rfl
    rw [filtered,loaded_ledger,Ledger.completeAll_awaited]

/-! ### Retire -/

/-- What stays of the core when instructions retire. -/
structure Leaves (cpu cpu' : O3CPU) : Prop where
  ledger : Relation.ReflTransGen Ledger.Leave cpu.ledger cpu'.ledger
  mode : cpu'.mode = cpu.mode
  pending : cpu'.pendingLoads = cpu.pendingLoads ∧ cpu'.pendingStores = cpu.pendingStores
  time : cpu'.currentCycle = cpu.currentCycle

theorem flush_sublist (rob : ReorderBuffer) (instrID : Nat) : (rob.flush instrID).buffer.Sublist rob.buffer := by
  unfold ReorderBuffer.flush
  split
  · exact .refl _
  · exact List.take_sublist ..

theorem leaves_retireInstr {instr : OOOModelInstr} {rob : ReorderBuffer} (taken : cpu.rob.retire = some (instr,rob)) :
    Leaves cpu ({ cpu with rob }.retireInstr instr) := by
  obtain ⟨buffer,_,completed⟩ := retire_some taken
  have here : cpu.ledger.works = instr.work :: rob.buffer.map OOOModelInstr.work := by
    simp only [O3CPU.ledger]
    rw [buffer,List.map_cons]
  -- the queues lose an entry each, if the instruction has such operations
  let lsq := if instr.isStore then (if instr.isLoad then cpu.lsq.removeLoad instr.instrID else cpu.lsq).removeStore instr.instrID
    else if instr.isLoad then cpu.lsq.removeLoad instr.instrID else cpu.lsq
  have removed : ∀ accessType, lsq.queue accessType = cpu.lsq.queue accessType ∨
      lsq.queue accessType = (cpu.lsq.queue accessType).eraseP (fun entry => entry.instrID = instr.work.instrID) := by
    intro accessType
    unfold lsq
    cases accessType with
    | load =>
      split_ifs
      · exact .inr rfl
      · exact .inl rfl
      · exact .inr rfl
      · exact .inl rfl
    | store =>
      split_ifs
      · exact .inr rfl
      · exact .inr rfl
      · exact .inl rfl
      · exact .inl rfl
  unfold O3CPU.retireInstr
  dsimp only
  split
  · refine ⟨.single ?_,rfl,⟨rfl,rfl⟩,rfl⟩
    exact .retire here completed ((flush_sublist rob instr.instrID).map OOOModelInstr.work) (List.nil_sublist _) removed
  · refine ⟨.single ?_,rfl,⟨rfl,rfl⟩,rfl⟩
    exact .retire here completed (.refl _) (.refl _) removed

theorem Leaves.refl (cpu : O3CPU) : Leaves cpu cpu := ⟨.refl,rfl,⟨rfl,rfl⟩,rfl⟩

theorem Leaves.trans (first : Leaves cpu cpu') (second : Leaves cpu' cpu'') : Leaves cpu cpu'' where
  ledger := first.ledger.trans second.ledger
  mode := second.mode.trans first.mode
  pending := ⟨second.pending.1.trans first.pending.1,second.pending.2.trans first.pending.2⟩
  time := second.time.trans first.time

theorem leaves_retireLoop (width : Nat) (cpu : O3CPU) : Leaves cpu (O3CPU.retireLoop width cpu) :=
  O3CPU.retireLoop_rule (P := Leaves cpu) (fun _ _ _ left taken => left.trans (leaves_retireInstr taken)) width (.refl cpu)

/-! ### Complete and execute -/

theorem moves_doCompleteExecution {i : Nat} {instr : OOOModelInstr} (found : cpu.rob.peekAt i = some instr)
    (executed : instr.executed = true) (all : instr.numMemOps ≤ instr.completedMemOps) :
    Moves cpu (cpu.doCompleteExecution i instr) := by
  obtain ⟨before,after,works,changed⟩ := works_at found
  have finished := @Ledger.Move.finish cpu.ledger _ _ _ works executed all
  have same : (cpu.doCompleteExecution i instr).ledger =
      { cpu.ledger with works := before ++ { instr.work with completed := true } :: after } := by
    simp only [O3CPU.ledger,O3CPU.doCompleteExecution]
    rw [changed]
    rfl
  exact .single (same ▸ finished) rfl

theorem moves_completeLoop (remaining i completeCount : Nat) (cpu : O3CPU) :
    Moves cpu (O3CPU.completeLoop remaining i completeCount cpu) :=
  O3CPU.completeLoop_rule (P := Moves cpu)
    (fun _ _ _ moved found executed all => moved.trans (moves_doCompleteExecution found executed all))
    remaining i completeCount (.refl cpu)

/-- The accesses of an instruction's operands, and what is pending for them. -/
theorem accesses_foldl {cache : Nat → Nat} {instrID : Nat} {accessType : AccessType} {access : O3CPU → UInt64 → O3CPU}
    {pending : O3CPU → List PendingMemOp} {give : O3CPU → List CacheAccess → List PendingMemOp → O3CPU}
    (each : ∀ cpu addr, cpu.standaloneMode = false → access cpu addr = if addr = 0 then cpu else
      give cpu (cpu.accesses ++ [⟨addr,addr,instrID,accessType,cpu.currentCycle⟩])
        (pending cpu ++ [⟨instrID,cache cpu.accesses.length⟩]))
    (given : ∀ cpu accesses ops, (give cpu accesses ops).accesses = accesses ∧ pending (give cpu accesses ops) = ops ∧
      (give cpu accesses ops).standaloneMode = cpu.standaloneMode ∧
      ∀ accesses' ops', give (give cpu accesses ops) accesses' ops' = give cpu accesses' ops')
    (same : ∀ cpu, give cpu cpu.accesses (pending cpu) = cpu) :
    ∀ (addrs : List UInt64) (cpu : O3CPU), cpu.standaloneMode = false → ∃ made ops,
      addrs.foldl access cpu = give cpu (cpu.accesses ++ made) (pending cpu ++ ops) ∧
        ops.map PendingMemOp.instrID = made.map CacheAccess.instrID ∧
        ∀ a ∈ made, a.instrID = instrID ∧ a.accessType = accessType ∧ a.addr ∈ addrs
  | [], cpu, _ => ⟨[],[],by simp [same],rfl,fun _ member => absurd member List.not_mem_nil⟩
  | addr :: rest, cpu, attached => by
    rw [List.foldl_cons,each cpu addr attached]
    split
    · obtain ⟨made,ops,eq,ids,mine⟩ := accesses_foldl each given same rest cpu attached
      exact ⟨made,ops,eq,ids,fun a member => ⟨(mine a member).1,(mine a member).2.1,List.mem_cons_of_mem _ (mine a member).2.2⟩⟩
    · obtain ⟨accesses,pending_,mode,again⟩ := given cpu
        (cpu.accesses ++ [⟨addr,addr,instrID,accessType,cpu.currentCycle⟩]) (pending cpu ++ [⟨instrID,cache cpu.accesses.length⟩])
      obtain ⟨made,ops,eq,ids,mine⟩ := accesses_foldl each given same rest _ (mode.trans attached)
      rw [accesses,pending_,again,List.append_assoc,List.append_assoc] at eq
      refine ⟨_,_,eq,?_,?_⟩
      · simp [ids]
      · intro a member
        rcases List.mem_append.mp member with first | later
        · obtain rfl := List.mem_singleton.mp first
          exact ⟨rfl,rfl,List.mem_cons_self⟩
        · exact ⟨(mine a later).1,(mine a later).2.1,List.mem_cons_of_mem _ (mine a later).2.2⟩

theorem loads_foldl (cache : Nat → Nat) (instrID : Nat) (addrs : List UInt64) (cpu : O3CPU) (attached : cpu.standaloneMode = false) :
    ∃ made ops, addrs.foldl (O3CPU.accessLoad cache instrID) cpu =
        { cpu with accesses := cpu.accesses ++ made, pendingLoads := cpu.pendingLoads ++ ops } ∧
      ops.map PendingMemOp.instrID = made.map CacheAccess.instrID ∧
      ∀ a ∈ made, a.instrID = instrID ∧ a.accessType = .load ∧ a.addr ∈ addrs := by
  refine @accesses_foldl cache instrID .load (O3CPU.accessLoad cache instrID) O3CPU.pendingLoads
    (fun cpu accesses pendingLoads => { cpu with accesses, pendingLoads }) ?_ (fun _ _ _ => ⟨rfl,rfl,rfl,fun _ _ => rfl⟩) (fun _ => rfl)
    addrs cpu attached
  intro cpu addr attached
  unfold O3CPU.accessLoad O3CPU.access
  dsimp only
  rw [attached,if_neg Bool.false_ne_true]

theorem stores_foldl (cache : Nat → Nat) (instrID : Nat) (addrs : List UInt64) (cpu : O3CPU) (attached : cpu.standaloneMode = false) :
    ∃ made ops, addrs.foldl (O3CPU.accessStore cache instrID) cpu =
        { cpu with accesses := cpu.accesses ++ made, pendingStores := cpu.pendingStores ++ ops } ∧
      ops.map PendingMemOp.instrID = made.map CacheAccess.instrID ∧
      ∀ a ∈ made, a.instrID = instrID ∧ a.accessType = .store ∧ a.addr ∈ addrs := by
  refine @accesses_foldl cache instrID .store (O3CPU.accessStore cache instrID) O3CPU.pendingStores
    (fun cpu accesses pendingStores => { cpu with accesses, pendingStores }) ?_ (fun _ _ _ => ⟨rfl,rfl,rfl,fun _ _ => rfl⟩) (fun _ => rfl)
    addrs cpu attached
  intro cpu addr attached
  unfold O3CPU.accessStore O3CPU.access
  dsimp only
  rw [attached,if_neg Bool.false_ne_true]

/-- A core whose cache answers its accesses later. -/
structure Attached (cpu : O3CPU) : Prop where
  framework : cpu.standaloneMode = false
  cached : cpu.l1dCache.isSome = true

theorem Attached.moves (attached : Attached cpu) (mode : cpu'.mode = cpu.mode) : Attached cpu' := by
  obtain ⟨framework,cached⟩ := Prod.mk.inj mode
  exact ⟨framework.trans attached.framework,cached ▸ attached.cached⟩

theorem executeMemoryOperation_attached (attached : Attached cpu) (instr : OOOModelInstr) : ∃ made load_ops store_ops,
    cpu.executeMemoryOperation instr = { cpu with
      accesses := cpu.accesses ++ made
      pendingLoads := cpu.pendingLoads ++ load_ops
      pendingStores := cpu.pendingStores ++ store_ops } ∧
    (load_ops ++ store_ops).map PendingMemOp.instrID = made.map CacheAccess.instrID ∧
    ∀ a ∈ made, a.instrID = instr.instrID ∧ a.addr ∈ instr.operands a.accessType := by
  unfold O3CPU.executeMemoryOperation
  split
  · next cache _ =>
    obtain ⟨loads,load_ops,load_eq,load_ids,my_loads⟩ := loads_foldl cache instr.instrID instr.srcMemory cpu attached.framework
    obtain ⟨stores,store_ops,store_eq,store_ids,my_stores⟩ := stores_foldl cache instr.instrID instr.destMemory
      { cpu with accesses := cpu.accesses ++ loads, pendingLoads := cpu.pendingLoads ++ load_ops } attached.framework
    refine ⟨loads ++ stores,load_ops,store_ops,?_,?_,?_⟩
    · dsimp only
      rw [load_eq,store_eq,← List.append_assoc]
      exact if_neg (by rw [attached.framework]; decide)
    · rw [List.map_append,List.map_append,load_ids,store_ids]
    · intro a member
      rcases List.mem_append.mp member with load | store
      · obtain ⟨id,type,addr⟩ := my_loads a load
        refine ⟨id,?_⟩
        rw [type]
        exact addr
      · obtain ⟨id,type,addr⟩ := my_stores a store
        refine ⟨id,?_⟩
        rw [type]
        exact addr
  · next uncached =>
    have cached := attached.cached
    rw [uncached] at cached
    cases cached

/-- An instruction is executed with the accesses of its operands. -/
theorem moves_executeInstr (attached : Attached cpu) {i : Nat} {instr : OOOModelInstr} (found : cpu.rob.peekAt i = some instr)
    (first : instr.executed = false) : Moves cpu (cpu.executeInstr i instr) := by
  obtain ⟨before,after,works,changed⟩ := works_at found
  let ran := { instr with executed := true, readyTime := cpu.currentCycle + cpu.config.executeLatency }
  have set : (cpu.rob.set i ran).buffer.map OOOModelInstr.work = before ++ { instr.work with executed := true } :: after :=
    changed ran
  have attached' : Attached { cpu with rob := cpu.rob.set i ran } := attached.moves rfl
  obtain ⟨made,load_ops,store_ops,eq,ids,mine⟩ := executeMemoryOperation_attached attached' ran
  unfold O3CPU.executeInstr
  dsimp only
  split
  · have moved := @Ledger.Move.execute cpu.ledger _ _ _ made
      ((cpu.pendingLoads ++ load_ops).map PendingMemOp.instrID ++ (cpu.pendingStores ++ store_ops).map PendingMemOp.instrID)
      works first mine ?_
    · rw [← set] at moved
      refine .single ?_ ?_
      · rw [eq]
        exact moved
      · rw [eq]
        rfl
    · intro id member
      rw [← ids]
      simp only [O3CPU.ledger,List.map_append,List.mem_append] at member ⊢
      tauto
  · refine .single ?_ rfl
    have moved := @Ledger.Move.execute cpu.ledger _ _ _ [] cpu.ledger.awaited works first
      (fun _ member => absurd member List.not_mem_nil) (fun _ member => .inl member)
    rw [← set,List.append_nil] at moved
    exact moved

theorem moves_executeLoop (remaining i executeCount : Nat) (attached : Attached cpu) :
    Moves cpu (O3CPU.executeLoop remaining i executeCount cpu) :=
  O3CPU.executeLoop_rule (P := Moves cpu)
    (fun _ _ _ moved found _ first => moved.trans (moves_executeInstr (attached.moves moved.2) found first))
    remaining i executeCount (.refl cpu)

/-! ### Schedule -/

/-- Renaming an instruction's registers is nothing to the ledger. -/
theorem moves_doScheduling {i : Nat} {instr : OOOModelInstr} (found : cpu.rob.peekAt i = some instr)
    (scheduled : cpu.doScheduling i instr = .ok cpu') : Moves cpu cpu' := by
  obtain ⟨srcRegisters,_,destRegisters,_,_,_,rfl⟩ := O3CPU.doScheduling_ok scheduled
  obtain ⟨before,after,works,changed⟩ := works_at found
  refine .same ?_ rfl
  have same : (cpu.rob.set i { instr with srcRegisters, destRegisters, scheduled := true }).buffer.map OOOModelInstr.work =
      cpu.ledger.works := (changed _).trans works.symm
  simp only [O3CPU.ledger] at same ⊢
  rw [same]

theorem moves_schedule (scheduled : cpu.schedule = .ok cpu') : Moves cpu cpu' :=
  O3CPU.scheduleLoop_rule (P := Moves cpu) (fun _ _ _ _ moved found done => moved.trans (moves_doScheduling found done))
    cpu.rob.size 0 0 (.refl cpu) scheduled

/-! ### Dispatch, decode and fetch -/

/-- Adding entries one after the other adds some of them, in order. -/
theorem added_foldl {entry : UInt64 → LSQEntry} {queue other : LoadStoreQueue → List LSQEntry}
    {add : LoadStoreQueue → UInt64 → LoadStoreQueue} (each : ∀ lsq addr, add lsq addr = lsq ∨
      queue (add lsq addr) = queue lsq ++ [entry addr] ∧ other (add lsq addr) = other lsq) :
    ∀ (addrs : List UInt64) (lsq : LoadStoreQueue), other (addrs.foldl add lsq) = other lsq ∧ ∃ some_ : List UInt64,
      some_.Sublist addrs ∧ queue (addrs.foldl add lsq) = queue lsq ++ some_.map entry
  | [], lsq => ⟨rfl,[],.slnil,(List.append_nil _).symm⟩
  | addr :: rest, lsq => by
    obtain ⟨others,some_,sub,grown⟩ := added_foldl each rest (add lsq addr)
    rw [List.foldl_cons]
    rcases each lsq addr with full | ⟨added,same⟩
    · rw [full] at others grown ⊢
      exact ⟨others,some_,sub.cons _,grown⟩
    · refine ⟨others.trans same,addr :: some_,sub.cons_cons _,?_⟩
      rw [grown,added,List.append_assoc]
      rfl

theorem doMemoryScheduling_added (cpu : O3CPU) (instr : OOOModelInstr) : ∃ lsq, cpu.doMemoryScheduling instr = { cpu with lsq } ∧
    ∀ accessType, ∃ new, lsq.queue accessType = cpu.lsq.queue accessType ++ new ∧
      (∀ entry ∈ new, entry.instrID = instr.instrID ∧ entry.completed = false) ∧
      (new.map LSQEntry.virtualAddr).Sublist (instr.operands accessType) := by
  let entry (addr : UInt64) := newLSQEntry instr.instrID addr (cpu.currentCycle + cpu.config.dispatchLatency)
  have of_entries : ∀ {some_ addrs : List UInt64}, some_.Sublist addrs → (∀ e ∈ some_.map entry, e.instrID = instr.instrID ∧
      e.completed = false) ∧ ((some_.map entry).map LSQEntry.virtualAddr).Sublist addrs := by
    intro some_ addrs sub
    refine ⟨fun e member => ?_,?_⟩
    · obtain ⟨addr,_,rfl⟩ := List.mem_map.mp member
      exact ⟨rfl,rfl⟩
    · rw [List.map_map,show LSQEntry.virtualAddr ∘ entry = id from rfl,List.map_id]
      exact sub
  obtain ⟨stores_same,loads,loads_sub,loads_grown⟩ := @added_foldl entry LoadStoreQueue.loadQueue LoadStoreQueue.storeQueue
    (fun lsq addr => lsq.addLoad (entry addr)) (fun lsq addr => by
      unfold LoadStoreQueue.addLoad
      split
      · exact .inl rfl
      · exact .inr ⟨rfl,rfl⟩) instr.srcMemory cpu.lsq
  obtain ⟨loads_same,stores,stores_sub,stores_grown⟩ := @added_foldl entry LoadStoreQueue.storeQueue LoadStoreQueue.loadQueue
    (fun lsq addr => lsq.addStore (entry addr)) (fun lsq addr => by
      unfold LoadStoreQueue.addStore
      split
      · exact .inl rfl
      · exact .inr ⟨rfl,rfl⟩) instr.destMemory (instr.srcMemory.foldl (fun lsq addr => lsq.addLoad (entry addr)) cpu.lsq)
  refine ⟨_,rfl,fun accessType => ?_⟩
  unfold OOOModelInstr.isLoad OOOModelInstr.isStore
  rw [foldl_of_some,foldl_of_some]
  cases accessType with
  | load => exact ⟨loads.map entry,loads_same.trans loads_grown,of_entries loads_sub⟩
  | store => exact ⟨stores.map entry,stores_grown.trans (by rw [stores_same]; rfl),of_entries stores_sub⟩

theorem moves_dispatchedFirst {instr : OOOModelInstr} {rest : List OOOModelInstr} (queue : cpu.decodeQueue = instr :: rest) :
    Moves cpu (cpu.dispatchedFirst instr rest) := by
  obtain ⟨lsq,eq,grown⟩ := doMemoryScheduling_added { cpu with rob := { cpu.rob with buffer := cpu.rob.buffer ++
      [{ instr with readyTime := cpu.currentCycle + cpu.config.dispatchLatency }] } } instr
  rw [O3CPU.dispatchedFirst,eq]
  refine .single ?_ rfl
  have coming : cpu.ledger.coming = instr.work :: (rest ++ cpu.fetchQueue).map OOOModelInstr.work := by
    simp only [O3CPU.ledger]
    rw [queue]
    rfl
  have entered := @Ledger.Move.enter cpu.ledger _ _ lsq.queue coming grown
  simp only [O3CPU.ledger] at entered ⊢
  rw [@List.map_append _ _ _ cpu.rob.buffer]
  exact entered

theorem moves_decodedFirst {instr : OOOModelInstr} {rest : List OOOModelInstr} (queue : cpu.fetchQueue = instr :: rest) :
    Moves cpu (cpu.decodedFirst instr rest) := by
  refine .same ?_ rfl
  simp only [O3CPU.ledger,O3CPU.decodedFirst]
  rw [queue]
  simp only [List.append_assoc,List.map_append,List.map_cons,List.cons_append,List.nil_append]
  rfl

theorem moves_fetched (cpu : O3CPU) (read : TraceInstr) : Moves cpu (cpu.fetched read) := by
  let instr := { OOOModelInstr.ofTrace read with
    instrID := cpu.instrCounter
    readyTime := cpu.currentCycle + cpu.config.fetchLatency
    fetchIssued := true }
  refine .single ?_ rfl
  have moved := @Ledger.Move.fetch cpu.ledger instr.work ⟨rfl,rfl,rfl⟩ rfl
  simp only [O3CPU.ledger,O3CPU.fetched] at moved ⊢
  rw [← List.append_assoc,@List.map_append _ _ _ _ [_]]
  exact moved

theorem moves_fetch (cpu : O3CPU) : Moves cpu cpu.fetch :=
  O3CPU.fetch_rule (P := Moves cpu) (fun _ moved _ => moved.trans (.same rfl rfl))
    (fun _ _ moved _ => moved.trans (moves_fetched ..)) (.refl cpu)

/-- Dispatching, decoding and fetching. -/
theorem moves_incoming (cpu : O3CPU) : Moves cpu cpu.dispatch.decode.fetch := by
  have dispatched : Moves cpu cpu.dispatch :=
    O3CPU.dispatch_rule (P := Moves cpu) (fun _ _ _ moved queue => moved.trans (moves_dispatchedFirst queue)) (.refl cpu)
  have decoded : Moves cpu.dispatch cpu.dispatch.decode :=
    O3CPU.decode_rule (P := Moves cpu.dispatch) (fun _ _ _ moved queue => moved.trans (moves_decodedFirst queue)) (.refl _)
  exact dispatched.trans (decoded.trans (moves_fetch _))

/-! ### A cycle -/

/-- The core once the pending operations of a cycle are answered. -/
def O3CPU.answered (cpu : O3CPU) : O3CPU := { cpu with currentCycle := cpu.currentCycle + 1 }.retire.processPendingMemOps

theorem moves_after_answers (attached : Attached cpu) (ticked : cpu.tick = .ok cpu') : Moves cpu.answered cpu' := by
  have retired := leaves_retireLoop cpu.config.retireWidth { cpu with currentCycle := cpu.currentCycle + 1 }
  obtain ⟨_,_,answered,_⟩ := ledger_processPendingMemOps { cpu with currentCycle := cpu.currentCycle + 1 }.retire
  have attached' : Attached cpu.answered := attached.moves (answered.trans retired.mode)
  have completed : Moves cpu.answered cpu.answered.completeInflightInstruction := moves_completeLoop ..
  have executed : Moves cpu.answered.completeInflightInstruction cpu.answered.completeInflightInstruction.execute :=
    moves_executeLoop _ _ _ (attached'.moves completed.2)
  obtain ⟨mid,scheduled,rfl⟩ := tick_ok ticked
  exact completed.trans <| executed.trans <| (moves_schedule scheduled).trans (moves_incoming mid)

end
end FlowSim.Cpu
