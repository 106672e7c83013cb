import FlowSim.Transaction.Routing

/-!
What a yield command does at the node that hosts its transaction. The manager
that started the transaction and a manager it has migrated to interpret the same
commands in two functions. The messages agree; the operations are executed only
at home, and only a Complete elsewhere ends a registered wait.
-/
namespace FlowSim.Transaction
open FlowSim.Lib
set_option linter.unusedSimpArgs false

variable {P : Type}

/-! ### The wait of a hosted transaction -/

/-- A transaction that its manager holds is nowhere a migrated one. -/
theorem OneHolder.not_migrated {s : System P} (one : OneHolder s) {node place : Int} {mtxn : MigratedTxn}
    (active : mtxn.channels ∈ (s.managers node).activeTxns) : mtxn ∉ (s.managers place).migratedTxns := by
  intro entry
  have heldActive : HeldBy s mtxn.channels (.active node) := active
  have heldMigrated : HeldBy s mtxn.channels (.migrated place) := by
    rw [one.own_channels entry]
    exact List.mem_map_of_mem entry
  cases one.unique heldActive heldMigrated

theorem waits_active {s : System P} (one : OneHolder s) {node : Int} {id : TransactionID} {wait : WaitForMessage}
    (active : id ∈ (s.managers node).activeTxns) : Waits s node id wait ↔ (s.txns id).waiting = some wait := by
  constructor
  · rintro (⟨_,waiting⟩ | ⟨mtxn,entry,rfl,_⟩)
    · exact waiting
    · exact absurd entry (one.not_migrated active)
  · exact fun waiting => .inl ⟨active,waiting⟩

theorem waits_migrated {s : System P} (one : OneHolder s) {node : Int} {mtxn : MigratedTxn} {wait : WaitForMessage}
    (entry : mtxn ∈ (s.managers node).migratedTxns) : Waits s node mtxn.channels wait ↔ mtxn.waiting = some wait := by
  constructor
  · rintro (⟨active,_⟩ | ⟨other,isEntry,same,waiting⟩)
    · exact absurd entry (one.not_migrated active)
    · have ids : other.txnID = mtxn.txnID := by
        rw [← one.own_channels isEntry,← one.own_channels entry,same]
      rwa [List.inj_on_of_nodup_map (one.migrated_nodup node) isEntry entry ids] at waiting
  · exact fun waiting => .inr ⟨mtxn,entry,rfl,waiting⟩

/-! ### Routing clears the waits it answers -/

/-- The transaction's resume channel has room. -/
def Room (s : System P) (id : TransactionID) : Prop := (s.txns id).resumeCh.length < yieldCapacity

instance (s : System P) (id : TransactionID) : Decidable (Room s id) := inferInstanceAs (Decidable (_ < _))

theorem waits_resumeLocal {s : System P} (one : OneHolder s) {node : Int} (msg : Message P) {target : TransactionID}
    (active : HeldBy s target (.active node)) (id : TransactionID) (wait : WaitForMessage) :
    Waits (System.resumeLocal node msg s target) node id wait ↔ Waits s node id wait ∧ ¬(id = target ∧ Room s id) := by
  have tables := SameTables.resumeLocal node msg s target
  by_cases here : id = target
  · subst here
    have active' : id ∈ ((System.resumeLocal node msg s id).managers node).activeTxns := by
      rw [tables.active]
      exact active
    rw [waits_active (one.tables tables) active',waits_active one active]
    by_cases room : Room s id
    · have opened : (s.txns id).resumeCh.length < yieldCapacity := room
      simp [System.resumeLocal,opened,room,System.setManager,txns_setTxn]
    · have full : ¬ (s.txns id).resumeCh.length < yieldCapacity := room
      simp [System.resumeLocal,full,room]
  · have waiting : ((System.resumeLocal node msg s target).txns id).waiting = (s.txns id).waiting := by
      unfold System.resumeLocal
      split
      · simp [System.setManager,txns_setTxn,here]
      · rfl
    simp [Waits,tables.active,migratedTxns_resumeLocal,waiting,here]

theorem waits_resumeMigrated {s : System P} (one : OneHolder s) {node : Int} (msg : Message P) {mtxn : MigratedTxn}
    (channels : mtxn.channels = mtxn.txnID) (migrated : HeldBy s mtxn.channels (.migrated node)) (id : TransactionID)
    (wait : WaitForMessage) : Waits (System.resumeMigrated node msg s mtxn) node id wait ↔
      Waits s node id wait ∧ ¬(id = mtxn.channels ∧ Room s id) := by
  by_cases room : Room s mtxn.channels
  · have opened : (s.txns mtxn.channels).resumeCh.length < yieldCapacity := room
    have entries : ((System.resumeMigrated node msg s mtxn).managers node).migratedTxns =
        (s.managers node).migratedTxns.map (fun other =>
          if other.txnID = mtxn.txnID then { other with waiting := none } else other) := by
      simp [System.resumeMigrated,System.pushResume,opened,System.setManager,System.setTxn]
    have waiting : ((System.resumeMigrated node msg s mtxn).txns id).waiting = (s.txns id).waiting := by
      by_cases here : id = mtxn.channels
      · simp [System.resumeMigrated,System.pushResume,opened,System.setManager,txns_setTxn,here]
      · simp [System.resumeMigrated,System.pushResume,opened,System.setManager,txns_setTxn,here]
    have tables := SameTables.resumeMigrated node msg s mtxn
    by_cases here : id = mtxn.channels
    · subst here
      refine iff_of_false ?_ (fun both => both.2 ⟨rfl,room⟩)
      rintro (⟨active,_⟩ | ⟨other,entry,same,waiting'⟩)
      · rw [tables.active] at active
        have heldActive : HeldBy s mtxn.channels (.active node) := active
        cases one.unique heldActive migrated
      · -- the entry of the transaction has lost its wait
        rw [entries] at entry
        obtain ⟨old,isOld,rfl⟩ := List.mem_map.mp entry
        have own := one.own_channels isOld
        by_cases cleared : old.txnID = mtxn.txnID
        · simp [cleared] at waiting'
        · rw [if_neg cleared] at same
          exact cleared (by rw [← own,← channels,same])
    · have kept : (∃ other ∈ ((System.resumeMigrated node msg s mtxn).managers node).migratedTxns,
          other.channels = id ∧ other.waiting = some wait) ↔
          ∃ other ∈ (s.managers node).migratedTxns, other.channels = id ∧ other.waiting = some wait := by
        rw [entries]
        constructor
        · rintro ⟨other,entry,same,waiting'⟩
          obtain ⟨old,isOld,rfl⟩ := List.mem_map.mp entry
          by_cases cleared : old.txnID = mtxn.txnID
          · simp [cleared] at waiting'
          · rw [if_neg cleared] at same waiting'
            exact ⟨old,isOld,same,waiting'⟩
        · rintro ⟨old,isOld,same,waiting'⟩
          have different : old.txnID ≠ mtxn.txnID := by
            intro equal
            exact here (by rw [← same,one.own_channels isOld,equal,channels])
          exact ⟨old,List.mem_map.mpr ⟨old,isOld,if_neg different⟩,same,waiting'⟩
      simp only [Waits,tables.active,waiting,kept,here,false_and,not_false_eq_true,and_true]
  · have full : ¬ (s.txns mtxn.channels).resumeCh.length < yieldCapacity := room
    have unmoved : System.resumeMigrated node msg s mtxn = s := by simp [System.resumeMigrated,full]
    rw [unmoved]
    refine ⟨fun waits => ⟨waits,?_⟩,And.left⟩
    rintro ⟨rfl,opened⟩
    exact room opened

/-- Over a list of transactions that the node holds, each that has room loses its wait. -/
theorem waits_foldl {β : Type} {f : System P → β → System P} (target : β → TransactionID) (own : β → Prop)
    {value : ResumeValue P} {node : Int} {h : Holder} (tables : ∀ s item, SameTables s (f s item))
    (resumed : ∀ s item id, ((f s item).txns id).resumeCh = (s.txns id).resumeCh ++
      if id = target item ∧ (s.txns id).resumeCh.length < yieldCapacity then [value] else [])
    (one_item : ∀ {s item}, OneHolder s → own item → HeldBy s (target item) h → ∀ id wait,
      Waits (f s item) node id wait ↔ Waits s node id wait ∧ ¬(id = target item ∧ Room s id))
    (id : TransactionID) (wait : WaitForMessage) : ∀ (items : List β) (s : System P), OneHolder s →
      (∀ item ∈ items, own item ∧ HeldBy s (target item) h) →
      (Waits (items.foldl f s) node id wait ↔ Waits s node id wait ∧ ¬(id ∈ items.map target ∧ Room s id))
  | [], s, _, _ => by simp
  | item :: rest, s, one, held => by
    have same := tables s item
    obtain ⟨⟨own_item,item_held⟩,rest_held⟩ := List.forall_mem_cons.mp held
    have held' : ∀ other ∈ rest, own other ∧ HeldBy (f s item) (target other) h :=
      fun other member => ⟨(rest_held other member).1,same.holders.heldBy.mpr (rest_held other member).2⟩
    rw [List.foldl_cons,waits_foldl target own tables resumed one_item id wait rest _ (one.tables same) held',
      one_item one own_item item_held]
    have room : Room (f s item) id ↔ ((s.txns id).resumeCh ++
        if id = target item ∧ (s.txns id).resumeCh.length < yieldCapacity then [value] else []).length <
          yieldCapacity := by
      unfold Room
      rw [resumed]
    by_cases here : id = target item
    · by_cases opened : Room s id
      · simp [here ▸ opened,here]
      · have full : ¬ (s.txns id).resumeCh.length < yieldCapacity := opened
        rw [if_neg (fun both => full both.2),List.append_nil] at room
        simp [room,full,opened]
    · rw [if_neg (fun both => here both.1),List.append_nil] at room
      have same_room : Room (f s item) id ↔ Room s id := room
      simp [here,same_room]

/-- A routed message takes the waits of the transactions it resumes, and no others. -/
theorem OneHolder.waits_routeMessage {s : System P} (one : OneHolder s) (node : Int) (msg : Message P)
    (id : TransactionID) (wait : WaitForMessage) : Waits (s.routeMessage node msg) node id wait ↔
      Waits s node id wait ∧ s.resumes node msg id = false := by
  have localHeld : ∀ item ∈ s.matchingTxns node msg, True ∧ HeldBy s item (.active node) :=
    fun item member => ⟨trivial,List.mem_of_mem_filter member⟩
  have locals := waits_foldl (fun other => other) (fun _ => True) (SameTables.resumeLocal node msg)
    (resumeCh_resumeLocal node msg) (fun one _ held => waits_resumeLocal one msg held) id wait
    (s.matchingTxns node msg) s one localHeld
  have tables := SameTables.foldl (SameTables.resumeLocal node msg) (s.matchingTxns node msg) s
  have localDistinct : ((s.matchingTxns node msg).map fun other => other).Nodup := by
    rw [List.map_id']
    exact (one.active_nodup node).sublist List.filter_sublist
  have channel := resumeCh_foldl (resumeCh_resumeLocal node msg) _ s localDistinct id
  have sameMigrated : ((s.matchingTxns node msg).foldl (System.resumeLocal node msg) s).matchingMigrated node msg =
      s.matchingMigrated node msg := by
    simp only [System.matchingMigrated,migratedTxns_resumeLocals]
  have migratedHeld : ∀ item ∈ s.matchingMigrated node msg, item.channels = item.txnID ∧
      HeldBy ((s.matchingTxns node msg).foldl (System.resumeLocal node msg) s) item.channels (.migrated node) := by
    intro item member
    have entry := List.mem_of_mem_filter member
    have own := one.own_channels entry
    refine ⟨own,tables.holders.heldBy.mpr ?_⟩
    rw [own]
    exact List.mem_map_of_mem entry
  have migrated := waits_foldl MigratedTxn.channels (fun item => item.channels = item.txnID)
    (SameTables.resumeMigrated node msg) (resumeCh_resumeMigrated node msg) (fun one own held => waits_resumeMigrated one msg own held) id wait
    (s.matchingMigrated node msg) _ (one.tables tables) migratedHeld
  have any_iff : (s.matchingMigrated node msg).any (fun mtxn => decide (mtxn.channels = id)) = true ↔
      id ∈ (s.matchingMigrated node msg).map MigratedTxn.channels := by
    simp
  have room : Room s id ↔ (s.txns id).resumeCh.length < yieldCapacity := Iff.rfl
  unfold System.routeMessage
  dsimp only
  rw [sameMigrated,migrated,locals,List.map_id']
  rw [← Bool.not_eq_true,System.resumes,Bool.and_eq_true,Bool.or_eq_true,decide_eq_true_eq,decide_eq_true_eq,any_iff,← room]
  by_cases here : id ∈ s.matchingTxns node msg
  · simp [here,one.matching_apart here]
  · -- the local part has left the channel of the transaction as it was
    rw [List.map_id',if_neg (fun both => here both.1),List.append_nil] at channel
    have same_room : Room ((s.matchingTxns node msg).foldl (System.resumeLocal node msg) s) id ↔ Room s id := by
      unfold Room
      rw [channel]
    simp only [here,false_and,not_false_eq_true,and_true,false_or,same_room]
    exact and_congr_right (fun _ => not_congr and_comm)

/-! ### A transaction at one node or the other -/

/-- The transaction has the same wait at both nodes, and the same values wait for it. -/
structure HostedAlike (home away : Int) (id : TransactionID) (s t : System P) : Prop where
  registered : ∀ wait, Waits s home id wait ↔ Waits t away id wait
  resumeCh : (t.txns id).resumeCh = (s.txns id).resumeCh

/-- Routes the messages at the node, one after the other. -/
def routeMessages (s : System P) (node : Int) (msgs : List (Message P)) : System P :=
  msgs.foldl (fun s msg => s.routeMessage node msg) s

/-- Whatever is routed to two nodes alike keeps them alike. -/
theorem HostedAlike.routeMessages {home away : Int} {id : TransactionID} : ∀ (msgs : List (Message P)) {s t : System P},
    OneHolder s → OneHolder t → HostedAlike home away id s t →
      HostedAlike home away id (routeMessages s home msgs) (routeMessages t away msgs)
  | [], _, _, _, _, alike => alike
  | msg :: rest, s, t, one, one', alike => by
    have same : t.resumes away msg id = s.resumes home msg id := by
      rw [Bool.eq_iff_iff,resumes_iff,resumes_iff,alike.resumeCh]
      simp only [alike.registered]
    refine HostedAlike.routeMessages rest (one.tables (.routeMessage s home msg)) (one'.tables (.routeMessage t away msg)) ?_
    constructor
    · intro wait
      rw [one.waits_routeMessage,one'.waits_routeMessage,same,alike.registered wait]
    · rw [one.resumeCh_routeMessage,one'.resumeCh_routeMessage,same,alike.resumeCh]

/-! ### Commands at either node -/

/-- What a step puts on the outgoing list of the node. -/
def outgoing (node : Int) (s s' : System P) : List (Message P) :=
  ((s'.emitted.drop s.emitted.length).filter (fun emission => emission.node = node)).map Emission.msg

/-- The operations that a step executes at the node. -/
def executedAt (node : Int) (s s' : System P) : List CacheUpdateOperation :=
  ((s'.executed.drop s.executed.length).filter (fun done => done.1 = node)).map Prod.snd

/-- The same message, sent by one node or the other: a migration request names
    its sender. -/
def SentBy (home away : Int) (msg msg' : Message P) : Prop :=
  msg' = msg ∨ msg.isMigration = true ∧ msg.sourceNodeID = home ∧ msg' = { msg with sourceNodeID := away }

/-- A command has the same effect at both nodes: the messages it sends, the
    operations it executes, the wait it leaves, and the messages that later
    resume the transaction. -/
structure HandledAlike (home away : Int) (id : TransactionID) (s s' t t' : System P) : Prop where
  messages : List.Forall₂ (SentBy home away) (outgoing home s s') (outgoing away t t')
  operations : executedAt away t t' = executedAt home s s'
  registered : ∀ wait, Waits s' home id wait ↔ Waits t' away id wait
  matched : ∀ msgs, ((routeMessages t' away msgs).txns id).resumeCh = ((routeMessages s' home msgs).txns id).resumeCh

/-- The messages of a command as the node sends them. -/
def commandMessages (node : Int) (id : TransactionID) (cmd : YieldCommand P) : List (Message P) :=
  if cmd.type = .migrateTo then [System.migrationMessage node cmd.migrateToNodeID id id] else cmd.sendQueue

theorem outgoing_of_emitted {s s' : System P} {node : Int} {k : Nat} {id : TransactionID} {msgs : List (Message P)}
    (emitted : s'.emitted = s.emitted ++ msgs.map (fun msg => ⟨node,k,id,msg⟩)) : outgoing node s s' = msgs := by
  simp [outgoing,emitted,List.filter_map,Function.comp_def]

theorem executedAt_of_executed {s s' : System P} {node : Int} (operations : List CacheUpdateOperation)
    (executed : s'.executed = s.executed ++ operations.map (fun op => (node,op))) :
    executedAt node s s' = operations := by
  simp [executedAt,executed,List.filter_map,Function.comp_def]

section
variable (s : System P) (node : Int) (id : TransactionID) (cmd : YieldCommand P)

/-- At home a command sends its messages, executes its operations unless it is a
    migration, and may replace the wait or answer itself. -/
theorem handleYieldCommand_effect :
    (s.handleYieldCommand node id cmd).emitted = s.emitted ++
        (commandMessages node id cmd).map (fun msg => ⟨node,(s.managers node).ticks,id,msg⟩) ∧
      (s.handleYieldCommand node id cmd).executed = s.executed ++
        (if cmd.type = .migrateTo then [] else cmd.operations).map (fun op => (node,op)) ∧
      ((s.handleYieldCommand node id cmd).txns id).waiting =
        (if cmd.type = .waitForMessage then cmd.waitFor else (s.txns id).waiting) ∧
      ((s.handleYieldCommand node id cmd).txns id).resumeCh = (s.txns id).resumeCh ++
        (if cmd.type = .sendAndWait ∧ Room s id then [.nil] else []) := by
  cases kind : cmd.type with
  | migrateTo =>
    simp [System.handleYieldCommand,kind,commandMessages,System.sendMigration,System.emit,System.setManager,
      System.execute]
  | waitForMessage =>
    by_cases bare : (cmd.waitFor.map WaitForMessage.addr).getD "" = ""
    · simp [System.handleYieldCommand,kind,commandMessages,bare,System.emit,System.execute,System.setManager,
        System.setTxn,TxnManager.removePending]
    · simp [System.handleYieldCommand,kind,commandMessages,bare,System.emit,System.execute,System.setManager,
        System.setTxn,TxnManager.removePending]
  | sendAndWait =>
    have opened : Room s id ↔ (s.txns id).resumeCh.length < yieldCapacity := Iff.rfl
    by_cases room : (s.txns id).resumeCh.length < yieldCapacity
    · simp [System.handleYieldCommand,kind,commandMessages,System.emit,System.execute,System.pushResume,System.setTxn,
        room,opened]
    · simp [System.handleYieldCommand,kind,commandMessages,System.emit,System.execute,System.pushResume,room,opened]
  | complete =>
    simp [System.handleYieldCommand,kind,commandMessages,System.emit,System.execute,System.setTxn]
  | waitForTimeout => simp [System.handleYieldCommand,kind,commandMessages,System.emit,System.execute]
  | sendOnly => simp [System.handleYieldCommand,kind,commandMessages,System.emit,System.execute]
  | other name => simp [System.handleYieldCommand,kind,commandMessages,System.emit,System.execute]

end

section
variable (s : System P) (node : Int) (mtxn : MigratedTxn) (cmd : YieldCommand P)

/-- At a node the transaction has migrated to, a command sends its messages,
    executes nothing, and may answer itself. -/
theorem handleMigratedYield_effect (channels : mtxn.channels = mtxn.txnID) :
    (s.handleMigratedYield node mtxn cmd).emitted = s.emitted ++
        (commandMessages node mtxn.txnID cmd).map (fun msg => ⟨node,(s.managers node).ticks,mtxn.txnID,msg⟩) ∧
      (s.handleMigratedYield node mtxn cmd).executed = s.executed ∧
      ((s.handleMigratedYield node mtxn cmd).txns mtxn.channels).resumeCh = (s.txns mtxn.channels).resumeCh ++
        (if cmd.type = .sendAndWait ∧ Room s mtxn.channels then [.nil] else []) := by
  cases kind : cmd.type with
  | migrateTo =>
    simp [System.handleMigratedYield,kind,commandMessages,System.sendMigration,System.emit,System.setManager,channels]
  | waitForMessage =>
    simp [System.handleMigratedYield,kind,commandMessages,System.emit,System.setManager]
  | sendAndWait =>
    have opened : Room s mtxn.channels ↔ (s.txns mtxn.channels).resumeCh.length < yieldCapacity := Iff.rfl
    by_cases room : (s.txns mtxn.channels).resumeCh.length < yieldCapacity
    · simp [System.handleMigratedYield,kind,commandMessages,System.emit,System.pushResume,System.setTxn,room,opened]
    · simp [System.handleMigratedYield,kind,commandMessages,System.emit,System.pushResume,room,opened]
  | complete =>
    simp [System.handleMigratedYield,kind,commandMessages,System.emit,System.setManager]
  | waitForTimeout => simp [System.handleMigratedYield,kind,commandMessages,System.emit]
  | sendOnly => simp [System.handleMigratedYield,kind,commandMessages,System.emit]
  | other name => simp [System.handleMigratedYield,kind,commandMessages,System.emit]

end

/-- The wait that is registered at home after a command. -/
theorem waits_handleYieldCommand {s : System P} {node : Int} {id : TransactionID} {cmd : YieldCommand P}
    (one : OneHolder (s.handleYieldCommand node id cmd)) (active : id ∈ (s.managers node).activeTxns)
    (apart : ∀ mtxn ∈ (s.managers node).migratedTxns, mtxn.channels ≠ id) (wait : WaitForMessage) :
    Waits (s.handleYieldCommand node id cmd) node id wait ↔ cmd.type ≠ .migrateTo ∧
      (if cmd.type = .waitForMessage then cmd.waitFor else (s.txns id).waiting) = some wait := by
  by_cases leaves : cmd.type = .migrateTo
  · refine iff_of_false ?_ (fun both => both.1 leaves)
    rw [tables_handleYieldCommand_migrate _ node id cmd leaves]
    rintro (⟨still,_⟩ | ⟨mtxn,entry,same,_⟩)
    · simp [System.setManager] at still
    · refine apart mtxn ?_ same
      simpa [System.sendMigration,System.emit,System.setManager] using entry
  · have active' : id ∈ ((s.handleYieldCommand node id cmd).managers node).activeTxns := by
      rw [(SameTables.handleYieldCommand s node id cmd leaves).active]
      exact active
    rw [waits_active one active',(handleYieldCommand_effect s node id cmd).2.2.1]
    exact ⟨fun waiting => ⟨leaves,waiting⟩,And.right⟩

/-- The wait that is registered elsewhere after a command. -/
theorem waits_handleMigratedYield {s : System P} {node : Int} {mtxn : MigratedTxn} {cmd : YieldCommand P}
    (one : OneHolder (s.handleMigratedYield node mtxn cmd)) (entry : mtxn ∈ (s.managers node).migratedTxns)
    (apart : mtxn.channels ∉ (s.managers node).activeTxns)
    (own : ∀ other ∈ (s.managers node).migratedTxns, other.channels = other.txnID) (wait : WaitForMessage) :
    Waits (s.handleMigratedYield node mtxn cmd) node mtxn.channels wait ↔
      (cmd.type ≠ .migrateTo ∧ cmd.type ≠ .complete) ∧
        (if cmd.type = .waitForMessage then cmd.waitFor else mtxn.waiting) = some wait := by
  by_cases goes : cmd.type = .migrateTo ∨ cmd.type = .complete
  · refine iff_of_false ?_ (fun both => goes.elim both.1.1 both.1.2)
    have left : ((s.handleMigratedYield node mtxn cmd).managers node).activeTxns = (s.managers node).activeTxns ∧
        ((s.handleMigratedYield node mtxn cmd).managers node).migratedTxns =
          (s.managers node).migratedTxns.filter (fun other => other.txnID ≠ mtxn.txnID) := by
      rcases goes with kind | kind <;>
        simp [System.handleMigratedYield,kind,System.sendMigration,System.emit,System.setManager]
    rintro (⟨active,_⟩ | ⟨other,isEntry,same,_⟩)
    · rw [left.1] at active
      exact apart active
    · rw [left.2,List.mem_filter,decide_eq_true_eq] at isEntry
      exact isEntry.2 (by rw [← own other isEntry.1,← own mtxn entry,same])
  · obtain ⟨stays,goesOn⟩ := not_or.mp goes
    by_cases waits : cmd.type = .waitForMessage
    · have entry' : { mtxn with waiting := cmd.waitFor } ∈
          ((s.handleMigratedYield node mtxn cmd).managers node).migratedTxns := by
        simp only [System.handleMigratedYield,waits,System.emit,System.setManager,Function.update_self]
        exact List.mem_map.mpr ⟨mtxn,entry,if_pos rfl⟩
      rw [if_pos waits]
      exact (waits_migrated one entry').trans ⟨fun waiting => ⟨⟨stays,goesOn⟩,waiting⟩,And.right⟩
    · have entry' : mtxn ∈ ((s.handleMigratedYield node mtxn cmd).managers node).migratedTxns := by
        unfold System.handleMigratedYield
        dsimp only
        split
        · next kind => exact absurd kind stays
        · next kind => exact absurd kind waits
        · next kind => exact absurd kind goesOn
        · unfold System.pushResume
          split <;> exact entry
        · exact entry
      rw [waits_migrated one entry',if_neg waits]
      exact ⟨fun waiting => ⟨⟨stays,goesOn⟩,waiting⟩,And.right⟩

/-! ### The steps that handle a command -/

variable [DecidableEq P]

/-- The Tick of the manager that started the transaction handles the command. -/
structure HandlesHome (home : Int) (id : TransactionID) (cmd : YieldCommand P) (s s' : System P) : Prop where
  active : id ∈ (s.managers home).activeTxns
  turn : ∃ pending, (s.managers home).tick = .processing (id :: pending)
  command : (s.txns id).yieldCh.head? = some cmd
  stepped : s.step (.processNext home) = some s'

/-- The Tick of a manager the transaction has migrated to handles the command. -/
structure HandlesMigrated (away : Int) (id : TransactionID) (cmd : YieldCommand P) (s s' : System P) : Prop where
  migrated : id ∈ (s.managers away).migratedTxns.map MigratedTxn.txnID
  turn : ∃ pending, (s.managers away).tick = .processingMigrated (id :: pending)
  command : (s.txns id).yieldCh.head? = some cmd
  stepped : s.step (.processMigratedNext away) = some s'

/-- The Tick of the node has moved on, and the oldest command of the transaction
    is out of its channel. -/
def taken (s : System P) (node : Int) (tick : TickPhase P) (id : TransactionID) (rest : List (YieldCommand P)) :
    System P :=
  (s.setTick node tick).setTxn id { s.txns id with yieldCh := rest }

section
omit [DecidableEq P]
variable (s : System P) (node : Int) (tick : TickPhase P) (id : TransactionID) (rest : List (YieldCommand P))

@[simp] theorem emitted_taken : (taken s node tick id rest).emitted = s.emitted := rfl

@[simp] theorem executed_taken : (taken s node tick id rest).executed = s.executed := rfl

@[simp] theorem activeTxns_taken : ((taken s node tick id rest).managers node).activeTxns = (s.managers node).activeTxns := by
  simp [taken,System.setTick,System.setManager,System.setTxn]

@[simp] theorem migratedTxns_taken :
    ((taken s node tick id rest).managers node).migratedTxns = (s.managers node).migratedTxns := by
  simp [taken,System.setTick,System.setManager,System.setTxn]

@[simp] theorem waiting_taken : ((taken s node tick id rest).txns id).waiting = (s.txns id).waiting := by
  simp [taken,txns_setTxn]

@[simp] theorem resumeCh_taken : ((taken s node tick id rest).txns id).resumeCh = (s.txns id).resumeCh := by
  simp [taken,txns_setTxn]

@[simp] theorem room_taken : Room (taken s node tick id rest) id ↔ Room s id := by
  simp [Room]

end

/-- What the step does at home. -/
theorem HandlesHome.effect {s s' : System P} {home : Int} {id : TransactionID} {cmd : YieldCommand P}
    (one : OneHolder s) (handles : HandlesHome home id cmd s s') :
    outgoing home s s' = commandMessages home id cmd ∧
      executedAt home s s' = (if cmd.type = .migrateTo then [] else cmd.operations) ∧
      (∀ wait, Waits s' home id wait ↔ if cmd.type = .waitForMessage then cmd.waitFor = some wait else
        cmd.type ≠ .migrateTo ∧ Waits s home id wait) ∧
      (s'.txns id).resumeCh = (s.txns id).resumeCh ++ (if cmd.type = .sendAndWait ∧ Room s id then [.nil] else []) := by
  have one' := one.step handles.stepped
  obtain ⟨active,⟨pending,turn⟩,command,stepped⟩ := handles
  obtain ⟨rest,queue⟩ := List.head?_eq_some_iff.mp command
  have result : s' = (taken s home (.processing pending) id rest).handleYieldCommand home id cmd := by
    simp only [System.step,turn,Option.some.injEq] at stepped
    have queue' : ((s.setTick home (.processing pending)).txns id).yieldCh = cmd :: rest := queue
    rw [← stepped]
    simp only [System.processYields,queue']
    rfl
  have effect := handleYieldCommand_effect (taken s home (.processing pending) id rest) home id cmd
  have waits := fun wait => waits_handleYieldCommand (result ▸ one') (by simpa using active) (fun mtxn entry same =>
    one.not_migrated (same.symm ▸ active) (by simpa using entry)) wait
  simp only [← result,emitted_taken,executed_taken,waiting_taken,resumeCh_taken,room_taken] at effect waits
  obtain ⟨emitted,executed,_,resumeCh⟩ := effect
  refine ⟨outgoing_of_emitted emitted,executedAt_of_executed _ executed,fun wait => ?_,resumeCh⟩
  rw [waits wait,waits_active one active]
  by_cases kind : cmd.type = .waitForMessage
  · simp [kind]
  · simp [kind]

/-- What the step does at a node the transaction has migrated to. -/
theorem HandlesMigrated.effect {s s' : System P} {away : Int} {id : TransactionID} {cmd : YieldCommand P}
    (one : OneHolder s) (handles : HandlesMigrated away id cmd s s') :
    outgoing away s s' = commandMessages away id cmd ∧ executedAt away s s' = [] ∧
      (∀ wait, Waits s' away id wait ↔ if cmd.type = .waitForMessage then cmd.waitFor = some wait else
        (cmd.type ≠ .migrateTo ∧ cmd.type ≠ .complete) ∧ Waits s away id wait) ∧
      (s'.txns id).resumeCh = (s.txns id).resumeCh ++ (if cmd.type = .sendAndWait ∧ Room s id then [.nil] else []) := by
  have one' := one.step handles.stepped
  obtain ⟨migrated,⟨pending,turn⟩,command,stepped⟩ := handles
  obtain ⟨rest,queue⟩ := List.head?_eq_some_iff.mp command
  -- the Tick finds the entry of the transaction, which has its own channels
  obtain ⟨mtxn,entry,same,result⟩ : ∃ mtxn ∈ (s.managers away).migratedTxns, mtxn.txnID = id ∧
      s' = (s.setTick away (.processingMigrated pending)).processMigratedYields away mtxn := by
    simp only [System.step,turn,System.migratedTxns_setTick] at stepped
    split at stepped
    · next mtxn found =>
      refine ⟨mtxn,List.mem_of_find?_eq_some found,by simpa using List.find?_some found,?_⟩
      exact (Option.some.inj stepped).symm
    · next missing =>
      obtain ⟨mtxn,isEntry,same⟩ := List.mem_map.mp migrated
      exact absurd (List.find?_eq_none.mp missing mtxn isEntry) (by simp [same])
  have own := one.own_channels entry
  obtain rfl : mtxn.channels = id := own.trans same
  have result : s' = (taken s away (.processingMigrated pending) mtxn.channels rest).handleMigratedYield away mtxn cmd := by
    have queue' : ((s.setTick away (.processingMigrated pending)).txns mtxn.channels).yieldCh = cmd :: rest := queue
    rw [result]
    simp only [System.processMigratedYields,queue']
    rfl
  have effect := handleMigratedYield_effect (taken s away (.processingMigrated pending) mtxn.channels rest) away mtxn cmd own
  have ownAll : ∀ other ∈ ((taken s away (.processingMigrated pending) mtxn.channels rest).managers away).migratedTxns,
      other.channels = other.txnID := by
    intro other isEntry
    rw [migratedTxns_taken] at isEntry
    exact one.own_channels isEntry
  have waits := fun wait => waits_handleMigratedYield (result ▸ one') (by simpa using entry)
    (fun active => one.not_migrated (by simpa using active) entry)
    ownAll wait
  simp only [← result,emitted_taken,executed_taken,resumeCh_taken,room_taken] at effect waits
  obtain ⟨emitted,executed,resumeCh⟩ := effect
  rw [← own] at emitted
  refine ⟨outgoing_of_emitted emitted,?_,fun wait => ?_,resumeCh⟩
  · exact executedAt_of_executed [] (by simpa using executed)
  · rw [waits wait,waits_migrated one entry]
    by_cases kind : cmd.type = .waitForMessage
    · simp [kind]
    · simp [kind]

/-- A command has the same effect at home and at a node the transaction has
    migrated to exactly when it brings no operations, or they are skipped at both
    because it is a migration, and a Complete leaves no wait behind at home. -/
theorem handled_alike_iff {s s' t t' : System P} {home away : Int} {id : TransactionID} {cmd : YieldCommand P}
    (reached : Reachable System.step System.initial s) (reached' : Reachable System.step System.initial t)
    (atHome : HandlesHome home id cmd s s') (elsewhere : HandlesMigrated away id cmd t t')
    (before : HostedAlike home away id s t) : HandledAlike home away id s s' t t' ↔
      (cmd.operations = [] ∨ cmd.type = .migrateTo) ∧ (cmd.type = .complete → ∀ wait, ¬ Waits s home id wait) := by
  have one := oneHolder_of_reaches reached
  have one' := oneHolder_of_reaches reached'
  obtain ⟨sent,executed,waits,resumed⟩ := atHome.effect one
  obtain ⟨sent',executed',waits',resumed'⟩ := elsewhere.effect one'
  constructor
  · intro alike
    refine ⟨?_,fun ends wait registered => ?_⟩
    · have same := alike.operations
      rw [executed,executed'] at same
      by_cases leaves : cmd.type = .migrateTo
      · exact .inr leaves
      · rw [if_neg leaves] at same
        exact .inl same.symm
    · have still : Waits s' home id wait := by simpa [waits,ends] using registered
      have ended : ¬ Waits t' away id wait := by simp [waits',ends]
      exact ended ((alike.registered wait).mp still)
  · rintro ⟨bare,quiet⟩
    have registered : ∀ wait, Waits s' home id wait ↔ Waits t' away id wait := by
      intro wait
      rw [waits,waits',← before.registered wait]
      by_cases ends : cmd.type = .complete
      · simp [ends,quiet ends wait]
      · simp [ends]
    have values : (t'.txns id).resumeCh = (s'.txns id).resumeCh := by
      have room : Room t id ↔ Room s id := by
        unfold Room
        rw [before.resumeCh]
      simp only [resumed,resumed',before.resumeCh,room]
    refine ⟨?_,?_,registered,fun msgs => ?_⟩
    · rw [sent,sent']
      unfold commandMessages
      split
      · exact .cons (.inr ⟨rfl,rfl,rfl⟩) .nil
      · exact List.forall₂_same.mpr (fun msg _ => .inl rfl)
    · rw [executed,executed']
      rcases bare with none | leaves
      · simp [none]
      · simp [leaves]
    · have after : HostedAlike home away id s' t' := ⟨registered,values⟩
      exact (after.routeMessages msgs (one.step atHome.stepped) (one'.step elsewhere.stepped)).resumeCh

/-- A wait that brings operations. -/
def waitWith (operations : List CacheUpdateOperation) : YieldCommand Unit :=
  { type := .waitForMessage, waitFor := some { type := 5 }, operations }

/-- Node 0 comes to the command of its own transaction. -/
def commandAtHome (operations : List CacheUpdateOperation) : List (Action Unit) :=
  [.start 0,.yield ⟨0,1⟩ (waitWith operations),.tickBegin 0 [],.snapshot 0 [⟨0,1⟩]]

/-- The transaction migrates to node 1, which comes to its command there. -/
def commandElsewhere (operations : List CacheUpdateOperation) : List (Action Unit) :=
  [.start 0,.yield ⟨0,1⟩ { type := .migrateTo, migrateToNodeID := 1 },.tickBegin 0 [],.snapshot 0 [⟨0,1⟩],
    .processNext 0,.tickBegin 1 [System.migrationMessage 0 1 ⟨0,1⟩ ⟨0,1⟩],.routeNext 1,.resume ⟨0,1⟩,
    .yield ⟨0,1⟩ (waitWith operations),.snapshot 1 [],.snapshotMigrated 1 [⟨0,1⟩]]

def stateAfter (actions : List (Action Unit)) : System Unit :=
  (runActions System.step (fun _ _ => True) actions System.initial).getD System.initial

theorem handles_home (operations : List CacheUpdateOperation) : HandlesHome 0 ⟨0,1⟩ (waitWith operations)
    (stateAfter (commandAtHome operations)) (stateAfter (commandAtHome operations ++ [.processNext 0])) where
  active := List.mem_cons_self ..
  turn := ⟨[],rfl⟩
  command := rfl
  stepped := rfl

theorem handles_elsewhere (operations : List CacheUpdateOperation) : HandlesMigrated 1 ⟨0,1⟩ (waitWith operations)
    (stateAfter (commandElsewhere operations)) (stateAfter (commandElsewhere operations ++ [.processMigratedNext 1])) where
  migrated := List.mem_cons_self ..
  turn := ⟨[],rfl⟩
  command := rfl
  stepped := rfl

theorem reached_home (operations : List CacheUpdateOperation) :
    Reachable System.step System.initial (stateAfter (commandAtHome operations)) :=
  reaches_runActions (commandAtHome operations) rfl

theorem reached_elsewhere (operations : List CacheUpdateOperation) :
    Reachable System.step System.initial (stateAfter (commandElsewhere operations)) :=
  reaches_runActions (commandElsewhere operations) rfl

/-- Before the command the transaction has no wait at either node. -/
theorem hosted_alike (operations : List CacheUpdateOperation) : HostedAlike 0 1 ⟨0,1⟩
    (stateAfter (commandAtHome operations)) (stateAfter (commandElsewhere operations)) where
  registered wait := by
    have active := (handles_home operations).active
    have entry : (⟨⟨0,1⟩,⟨0,1⟩,0,none⟩ : MigratedTxn) ∈
        ((stateAfter (commandElsewhere operations)).managers 1).migratedTxns := List.mem_cons_self ..
    rw [waits_active (oneHolder_of_reaches (reached_home operations)) active]
    exact (waits_migrated (oneHolder_of_reaches (reached_elsewhere operations)) entry).symm
  resumeCh := rfl

/-- A wait without operations has the same effect at both nodes. -/
theorem handled_alike_bare : HandledAlike 0 1 ⟨0,1⟩
    (stateAfter (commandAtHome [])) (stateAfter (commandAtHome [] ++ [.processNext 0]))
    (stateAfter (commandElsewhere [])) (stateAfter (commandElsewhere [] ++ [.processMigratedNext 1])) :=
  (handled_alike_iff (reached_home []) (reached_elsewhere []) (handles_home []) (handles_elsewhere [])
    (hosted_alike [])).mpr ⟨.inl rfl,fun ends => by cases ends⟩

/-- With an operation, the node the transaction has migrated to leaves it out. -/
theorem migrated_operations_skipped : ¬ ∀ {s s' t t' : System Unit} {id : TransactionID} {cmd : YieldCommand Unit},
    Reachable System.step System.initial s → Reachable System.step System.initial t →
      HandlesHome 0 id cmd s s' → HandlesMigrated 1 id cmd t t' → HostedAlike 0 1 id s t →
        HandledAlike 0 1 id s s' t t' := by
  intro handled_alike
  let operations : List CacheUpdateOperation := [{ addr := "A", newState := "M", data := [] }]
  have alike := handled_alike (reached_home operations) (reached_elsewhere operations) (handles_home operations)
    (handles_elsewhere operations) (hosted_alike operations)
  have same := alike.operations
  have executed := ((handles_home operations).effect (oneHolder_of_reaches (reached_home operations))).2.1
  have skipped := ((handles_elsewhere operations).effect (oneHolder_of_reaches (reached_elsewhere operations))).2.1
  rw [executed,skipped] at same
  simp [waitWith,operations] at same

end FlowSim.Transaction
