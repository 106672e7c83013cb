import FlowSim.Transaction.LateWait

/-!
What becomes of the messages a transaction sends. A command waits in the yield
channel until a Tick of the manager that holds the transaction handles it, so
every message is emitted once and in order as long as the transaction is held
while commands with messages are queued; with Ticks going on, it is emitted.
-/
namespace FlowSim.Transaction
open FlowSim.Lib
set_option linter.unusedSimpArgs false

variable {P : Type}

/-- The messages of the commands, in order. -/
def messages (cmds : List (YieldCommand P)) : List (Message P) := cmds.flatMap YieldCommand.sendQueue

@[simp] theorem messages_nil : messages ([] : List (YieldCommand P)) = [] := rfl

@[simp] theorem messages_cons (cmd : YieldCommand P) (cmds : List (YieldCommand P)) :
    messages (cmd :: cmds) = cmd.sendQueue ++ messages cmds := rfl

@[simp] theorem messages_append (cmds cmds' : List (YieldCommand P)) :
    messages (cmds ++ cmds') = messages cmds ++ messages cmds' :=
  List.flatMap_append

/-- The messages of the transaction that managers have put on the outgoing lists
    of their Ticks, in order, without the requests that take it to other nodes. -/
def emittedBy (s : System P) (id : TransactionID) : List (Message P) :=
  (s.emitted.filter (fun (emission : Emission P) => decide (emission.txn = id) && !emission.msg.isMigration)).map
    Emission.msg

/-! ### What each operation emits -/

section
variable (s : System P) (node : Int) (id other : TransactionID)

@[simp] theorem emittedBy_setTxn (txn : Txn P) : emittedBy (s.setTxn id txn) other = emittedBy s other := rfl

@[simp] theorem emittedBy_setManager (tm : TxnManager P) : emittedBy (s.setManager node tm) other = emittedBy s other :=
  rfl

@[simp] theorem emittedBy_execute (operations : List CacheUpdateOperation) :
    emittedBy (s.execute node operations) other = emittedBy s other := rfl

@[simp] theorem emittedBy_pushYield (cmd : YieldCommand P) :
    emittedBy (s.pushYield id cmd) other = emittedBy s other := rfl

@[simp] theorem emittedBy_pushResume (value : ResumeValue P) :
    emittedBy (s.pushResume id value) other = emittedBy s other := by
  unfold System.pushResume
  split <;> rfl

theorem emittedBy_emit (msgs : List (Message P)) : emittedBy (s.emit node id msgs) other =
    emittedBy s other ++ if id = other then msgs.filter (fun (msg : Message P) => !msg.isMigration) else [] := by
  simp only [emittedBy,System.emit,List.filter_append,List.map_append,List.filter_map,List.map_map]
  congr 1
  split
  · next here => simp [Function.comp_def,here]
  · next elsewhere => simp [Function.comp_def,elsewhere]

@[simp] theorem emittedBy_sendMigration (target : Int) (channels : TransactionID) :
    emittedBy (s.sendMigration node id (System.migrationMessage node target id channels)) other = emittedBy s other := by
  have emits : emittedBy (s.sendMigration node id (System.migrationMessage node target id channels)) other =
      emittedBy (s.emit node id [System.migrationMessage node target id channels]) other := rfl
  rw [emits,emittedBy_emit]
  simp [System.migrationMessage,Message.isMigration]

theorem emittedBy_foldl {β : Type} {f : System P → β → System P} (one : ∀ s item, emittedBy (f s item) other = emittedBy s other) :
    ∀ (items : List β) (s : System P), emittedBy (items.foldl f s) other = emittedBy s other
  | [], _ => rfl
  | item :: rest, s => (emittedBy_foldl one rest (f s item)).trans (one s item)

@[simp] theorem emittedBy_route (msg : Message P) : emittedBy (s.route node msg) other = emittedBy s other := by
  have routed : emittedBy (s.routeMessage node msg) other = emittedBy s other := by
    refine (emittedBy_foldl other ?_ _ _).trans (emittedBy_foldl other ?_ _ _)
    · intro t mtxn
      unfold System.resumeMigrated
      split <;> simp
    · intro t id
      unfold System.resumeLocal
      split <;> simp
  unfold System.route
  dsimp only
  split <;> exact routed

@[simp] theorem emittedBy_handleMigrationRequest (msg : Message P) :
    emittedBy (s.handleMigrationRequest node msg) other = emittedBy s other := by
  unfold System.handleMigrationRequest
  split <;> simp

end

/-- What handling a command puts on the outgoing list: its messages, unless it
    is a migration. -/
def emission (cmd : YieldCommand P) : List (Message P) :=
  if cmd.type = .migrateTo then [] else cmd.sendQueue.filter (fun (msg : Message P) => !msg.isMigration)

theorem emittedBy_handleYieldCommand (s : System P) (node : Int) (id other : TransactionID) (cmd : YieldCommand P) :
    emittedBy (s.handleYieldCommand node id cmd) other = emittedBy s other ++ if id = other then emission cmd else [] := by
  unfold System.handleYieldCommand emission
  split
  · next kind => simp [kind]
  · next kind =>
    dsimp only
    split <;> simp [emittedBy_emit,kind]
  · next kind => simp [emittedBy_emit,kind]
  · next kind => simp [emittedBy_emit,kind]
  · next migrates _ _ _ =>
    have stays : cmd.type ≠ .migrateTo := migrates
    simp [emittedBy_emit,stays]

theorem emittedBy_handleMigratedYield (s : System P) (node : Int) (mtxn : MigratedTxn) (other : TransactionID)
    (cmd : YieldCommand P) : emittedBy (s.handleMigratedYield node mtxn cmd) other =
      emittedBy s other ++ if mtxn.txnID = other then emission cmd else [] := by
  unfold System.handleMigratedYield emission
  dsimp only
  split
  · next kind => simp [kind]
  · next kind => simp [emittedBy_emit,kind]
  · next kind => simp [emittedBy_emit,kind]
  · next kind => simp [emittedBy_emit,kind]
  · next migrates _ _ _ =>
    have stays : cmd.type ≠ .migrateTo := migrates
    simp [emittedBy_emit,stays]

/-! ### Commands through a step -/

/-- The action gives the manager a command of the transaction. -/
inductive Offers : Action P → TransactionID → YieldCommand P → Prop where
  | send (id : TransactionID) (msg : Message P) :
      Offers (.send id msg) id { type := .sendOnly, sendQueue := [System.stamp id msg] }
  | yield (id : TransactionID) (cmd : YieldCommand P) : Offers (.yield id cmd) id cmd
  | complete (id : TransactionID) (result : Bool) : Offers (.complete id result) id { type := .complete }

/-- What a step can do to a transaction's commands: accept one more, handle the
    oldest, or nothing. -/
inductive Traffic (s s' : System P) (action : Action P) (id : TransactionID) : Prop where
  | accepted (cmd : YieldCommand P) (running : (s.txns id).phase = .running) (offers : Offers action id cmd)
      (plain : ∀ msg ∈ cmd.sendQueue, msg.isMigration = false)
      (queue : (s'.txns id).yieldCh = (s.txns id).yieldCh ++ [cmd])
      (issued : s'.issued id = s.issued id ++ cmd.sendQueue) (emitted : emittedBy s' id = emittedBy s id)
  | handled (cmd : YieldCommand P) (queue : (s.txns id).yieldCh = cmd :: (s'.txns id).yieldCh)
      (issued : s'.issued id = s.issued id) (emitted : emittedBy s' id = emittedBy s id ++ emission cmd)
      (moved : cmd.type = .migrateTo → HeldBy s' id .underWay)
  | quiet (queue : (s'.txns id).yieldCh = (s.txns id).yieldCh) (issued : s'.issued id = s.issued id)
      (emitted : emittedBy s' id = emittedBy s id)

/-- A command that a running goroutine gives joins the queue. -/
theorem Traffic.offered {s s' : System P} {action : Action P} {id other : TransactionID} {cmd : YieldCommand P}
    (running : (s.txns id).phase = .running) (offers : Offers action id cmd)
    (plain : ∀ msg ∈ cmd.sendQueue, msg.isMigration = false)
    (queue : (s'.txns other).yieldCh = ((s.pushYield id cmd).txns other).yieldCh)
    (issued : s'.issued other = (s.pushYield id cmd).issued other)
    (emitted : emittedBy s' other = emittedBy s other) : Traffic s s' action other := by
  by_cases here : other = id
  · subst here
    refine .accepted cmd running offers plain (queue.trans ?_) (issued.trans ?_) emitted
    · simp [System.pushYield,txns_setTxn]
    · simp [System.pushYield]
  · refine .quiet (queue.trans ?_) (issued.trans ?_) emitted
    · simp [System.pushYield,txns_setTxn,here]
    · simp [System.pushYield,here]

theorem yieldCh_setTxn {s : System P} {id other : TransactionID} {txn : Txn P} (same : txn.yieldCh = (s.txns id).yieldCh) :
    ((s.setTxn id txn).txns other).yieldCh = (s.txns other).yieldCh := by
  rw [txns_setTxn]
  split
  · next here => rw [here,same]
  · rfl

theorem yieldCh_handleYieldCommand (s : System P) (node : Int) (id : TransactionID) (cmd : YieldCommand P)
    (other : TransactionID) : ((s.handleYieldCommand node id cmd).txns other).yieldCh = (s.txns other).yieldCh ∧
      (s.handleYieldCommand node id cmd).issued = s.issued := by
  by_cases leaves : cmd.type = .migrateTo
  · rw [tables_handleYieldCommand_migrate _ node id cmd leaves]
    exact ⟨rfl,rfl⟩
  · have tables := SameTables.handleYieldCommand s node id cmd leaves
    exact ⟨tables.yieldCh other,tables.issued⟩

theorem yieldCh_handleMigratedYield (s : System P) (node : Int) (mtxn : MigratedTxn) (cmd : YieldCommand P)
    (other : TransactionID) : ((s.handleMigratedYield node mtxn cmd).txns other).yieldCh = (s.txns other).yieldCh ∧
      (s.handleMigratedYield node mtxn cmd).issued = s.issued := by
  by_cases leaves : cmd.type = .migrateTo
  · simp only [System.handleMigratedYield,leaves]
    exact ⟨rfl,rfl⟩
  · by_cases ends : cmd.type = .complete
    · simp only [System.handleMigratedYield,ends]
      exact ⟨rfl,rfl⟩
    · have tables := SameTables.handleMigratedYield s node mtxn cmd leaves ends
      exact ⟨tables.yieldCh other,tables.issued⟩

/-- A Tick that comes to a transaction takes its oldest command. -/
theorem yieldCh_processYields (s : System P) (node : Int) (id other : TransactionID) :
    ((s.processYields node id).txns other).yieldCh =
      if other = id then (s.txns id).yieldCh.tail else (s.txns other).yieldCh := by
  rcases queue : (s.txns id).yieldCh with _ | ⟨cmd,rest⟩
  · simp only [System.processYields,queue,List.tail_nil]
    split
    · next here => rw [here,queue]
    · rfl
  · simp only [System.processYields,queue,List.tail_cons]
    rw [(yieldCh_handleYieldCommand _ node id cmd other).1,txns_setTxn]
    split <;> rfl

theorem yieldCh_processMigratedYields (s : System P) (node : Int) (mtxn : MigratedTxn) (other : TransactionID) :
    ((s.processMigratedYields node mtxn).txns other).yieldCh =
      if other = mtxn.channels then (s.txns mtxn.channels).yieldCh.tail else (s.txns other).yieldCh := by
  rcases queue : (s.txns mtxn.channels).yieldCh with _ | ⟨cmd,rest⟩
  · simp only [System.processMigratedYields,queue,List.tail_nil]
    split
    · next here => rw [here,queue]
    · rfl
  · simp only [System.processMigratedYields,queue,List.tail_cons]
    rw [(yieldCh_handleMigratedYield _ node mtxn cmd other).1,txns_setTxn]
    split <;> rfl

theorem popped_processYields {s : System P} {node : Int} {tick : TickPhase P} {id : TransactionID} {cmd : YieldCommand P}
    {cmds : List (YieldCommand P)} (queue : (s.txns id).yieldCh = cmd :: cmds) :
    (s.txns id).yieldCh = cmd :: (((s.setTick node tick).processYields node id).txns id).yieldCh := by
  rw [yieldCh_processYields,if_pos rfl]
  show (s.txns id).yieldCh = cmd :: (s.txns id).yieldCh.tail
  rw [queue,List.tail_cons]

theorem popped_processMigratedYields {s : System P} {node : Int} {tick : TickPhase P} {mtxn : MigratedTxn}
    {cmd : YieldCommand P} {cmds : List (YieldCommand P)} (channels : mtxn.channels = mtxn.txnID)
    (queue : (s.txns mtxn.channels).yieldCh = cmd :: cmds) :
    (s.txns mtxn.txnID).yieldCh =
      cmd :: (((s.setTick node tick).processMigratedYields node mtxn).txns mtxn.txnID).yieldCh := by
  rw [yieldCh_processMigratedYields,channels,if_pos rfl]
  show (s.txns mtxn.txnID).yieldCh = cmd :: (s.txns mtxn.txnID).yieldCh.tail
  rw [← channels,queue,List.tail_cons]

theorem Traffic.processYields {s t : System P} (action : Action P) (node : Int) (id other : TransactionID)
    (queue : ∀ id, (t.txns id).yieldCh = (s.txns id).yieldCh) (issued : t.issued = s.issued)
    (emitted : t.emitted = s.emitted)
    (moved : ∀ {cmd rest}, (t.txns id).yieldCh = cmd :: rest → cmd.type = .migrateTo →
      HeldBy (t.processYields node id) id .underWay) : Traffic s (t.processYields node id) action other := by
  have sameEmitted : emittedBy t other = emittedBy s other := by rw [emittedBy,emittedBy,emitted]
  have popped := yieldCh_processYields t node id other
  rcases head : (t.txns id).yieldCh with _ | ⟨cmd,rest⟩
  · have unmoved : t.processYields node id = t := by simp only [System.processYields,head]
    rw [unmoved]
    exact .quiet (queue other) (congrFun issued other) sameEmitted
  · have handled : t.processYields node id = (t.setTxn id { t.txns id with yieldCh := rest }).handleYieldCommand node id cmd := by
      simp only [System.processYields,head]
    have issued' : (t.processYields node id).issued other = s.issued other := by
      rw [handled,(yieldCh_handleYieldCommand _ node id cmd other).2]
      exact congrFun issued other
    have emitted' : emittedBy (t.processYields node id) other =
        emittedBy s other ++ if id = other then emission cmd else [] := by
      rw [handled,emittedBy_handleYieldCommand,emittedBy_setTxn,sameEmitted]
    by_cases here : id = other
    · subst here
      refine .handled cmd ?_ issued' (by rw [emitted',if_pos rfl]) (moved head)
      rw [popped,if_pos rfl,head,← queue,head,List.tail_cons]
    · refine .quiet ?_ issued' (by rw [emitted',if_neg here,List.append_nil])
      rw [popped,if_neg (Ne.symm here),queue]

theorem Traffic.processMigratedYields {s t : System P} (action : Action P) (node : Int) (mtxn : MigratedTxn)
    (other : TransactionID) (channels : mtxn.channels = mtxn.txnID)
    (queue : ∀ id, (t.txns id).yieldCh = (s.txns id).yieldCh) (issued : t.issued = s.issued)
    (emitted : t.emitted = s.emitted)
    (moved : ∀ {cmd rest}, (t.txns mtxn.channels).yieldCh = cmd :: rest → cmd.type = .migrateTo →
      HeldBy (t.processMigratedYields node mtxn) mtxn.channels .underWay) :
    Traffic s (t.processMigratedYields node mtxn) action other := by
  have sameEmitted : emittedBy t other = emittedBy s other := by rw [emittedBy,emittedBy,emitted]
  have popped := yieldCh_processMigratedYields t node mtxn other
  rcases head : (t.txns mtxn.channels).yieldCh with _ | ⟨cmd,rest⟩
  · have unmoved : t.processMigratedYields node mtxn = t := by simp only [System.processMigratedYields,head]
    rw [unmoved]
    exact .quiet (queue other) (congrFun issued other) sameEmitted
  · have handled : t.processMigratedYields node mtxn =
        (t.setTxn mtxn.channels { t.txns mtxn.channels with yieldCh := rest }).handleMigratedYield node mtxn cmd := by
      simp only [System.processMigratedYields,head]
    have issued' : (t.processMigratedYields node mtxn).issued other = s.issued other := by
      rw [handled,(yieldCh_handleMigratedYield _ node mtxn cmd other).2]
      exact congrFun issued other
    have emitted' : emittedBy (t.processMigratedYields node mtxn) other =
        emittedBy s other ++ if mtxn.channels = other then emission cmd else [] := by
      rw [handled,emittedBy_handleMigratedYield,emittedBy_setTxn,sameEmitted,channels]
    by_cases here : mtxn.channels = other
    · subst here
      refine .handled cmd ?_ issued' (by rw [emitted',if_pos rfl]) (moved head)
      rw [popped,if_pos rfl,head,← queue,head,List.tail_cons]
    · refine .quiet ?_ issued' (by rw [emitted',if_neg here,List.append_nil])
      rw [popped,if_neg (Ne.symm here),queue]

/-- A transaction that has not started has no commands. -/
def Fresh (s : System P) : Prop := ∀ id, (s.txns id).phase = .notStarted → (s.txns id).yieldCh = []

theorem Traffic.of_step [DecidableEq P] {s s' : System P} (one : OneHolder s) (fresh : Fresh s) {action : Action P}
    (stepped : s.step action = some s') (id : TransactionID) : Traffic s s' action id := by
  cases System.step_stepped stepped with
  | start node =>
    refine .quiet ?_ rfl rfl
    by_cases here : id = ⟨node,(s.managers node).nextTxnID⟩
    · subst here
      rw [fresh _ (one.fresh node (le_refl _))]
      simp [System.start,System.setManager,txns_setTxn]
    · rw [txns_start s node here]
  | @send sender msg running _ plain =>
    refine .offered running (.send sender msg) ?_ rfl rfl rfl
    intro stamped member
    obtain rfl := List.mem_singleton.mp member
    unfold System.stamp
    split <;> exact plain
  | @yield sender cmd running _ plain =>
    refine .offered running (.yield sender cmd) ?_ (yieldCh_setTxn rfl) rfl rfl
    simpa using plain
  | resume => exact .quiet (yieldCh_setTxn rfl) rfl rfl
  | giveUp => exact .quiet (yieldCh_setTxn rfl) rfl rfl
  | @complete sender running => exact .offered running (.complete sender false) (by simp) rfl rfl rfl
  | @completeResult sender running =>
    have pushed : SameTables (s.pushYield sender { type := .complete })
        ((s.pushYield sender { type := .complete }).pushResume sender .result) := .pushResume (.refl _)
    exact .offered running (.complete sender true) (by simp) (pushed.yieldCh id) (congrFun pushed.issued id) (by simp)
  | exit => exact .quiet (yieldCh_setTxn rfl) rfl rfl
  | @arrive node msg rest =>
    refine .quiet ?_ ?_ ((emittedBy_handleMigrationRequest _ _ _ _).trans rfl)
    · unfold System.handleMigrationRequest
      split
      · exact (SameTables.pushResume (SameTables.refl _)).yieldCh id
      · rfl
    · unfold System.handleMigrationRequest
      split
      · exact congrFun (SameTables.pushResume (SameTables.refl _)).issued id
      · rfl
  | @route node msg rest =>
    have routed := SameTables.route (s.setTick node (.routing rest)) node msg
    exact .quiet (routed.yieldCh id) (congrFun routed.issued id) ((emittedBy_route _ _ _ _).trans rfl)
  | @process node other rest processing =>
    refine Traffic.processYields _ node other id (fun _ => rfl) rfl rfl ?_
    intro cmd cmds queue leaves
    obtain ⟨ticked,only,started,passed⟩ := one.comesTo processing
    exact (ticked.moves_migrate only started passed queue leaves).held.mpr (.inr ⟨rfl,rfl⟩)
  | @processMigrated node mtxn rest processing entry =>
    have channels := one.own_channels entry
    refine Traffic.processMigratedYields _ node mtxn id channels (fun _ => rfl) rfl rfl ?_
    intro cmd cmds queue leaves
    obtain ⟨ticked,passed⟩ := one.comesToMigrated processing
    have moves := ticked.moves_processMigratedYields (System.migratedTxns_setTick s node _ ▸ entry) passed queue (.inl leaves)
    exact moves.held.mpr (.inr ⟨channels,by rw [if_pos leaves]⟩)
  | _ => exact .quiet rfl rfl rfl

theorem Fresh.step [DecidableEq P] {s s' : System P} (one : OneHolder s) (fresh : Fresh s) {action : Action P}
    (stepped : s.step action = some s') : Fresh s' := by
  intro id unstarted
  have before := unstarted_of_step stepped unstarted
  cases Traffic.of_step one fresh stepped id with
  | accepted cmd running => cases running.symm.trans before
  | handled cmd queue => rw [fresh id before] at queue; cases queue
  | quiet queue => rw [queue,fresh id before]

/-! ### Holders through a step -/

/-- What a step can do to a transaction that is held. -/
inductive HolderChange (s s' : System P) (action : Action P) (id : TransactionID) : Holder → Prop where
  | kept {h : Holder} (held : HeldBy s' id h) : HolderChange s s' action id h
  | exited (ends : action = .exit id) : HolderChange s s' action id (.active id.nodeID)
  | left {h : Holder} (cmd : YieldCommand P) (queue : (s.txns id).yieldCh = cmd :: (s'.txns id).yieldCh)
      (held : HeldBy s' id .underWay) : HolderChange s s' action id h
  | ended {node : Int} {rest : List TransactionID} (cmd : YieldCommand P) (ends : action = .processMigratedNext node)
      (processing : (s.managers node).tick = .processingMigrated (id :: rest))
      (queue : (s.txns id).yieldCh = cmd :: (s'.txns id).yieldCh) (completes : cmd.type = .complete) :
      HolderChange s s' action id (.migrated node)
  | arrived {node : Int} (held : HeldBy s' id (.migrated node)) : HolderChange s s' action id .underWay

theorem HolderChange.of_step [DecidableEq P] {s s' : System P} (one : OneHolder s) {action : Action P}
    (stepped : s.step action = some s') {id : TransactionID} {h : Holder} (held : HeldBy s id h) :
    HolderChange s s' action id h := by
  cases System.step_stepped stepped with
  | start node => exact .kept ((heldBy_start s node).mpr (.inl held))
  | send => exact .kept ((SameHolders.pushYield s _ _).heldBy.mpr held)
  | yield running =>
    refine .kept ((SameHolders.setTxn _ _ _ ?_).heldBy.mpr ((SameHolders.pushYield s _ _).heldBy.mpr held))
    simp [System.pushYield,txns_setTxn,running]
  | resume waiting => exact .kept ((SameHolders.setTxn s _ _ (by simp [waiting])).heldBy.mpr held)
  | giveUp waiting => exact .kept ((SameHolders.setTxn s _ _ (by simp [waiting])).heldBy.mpr held)
  | complete => exact .kept ((SameHolders.pushYield s _ _).heldBy.mpr held)
  | completeResult =>
    exact .kept ((SameTables.pushResume (SameTables.refl _)).holders.heldBy.mpr ((SameHolders.pushYield s _ _).heldBy.mpr held))
  | @exit other running =>
    by_cases registered : other ∈ (s.managers other.nodeID).activeTxns
    · by_cases here : id = other ∧ h = .active other.nodeID
      · obtain ⟨rfl,rfl⟩ := here
        exact .exited rfl
      · exact .kept ((one.moves_exit running registered).held.mpr (.inl ⟨held,here⟩))
    · exact .kept ((SameHolders.exit running registered).heldBy.mpr held)
  | tickBegin => exact .kept (heldBy_setTick.mpr held)
  | @arrive node msg rest _ _ underWay =>
    have ticked := one.setTick_routing node rest
    have moves := ticked.moves_handleMigrationRequest node underWay
    have heldTicked : HeldBy (s.setTick node (.routing rest)) id h := heldBy_setTick.mpr held
    by_cases here : id = msg.transactionID ∧ h = .underWay
    · obtain ⟨rfl,rfl⟩ := here
      exact .arrived (moves.held.mpr (.inr ⟨rfl,rfl⟩))
    · exact .kept (moves.held.mpr (.inl ⟨heldTicked,here⟩))
  | ignore => exact .kept (heldBy_setTick.mpr held)
  | route =>
    exact .kept ((SameTables.route _ _ _).holders.heldBy.mpr (heldBy_setTick.mpr held))
  | snapshot => exact .kept (heldBy_setTick.mpr held)
  | @process node other rest processing =>
    have heldTicked : HeldBy (s.setTick node (.processing rest)) id h := heldBy_setTick.mpr held
    obtain ⟨ticked,only,started,passed⟩ := one.comesTo processing
    by_cases leaves : ∃ cmd cmds, (s.txns other).yieldCh = cmd :: cmds ∧ cmd.type = .migrateTo
    · obtain ⟨cmd,cmds,queue,migrates⟩ := leaves
      have moves := ticked.moves_migrate only started passed queue migrates
      by_cases here : id = other ∧ h = .active node
      · obtain ⟨rfl,rfl⟩ := here
        exact .left cmd (popped_processYields queue) (moves.held.mpr (.inr ⟨rfl,rfl⟩))
      · exact .kept (moves.held.mpr (.inl ⟨heldTicked,here⟩))
    · have same := SameHolders.processYields (s.setTick node (.processing rest)) node other
        (fun queue migrates => leaves ⟨_,_,queue,migrates⟩)
      exact .kept (same.1.heldBy.mpr heldTicked)
  | snapshotMigrated => exact .kept (heldBy_setTick.mpr held)
  | @processMigrated node mtxn rest processing entry =>
    have heldTicked : HeldBy (s.setTick node (.processingMigrated rest)) id h := heldBy_setTick.mpr held
    obtain ⟨ticked,passed⟩ := one.comesToMigrated processing
    have entryTicked := System.migratedTxns_setTick s node (.processingMigrated rest) ▸ entry
    have channels := one.own_channels entry
    by_cases gone : ∃ cmd cmds, (s.txns mtxn.channels).yieldCh = cmd :: cmds ∧
        (cmd.type = .migrateTo ∨ cmd.type = .complete)
    · obtain ⟨cmd,cmds,queue,type⟩ := gone
      have moves := ticked.moves_processMigratedYields entryTicked passed queue type
      by_cases here : id = mtxn.txnID ∧ h = .migrated node
      · obtain ⟨rfl,rfl⟩ := here
        have popped : (s.txns mtxn.txnID).yieldCh = cmd ::
            (((s.setTick node (.processingMigrated rest)).processMigratedYields node mtxn).txns mtxn.txnID).yieldCh :=
          popped_processMigratedYields channels queue
        rcases type with leaves | completes
        · exact .left cmd popped (moves.held.mpr (.inr ⟨rfl,by rw [if_pos leaves]⟩))
        · exact .ended cmd rfl processing popped completes
      · exact .kept (moves.held.mpr (.inl ⟨heldTicked,here⟩))
    · have same := SameHolders.processMigratedYields (s.setTick node (.processingMigrated rest)) node
        mtxn (fun queue => ⟨fun leaves => gone ⟨_,_,queue,.inl leaves⟩,fun ends => gone ⟨_,_,queue,.inr ends⟩⟩)
      exact .kept (same.1.heldBy.mpr heldTicked)
  | skipMigrated => exact .kept (heldBy_setTick.mpr held)
  | tickEnd => exact .kept ((SameHolders.setTick s _ .idle _).heldBy.mpr held)

end FlowSim.Transaction
