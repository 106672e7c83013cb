import FlowSim.Transaction.Types
import FlowSim.Lib.Transition

/-!
Transaction managers and the transactions they run. A transaction function is a
goroutine that talks to a manager through two bounded channels; what it does is
left open, so every body is covered. A manager's `Tick` is split into the steps
between which other goroutines may run: routing one message, taking a snapshot
of a map, and handling one yield command.
-/
namespace FlowSim.Transaction
open FlowSim.Lib
set_option linter.unusedSimpArgs false

/-- The capacity of a transaction's yield and resume channels. -/
def yieldCapacity : Nat := 10

/-- Where the goroutine of a transaction is. -/
inductive Phase (P : Type) where
  | notStarted
  | running
  | yielding (cmd : YieldCommand P)
  | exited
deriving DecidableEq

/-- A transaction: its goroutine, its channels, and its record at the manager
    that started it. -/
structure Txn (P : Type) where
  phase : Phase P
  yieldCh : List (YieldCommand P)
  resumeCh : List (ResumeValue P)
  waiting : Option WaitForMessage
  pendingAddrs : List String
  state : TransactionState

/-- A transaction that has migrated to a node. -/
structure MigratedTxn where
  txnID : TransactionID
  channels : TransactionID
  sourceNodeID : Int
  waiting : Option WaitForMessage
deriving DecidableEq

/-- How far a manager is in its `Tick`: the messages still to route, or the
    transactions of a snapshot still to look at. -/
inductive TickPhase (P : Type) where
  | idle
  | routing (incoming : List (Message P))
  | processing (pending : List TransactionID)
  | processingMigrated (pending : List TransactionID)

/-- The manager of a node. The maps by transaction are lists of their entries. -/
structure TxnManager (P : Type) where
  activeTxns : List TransactionID
  pendingByAddr : String → List TransactionID
  nextTxnID : Nat
  migratedTxns : List MigratedTxn
  tick : TickPhase P
  ticks : Nat

/-- A message that was put on the outgoing list of a manager's `Tick`, with the
    transaction whose command it came from. -/
structure Emission (P : Type) where
  node : Int
  tick : Nat
  txn : TransactionID
  msg : Message P

/-- All nodes and transactions. `migrations` are the migration requests under
    way; `emitted` and `executed` record what the managers sent and did, `issued`
    what the transactions gave them to send, and `discarded` the messages that
    were routed without resuming the live transaction they are addressed to. -/
structure System (P : Type) where
  managers : Int → TxnManager P
  txns : TransactionID → Txn P
  migrations : List (Message P)
  emitted : List (Emission P)
  executed : List (Int × CacheUpdateOperation)
  issued : TransactionID → List (Message P)
  discarded : List (Message P)

variable {P : Type}

def newTxnManager : TxnManager P where
  activeTxns := []
  pendingByAddr := fun _ => []
  nextTxnID := 1
  migratedTxns := []
  tick := .idle
  ticks := 0

/-- Nodes with new managers, and no transaction. -/
def System.initial : System P where
  managers := fun _ => newTxnManager
  txns := fun _ => ⟨.notStarted,[],[],none,[],.pending⟩
  migrations := []
  emitted := []
  executed := []
  issued := fun _ => []
  discarded := []

namespace System

def setManager (s : System P) (node : Int) (tm : TxnManager P) : System P :=
  { s with managers := Function.update s.managers node tm }

def setTxn (s : System P) (id : TransactionID) (txn : Txn P) : System P :=
  { s with txns := Function.update s.txns id txn }

/-- A non-blocking send on a resume channel; nothing happens when it is full. -/
def pushResume (s : System P) (id : TransactionID) (value : ResumeValue P) : System P :=
  if (s.txns id).resumeCh.length < yieldCapacity then
    s.setTxn id { s.txns id with resumeCh := (s.txns id).resumeCh ++ [value] }
  else s

/-- Puts the messages on the outgoing list of the node's `Tick`. -/
def emit (s : System P) (node : Int) (id : TransactionID) (msgs : List (Message P)) : System P :=
  { s with emitted := s.emitted ++ msgs.map (fun msg => ⟨node,(s.managers node).ticks,id,msg⟩) }

def execute (s : System P) (node : Int) (operations : List CacheUpdateOperation) : System P :=
  { s with executed := s.executed ++ operations.map (fun op => (node,op)) }

end System

/-- Takes the transaction out of the waiters of the addresses. -/
def TxnManager.removePending (tm : TxnManager P) (id : TransactionID) (addrs : List String) : TxnManager P :=
  { tm with pendingByAddr := fun addr =>
      if addr ∈ addrs then (tm.pendingByAddr addr).filter (fun other => other ≠ id) else tm.pendingByAddr addr }

/-- Whether a message matches a wait. The address is not looked at. -/
def matchesWait (msg : Message P) (wait : WaitForMessage) : Bool :=
  if msg.type ≠ wait.type then false
  else if wait.sourceID.any (fun id => msg.sourceNodeID ≠ id) then false
  else if wait.targetID.any (fun id => msg.targetNodeID ≠ id) then false
  else true

namespace System

/-! ### Routing -/

/-- Resumes a local transaction with the message and clears its wait. -/
def resumeLocal (node : Int) (msg : Message P) (s : System P) (id : TransactionID) : System P :=
  if (s.txns id).resumeCh.length < yieldCapacity then
    let addrs := (s.txns id).pendingAddrs
    let s := s.setTxn id { s.txns id with
      resumeCh := (s.txns id).resumeCh ++ [.message msg], waiting := none, pendingAddrs := [] }
    s.setManager node ((s.managers node).removePending id addrs)
  else s

/-- Resumes a transaction that migrated here with the message and clears its wait. -/
def resumeMigrated (node : Int) (msg : Message P) (s : System P) (mtxn : MigratedTxn) : System P :=
  if (s.txns mtxn.channels).resumeCh.length < yieldCapacity then
    let s := s.pushResume mtxn.channels (.message msg)
    s.setManager node { s.managers node with
      migratedTxns := (s.managers node).migratedTxns.map (fun other =>
        if other.txnID = mtxn.txnID then { other with waiting := none } else other) }
  else s

/-- The local transactions whose wait the message matches. -/
def matchingTxns (s : System P) (node : Int) (msg : Message P) : List TransactionID :=
  (s.managers node).activeTxns.filter (fun id => (s.txns id).waiting.any (matchesWait msg))

/-- The transactions that migrated here and whose wait the message matches. -/
def matchingMigrated (s : System P) (node : Int) (msg : Message P) : List MigratedTxn :=
  (s.managers node).migratedTxns.filter (fun mtxn => mtxn.waiting.any (matchesWait msg))

/-- Resumes every transaction at the node that waits for such a message. -/
def routeMessage (s : System P) (node : Int) (msg : Message P) : System P :=
  let s := (s.matchingTxns node msg).foldl (resumeLocal node msg) s
  (s.matchingMigrated node msg).foldl (resumeMigrated node msg) s

/-- Whether routing the message at the node resumes the transaction. -/
def resumes (s : System P) (node : Int) (msg : Message P) (id : TransactionID) : Bool :=
  decide ((s.txns id).resumeCh.length < yieldCapacity) &&
    (decide (id ∈ s.matchingTxns node msg) ||
      (s.matchingMigrated node msg).any (fun mtxn => mtxn.channels = id))

/-- Registers a transaction that arrives at the node and resumes it there. -/
def handleMigrationRequest (s : System P) (node : Int) (msg : Message P) : System P :=
  match msg.payload with
  | .migration channels =>
    let tm := s.managers node
    let s := s.setManager node { tm with
      migratedTxns := tm.migratedTxns.filter (fun mtxn => mtxn.txnID ≠ msg.transactionID) ++
        [⟨msg.transactionID,channels,msg.sourceNodeID,none⟩] }
    s.pushResume channels (.migrationResult node msg)
  | _ => s

/-! ### Yield commands -/

/-- The request that takes a transaction's channels to another node. -/
def migrationMessage (node target : Int) (id channels : TransactionID) : Message P where
  transactionID := id
  type := msgTypeMigrationRequest
  sourceNodeID := node
  targetNodeID := target
  payload := .migration channels

/-- Sends a migration request. -/
def sendMigration (s : System P) (node : Int) (id : TransactionID) (msg : Message P) : System P :=
  { s.emit node id [msg] with migrations := s.migrations ++ [msg] }

/-- Handles a command of a transaction at the manager that started it. -/
def handleYieldCommand (s : System P) (node : Int) (id : TransactionID) (cmd : YieldCommand P) : System P :=
  match cmd.type with
  | .migrateTo =>
    let s := s.sendMigration node id (migrationMessage node cmd.migrateToNodeID id id)
    s.setManager node { s.managers node with
      activeTxns := (s.managers node).activeTxns.filter (fun other => other ≠ id) }
  | .waitForMessage =>
    let oldPendingAddrs := (s.txns id).pendingAddrs
    let s := s.setTxn id { s.txns id with waiting := cmd.waitFor, pendingAddrs := [] }
    let s := s.setManager node ((s.managers node).removePending id oldPendingAddrs)
    let addr := (cmd.waitFor.map WaitForMessage.addr).getD ""
    let s := if addr = "" then s else
      (s.setManager node { s.managers node with
        pendingByAddr := Function.update (s.managers node).pendingByAddr addr
          ((s.managers node).pendingByAddr addr ++ [id]) }).setTxn id { s.txns id with pendingAddrs := [addr] }
    (s.emit node id cmd.sendQueue).execute node cmd.operations
  | .sendAndWait =>
    ((s.emit node id cmd.sendQueue).execute node cmd.operations).pushResume id .nil
  | .complete =>
    let s := s.setTxn id { s.txns id with state := .completed }
    (s.emit node id cmd.sendQueue).execute node cmd.operations
  | _ => (s.emit node id cmd.sendQueue).execute node cmd.operations

/-- Handles a command of a transaction that migrated to the node. -/
def handleMigratedYield (s : System P) (node : Int) (mtxn : MigratedTxn) (cmd : YieldCommand P) : System P :=
  let drop (s : System P) : System P :=
    s.setManager node { s.managers node with
      migratedTxns := (s.managers node).migratedTxns.filter (fun other => other.txnID ≠ mtxn.txnID) }
  match cmd.type with
  | .migrateTo =>
    drop (s.sendMigration node mtxn.txnID (migrationMessage node cmd.migrateToNodeID mtxn.txnID mtxn.channels))
  | .waitForMessage =>
    (s.setManager node { s.managers node with
      migratedTxns := (s.managers node).migratedTxns.map (fun other =>
        if other.txnID = mtxn.txnID then { other with waiting := cmd.waitFor } else other) }).emit
      node mtxn.txnID cmd.sendQueue
  | .complete => (drop s).emit node mtxn.txnID cmd.sendQueue
  | .sendAndWait => (s.emit node mtxn.txnID cmd.sendQueue).pushResume mtxn.channels .nil
  | _ => s.emit node mtxn.txnID cmd.sendQueue

/-- Takes the oldest command of a transaction, if there is one, and handles it. -/
def processYields (s : System P) (node : Int) (id : TransactionID) : System P :=
  match (s.txns id).yieldCh with
  | [] => s
  | cmd :: rest => (s.setTxn id { s.txns id with yieldCh := rest }).handleYieldCommand node id cmd

/-- The same for a transaction that migrated to the node. -/
def processMigratedYields (s : System P) (node : Int) (mtxn : MigratedTxn) : System P :=
  match (s.txns mtxn.channels).yieldCh with
  | [] => s
  | cmd :: rest =>
    (s.setTxn mtxn.channels { s.txns mtxn.channels with yieldCh := rest }).handleMigratedYield node mtxn cmd

/-! ### Actions -/

/-- A message gets the id of the transaction that sends it unless it has one. -/
def stamp (id : TransactionID) (msg : Message P) : Message P :=
  if msg.transactionID = ⟨0,0⟩ then { msg with transactionID := id } else msg

/-- Puts a command on the transaction's yield channel, which has room. -/
def pushYield (s : System P) (id : TransactionID) (cmd : YieldCommand P) : System P :=
  { s.setTxn id { s.txns id with yieldCh := (s.txns id).yieldCh ++ [cmd] } with
    issued := Function.update s.issued id (s.issued id ++ cmd.sendQueue) }

end System

/-- What can happen next. Transaction functions send, yield and complete as they
    like; a wait ends with a resume value, or is given up by a timeout or by the
    context. Managers tick with any incoming messages, and go over their maps in
    any order. -/
inductive Action (P : Type) where
  | start (node : Int)
  | send (id : TransactionID) (msg : Message P)
  | yield (id : TransactionID) (cmd : YieldCommand P)
  | resume (id : TransactionID)
  | giveUp (id : TransactionID)
  | complete (id : TransactionID) (result : Bool)
  | exit (id : TransactionID)
  | tickBegin (node : Int) (incoming : List (Message P))
  | routeNext (node : Int)
  | snapshot (node : Int) (order : List TransactionID)
  | processNext (node : Int)
  | snapshotMigrated (node : Int) (order : List TransactionID)
  | processMigratedNext (node : Int)
  | tickEnd (node : Int)

namespace System

/-- Registers a new transaction with the manager of the node and starts it. -/
def start (s : System P) (node : Int) : System P :=
  let tm := s.managers node
  let id : TransactionID := ⟨node,tm.nextTxnID⟩
  (s.setTxn id ⟨.running,[],[],none,[],.inProgress⟩).setManager node
    { tm with nextTxnID := tm.nextTxnID + 1, activeTxns := tm.activeTxns ++ [id] }

/-- The end of a transaction function: its manager forgets it. -/
def exit (s : System P) (id : TransactionID) : System P :=
  let tm := s.managers id.nodeID
  (s.setTxn id { s.txns id with phase := .exited }).setManager id.nodeID
    { tm with
      activeTxns := tm.activeTxns.filter (fun other => other ≠ id)
      pendingByAddr := fun addr => (tm.pendingByAddr addr).filter (fun other => other ≠ id) }

def setTick (s : System P) (node : Int) (tick : TickPhase P) : System P :=
  s.setManager node { s.managers node with tick }

theorem migratedTxns_setTick (s : System P) (node : Int) (tick : TickPhase P) :
    ((s.setTick node tick).managers node).migratedTxns = (s.managers node).migratedTxns := by
  simp [setTick,setManager]

/-- Whether the transaction's function has started and not returned. -/
def live (s : System P) (id : TransactionID) : Bool :=
  match (s.txns id).phase with
  | .notStarted => false
  | .exited => false
  | _ => true

/-- Routes a message and records it when it does not resume the live transaction
    it is addressed to. -/
def route (s : System P) (node : Int) (msg : Message P) : System P :=
  let missed := s.live msg.transactionID && !s.resumes node msg msg.transactionID
  let s := s.routeMessage node msg
  if missed then { s with discarded := s.discarded ++ [msg] } else s

variable [DecidableEq P]

/-- Handles the next incoming message. A migration request is taken from those
    under way: each is delivered once, to its target. -/
def routeNext (s : System P) (node : Int) : Option (System P) :=
  match (s.managers node).tick with
  | .routing (msg :: rest) =>
    let s := s.setTick node (.routing rest)
    if msg.isMigration then
      if msg ∈ s.migrations ∧ msg.targetNodeID = node then
        some ({ s with migrations := s.migrations.erase msg }.handleMigrationRequest node msg)
      else none
    else if msg.type = msgTypeMigrationRequest then some (s.handleMigrationRequest node msg)
    else some (s.route node msg)
  | _ => none

/-- One action, if it can happen. -/
def step (s : System P) : Action P → Option (System P)
  | .start node => some (s.start node)
  | .send id msg =>
    if (s.txns id).phase = .running ∧ (s.txns id).yieldCh.length < yieldCapacity ∧ msg.isMigration = false then
      some (s.pushYield id { type := .sendOnly, sendQueue := [stamp id msg] })
    else none
  | .yield id cmd =>
    if (s.txns id).phase = .running ∧ (s.txns id).yieldCh.length < yieldCapacity ∧
        cmd.sendQueue.all (fun msg => !msg.isMigration) then
      let s := s.pushYield id cmd
      some (s.setTxn id { s.txns id with phase := .yielding cmd })
    else none
  | .resume id =>
    match (s.txns id).phase, (s.txns id).resumeCh with
    | .yielding _, _ :: rest => some (s.setTxn id { s.txns id with phase := .running, resumeCh := rest })
    | _, _ => none
  | .giveUp id =>
    match (s.txns id).phase with
    | .yielding _ => some (s.setTxn id { s.txns id with phase := .running })
    | _ => none
  | .complete id result =>
    if (s.txns id).phase = .running ∧ (s.txns id).yieldCh.length < yieldCapacity then
      let s := s.pushYield id { type := .complete }
      some (if result then s.pushResume id .result else s)
    else none
  | .exit id => if (s.txns id).phase = .running then some (s.exit id) else none
  | .tickBegin node incoming =>
    match (s.managers node).tick with
    | .idle => some (s.setTick node (.routing incoming))
    | _ => none
  | .routeNext node => s.routeNext node
  | .snapshot node order =>
    match (s.managers node).tick with
    | .routing [] => if order.Perm (s.managers node).activeTxns then some (s.setTick node (.processing order)) else none
    | _ => none
  | .processNext node =>
    match (s.managers node).tick with
    | .processing (id :: rest) => some ((s.setTick node (.processing rest)).processYields node id)
    | _ => none
  | .snapshotMigrated node order =>
    match (s.managers node).tick with
    | .processing [] =>
      if order.Perm ((s.managers node).migratedTxns.map MigratedTxn.txnID) then
        some (s.setTick node (.processingMigrated order))
      else none
    | _ => none
  | .processMigratedNext node =>
    match (s.managers node).tick with
    | .processingMigrated (id :: rest) =>
      let s := s.setTick node (.processingMigrated rest)
      match (s.managers node).migratedTxns.find? (fun mtxn => mtxn.txnID = id) with
      | some mtxn => some (s.processMigratedYields node mtxn)
      | none => some s
    | _ => none
  | .tickEnd node =>
    match (s.managers node).tick with
    | .processingMigrated [] =>
      some (s.setManager node { s.managers node with tick := .idle, ticks := (s.managers node).ticks + 1 })
    | _ => none

/-! ### What a step can do -/

/-- The ways in which an action can happen, each with its condition and its result. -/
inductive Stepped (s : System P) : Action P → System P → Prop where
  | start (node : Int) : Stepped s (.start node) (s.start node)
  | send {id : TransactionID} {msg : Message P} (running : (s.txns id).phase = .running)
      (room : (s.txns id).yieldCh.length < yieldCapacity) (plain : msg.isMigration = false) :
      Stepped s (.send id msg) (s.pushYield id { type := .sendOnly, sendQueue := [stamp id msg] })
  | yield {id : TransactionID} {cmd : YieldCommand P} (running : (s.txns id).phase = .running)
      (room : (s.txns id).yieldCh.length < yieldCapacity)
      (plain : cmd.sendQueue.all (fun msg => !msg.isMigration) = true) :
      Stepped s (.yield id cmd)
        ((s.pushYield id cmd).setTxn id { (s.pushYield id cmd).txns id with phase := .yielding cmd })
  | resume {id : TransactionID} {cmd : YieldCommand P} {value : ResumeValue P} {rest : List (ResumeValue P)}
      (waiting : (s.txns id).phase = .yielding cmd) (resumed : (s.txns id).resumeCh = value :: rest) :
      Stepped s (.resume id) (s.setTxn id { s.txns id with phase := .running, resumeCh := rest })
  | giveUp {id : TransactionID} {cmd : YieldCommand P} (waiting : (s.txns id).phase = .yielding cmd) :
      Stepped s (.giveUp id) (s.setTxn id { s.txns id with phase := .running })
  | complete {id : TransactionID} (running : (s.txns id).phase = .running)
      (room : (s.txns id).yieldCh.length < yieldCapacity) :
      Stepped s (.complete id false) (s.pushYield id { type := .complete })
  | completeResult {id : TransactionID} (running : (s.txns id).phase = .running)
      (room : (s.txns id).yieldCh.length < yieldCapacity) :
      Stepped s (.complete id true) ((s.pushYield id { type := .complete }).pushResume id .result)
  | exit {id : TransactionID} (running : (s.txns id).phase = .running) : Stepped s (.exit id) (s.exit id)
  | tickBegin {node : Int} {incoming : List (Message P)} (idle : (s.managers node).tick = .idle) :
      Stepped s (.tickBegin node incoming) (s.setTick node (.routing incoming))
  | arrive {node : Int} {msg : Message P} {rest : List (Message P)}
      (routing : (s.managers node).tick = .routing (msg :: rest)) (migration : msg.isMigration = true)
      (underWay : msg ∈ s.migrations) (target : msg.targetNodeID = node) :
      Stepped s (.routeNext node) (({ s.setTick node (.routing rest) with
        migrations := s.migrations.erase msg } : System P).handleMigrationRequest node msg)
  | ignore {node : Int} {msg : Message P} {rest : List (Message P)}
      (routing : (s.managers node).tick = .routing (msg :: rest)) (ordinary : msg.isMigration = false)
      (kind : msg.type = msgTypeMigrationRequest) : Stepped s (.routeNext node) (s.setTick node (.routing rest))
  | route {node : Int} {msg : Message P} {rest : List (Message P)}
      (routing : (s.managers node).tick = .routing (msg :: rest)) (ordinary : msg.isMigration = false)
      (kind : msg.type ≠ msgTypeMigrationRequest) :
      Stepped s (.routeNext node) ((s.setTick node (.routing rest)).route node msg)
  | snapshot {node : Int} {order : List TransactionID} (routing : (s.managers node).tick = .routing [])
      (perm : order.Perm (s.managers node).activeTxns) :
      Stepped s (.snapshot node order) (s.setTick node (.processing order))
  | process {node : Int} {id : TransactionID} {rest : List TransactionID}
      (processing : (s.managers node).tick = .processing (id :: rest)) :
      Stepped s (.processNext node) ((s.setTick node (.processing rest)).processYields node id)
  | snapshotMigrated {node : Int} {order : List TransactionID} (processing : (s.managers node).tick = .processing [])
      (perm : order.Perm ((s.managers node).migratedTxns.map MigratedTxn.txnID)) :
      Stepped s (.snapshotMigrated node order) (s.setTick node (.processingMigrated order))
  | processMigrated {node : Int} {mtxn : MigratedTxn} {rest : List TransactionID}
      (processing : (s.managers node).tick = .processingMigrated (mtxn.txnID :: rest))
      (entry : mtxn ∈ (s.managers node).migratedTxns) :
      Stepped s (.processMigratedNext node)
        ((s.setTick node (.processingMigrated rest)).processMigratedYields node mtxn)
  | skipMigrated {node : Int} {id : TransactionID} {rest : List TransactionID}
      (processing : (s.managers node).tick = .processingMigrated (id :: rest))
      (absent : id ∉ (s.managers node).migratedTxns.map MigratedTxn.txnID) :
      Stepped s (.processMigratedNext node) (s.setTick node (.processingMigrated rest))
  | tickEnd {node : Int} (processing : (s.managers node).tick = .processingMigrated []) :
      Stepped s (.tickEnd node)
        (s.setManager node { s.managers node with tick := .idle, ticks := (s.managers node).ticks + 1 })

omit [DecidableEq P] in
/-- Without the channels of a transaction a migration request is ignored. -/
theorem handleMigrationRequest_ordinary (s : System P) (node : Int) {msg : Message P} (ordinary : msg.isMigration = false) :
    s.handleMigrationRequest node msg = s := by
  unfold handleMigrationRequest
  split
  · next payload => simp [Message.isMigration,payload] at ordinary
  · rfl

theorem stepped_routeNext {s s' : System P} {node : Int} (stepped : s.routeNext node = some s') :
    Stepped s (.routeNext node) s' := by
  simp only [routeNext] at stepped
  split at stepped
  · next msg rest routing =>
    split at stepped
    · next migration =>
      simp only [Option.ite_none_right_eq_some,Option.some.injEq] at stepped
      obtain ⟨⟨underWay,target⟩,rfl⟩ := stepped
      exact .arrive routing migration underWay target
    · next ordinary =>
      have plain : msg.isMigration = false := Bool.eq_false_iff.mpr ordinary
      split at stepped
      · next kind =>
        cases stepped
        rw [handleMigrationRequest_ordinary _ node plain]
        exact .ignore routing plain kind
      · next kind =>
        cases stepped
        exact .route routing plain kind
  · cases stepped

/-- An id that has left the table of migrated transactions is passed over. -/
theorem stepped_processMigratedNext {s s' : System P} {node : Int} (stepped : s.step (.processMigratedNext node) = some s') :
    Stepped s (.processMigratedNext node) s' := by
  simp only [step] at stepped
  split at stepped
  · next id rest processing =>
    rw [migratedTxns_setTick] at stepped
    split at stepped
    · next mtxn found =>
      cases stepped
      obtain rfl : mtxn.txnID = id := by simpa using List.find?_some found
      exact .processMigrated processing (List.mem_of_find?_eq_some found)
    · next missing =>
      cases stepped
      refine .skipMigrated processing (fun entry => ?_)
      obtain ⟨mtxn,isEntry,same⟩ := List.mem_map.mp entry
      exact absurd (List.find?_eq_none.mp missing mtxn isEntry) (by simp [same])
  · cases stepped

theorem step_stepped {s s' : System P} {action : Action P} (stepped : s.step action = some s') : Stepped s action s' := by
  cases action with
  | start node =>
    cases stepped
    exact .start node
  | send id msg =>
    simp only [step,Option.ite_none_right_eq_some,Option.some.injEq] at stepped
    obtain ⟨⟨running,room,plain⟩,rfl⟩ := stepped
    exact .send running room plain
  | yield id cmd =>
    simp only [step,Option.ite_none_right_eq_some,Option.some.injEq] at stepped
    obtain ⟨⟨running,room,plain⟩,rfl⟩ := stepped
    exact .yield running room plain
  | resume id =>
    simp only [step] at stepped
    split at stepped
    · next waiting resumed =>
      cases stepped
      exact .resume waiting resumed
    · cases stepped
  | giveUp id =>
    simp only [step] at stepped
    split at stepped
    · next waiting =>
      cases stepped
      exact .giveUp waiting
    · cases stepped
  | complete id result =>
    simp only [step,Option.ite_none_right_eq_some,Option.some.injEq] at stepped
    obtain ⟨⟨running,room⟩,rfl⟩ := stepped
    cases result with
    | false => exact .complete running room
    | true => exact .completeResult running room
  | exit id =>
    simp only [step,Option.ite_none_right_eq_some,Option.some.injEq] at stepped
    obtain ⟨running,rfl⟩ := stepped
    exact .exit running
  | tickBegin node incoming =>
    simp only [step] at stepped
    split at stepped
    · next idle =>
      cases stepped
      exact .tickBegin idle
    · cases stepped
  | routeNext node => exact stepped_routeNext stepped
  | snapshot node order =>
    simp only [step] at stepped
    split at stepped
    · next routing =>
      simp only [Option.ite_none_right_eq_some,Option.some.injEq] at stepped
      obtain ⟨perm,rfl⟩ := stepped
      exact .snapshot routing perm
    · cases stepped
  | processNext node =>
    simp only [step] at stepped
    split at stepped
    · next processing =>
      cases stepped
      exact .process processing
    · cases stepped
  | snapshotMigrated node order =>
    simp only [step] at stepped
    split at stepped
    · next processing =>
      simp only [Option.ite_none_right_eq_some,Option.some.injEq] at stepped
      obtain ⟨perm,rfl⟩ := stepped
      exact .snapshotMigrated processing perm
    · cases stepped
  | processMigratedNext node => exact stepped_processMigratedNext stepped
  | tickEnd node =>
    simp only [step] at stepped
    split at stepped
    · next processing =>
      cases stepped
      exact .tickEnd processing
    · cases stepped

end System
end FlowSim.Transaction
