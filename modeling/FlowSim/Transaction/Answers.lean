import FlowSim.Lib.ReplyChannel
import FlowSim.Transaction.Hosting
import FlowSim.Transaction.Place

/-!
Whose answer a Yield returns. All Yields of a transaction share its resume
channel, and what answers one that was given up still comes. A session follows
each transaction as a client that numbers its Yields; a Yield returns its own
answer as long as no answer comes at a time when another could be taken for it.
-/
namespace FlowSim.Transaction
open FlowSim.Lib
set_option linter.unusedSimpArgs false

variable {P : Type}

/-- The answers that come some time after a command has been handled. -/
inductive Deferral where
  | message
  | migration
deriving DecidableEq

/-- How the managers answer a command. -/
def answering (cmd : YieldCommand P) : Handling Deferral (ResumeValue P) :=
  match cmd.type with
  | .waitForMessage => .later .message
  | .migrateTo => .later .migration
  | .sendAndWait => .now .nil
  | _ => .nothing

/-- The value is of the kind that the command waits for. -/
def YieldCommand.AnsweredBy (cmd : YieldCommand P) : ResumeValue P → Prop
  | .message _ => cmd.type = .waitForMessage
  | .nil => cmd.type = .sendAndWait
  | .migrationResult _ _ => cmd.type = .migrateTo
  | .result => False

theorem answering_message {cmd : YieldCommand P} : answering cmd = .later .message ↔ cmd.type = .waitForMessage := by
  cases type : cmd.type <;> simp [answering,type]

theorem answering_migration {cmd : YieldCommand P} : answering cmd = .later .migration ↔ cmd.type = .migrateTo := by
  cases type : cmd.type <;> simp [answering,type]

theorem answering_now {cmd : YieldCommand P} {value : ResumeValue P} :
    answering cmd = .now value ↔ cmd.type = .sendAndWait ∧ value = .nil := by
  cases type : cmd.type <;> simp [answering,type,eq_comm]

/-- A transaction as a client of its managers. -/
abbrev TxnClient (P : Type) := Client (YieldCommand P) Deferral (ResumeValue P)

/-- What an action of the system is to the transaction. -/
def follow (s : System P) (c : TxnClient P) (id : TransactionID) : Action P → TxnClient P
  | .start node => if id = ⟨node,(s.managers node).nextTxnID⟩ then .idle else c
  | .send other msg => if id = other then c.post { type := .sendOnly, sendQueue := [System.stamp other msg] } else c
  | .yield other cmd => if id = other then c.ask cmd else c
  | .resume other => if id = other then c.take else c
  | .giveUp other => if id = other then c.abandon else c
  | .complete other result =>
    if id = other then
      let c := c.post { type := .complete }
      if result then c.reply yieldCapacity .result none else c
    else c
  | .routeNext node =>
    match (s.managers node).tick with
    | .routing (msg :: _) =>
      match msg.payload with
      | .migration channels =>
        if id = channels then c.deliver yieldCapacity .migration (.migrationResult node msg) else c
      | _ =>
        if msg.type ≠ msgTypeMigrationRequest ∧ s.resumes node msg id = true then
          c.deliver yieldCapacity .message (.message msg)
        else c
    | _ => c
  | .processNext node =>
    match (s.managers node).tick with
    | .processing (other :: _) => if id = other then c.handle answering yieldCapacity else c
    | _ => c
  | .processMigratedNext node =>
    match (s.managers node).tick with
    | .processingMigrated (other :: _) =>
      if id = other ∧ id ∈ (s.managers node).migratedTxns.map MigratedTxn.txnID then
        c.handle answering yieldCapacity
      else c
    | _ => c
  | _ => c

/-- The system, and what its transactions have asked and are answered. -/
structure Session (P : Type) where
  system : System P
  clients : TransactionID → TxnClient P

namespace Session

def initial : Session P := ⟨System.initial,fun _ => .idle⟩

/-- One action of the system, followed for every transaction. -/
def step [DecidableEq P] (session : Session P) (action : Action P) : Option (Session P) :=
  (session.system.step action).map (fun s' =>
    ⟨s',fun id => follow session.system (session.clients id) id action⟩)

end Session

/-! ### Clients and channels -/

/-- The command of the Yield that a goroutine stands in. -/
def Phase.asking : Phase P → Option (YieldCommand P)
  | .yielding cmd => some cmd
  | _ => none

@[simp] theorem asking_eq_some {phase : Phase P} {cmd : YieldCommand P} :
    phase.asking = some cmd ↔ phase = .yielding cmd := by
  cases phase <;> simp [Phase.asking]

/-- The client stands where the goroutine does, and has the same in its channels. -/
structure Tracks (txn : Txn P) (c : TxnClient P) : Prop where
  asking : c.asking = txn.phase.asking
  requests : c.requests.map Prod.fst = txn.yieldCh
  replies : c.replies.map Prod.fst = txn.resumeCh

namespace Tracks
variable {txn txn' : Txn P} {c : TxnClient P}

theorem same (tracks : Tracks txn c) (phase : txn'.phase = txn.phase) (yieldCh : txn'.yieldCh = txn.yieldCh)
    (resumeCh : txn'.resumeCh = txn.resumeCh) : Tracks txn' c :=
  ⟨phase ▸ tracks.asking,yieldCh ▸ tracks.requests,resumeCh ▸ tracks.replies⟩

theorem post (tracks : Tracks txn c) (cmd : YieldCommand P) (phase : txn'.phase = txn.phase)
    (yieldCh : txn'.yieldCh = txn.yieldCh ++ [cmd]) (resumeCh : txn'.resumeCh = txn.resumeCh) :
    Tracks txn' (c.post cmd) where
  asking := phase ▸ tracks.asking
  requests := by simp [Client.post,tracks.requests,yieldCh]
  replies := resumeCh ▸ tracks.replies

theorem reply (tracks : Tracks txn c) (value : ResumeValue P) (number : Option Nat) (phase : txn'.phase = txn.phase)
    (yieldCh : txn'.yieldCh = txn.yieldCh)
    (resumeCh : txn'.resumeCh = txn.resumeCh ++ if txn.resumeCh.length < yieldCapacity then [value] else []) :
    Tracks txn' (c.reply yieldCapacity value number) := by
  have lengths : c.replies.length = txn.resumeCh.length := by
    rw [← tracks.replies,List.length_map]
  unfold Client.reply
  by_cases room : txn.resumeCh.length < yieldCapacity
  · rw [if_pos room] at resumeCh
    rw [if_pos (lengths ▸ room)]
    refine ⟨phase ▸ tracks.asking,yieldCh ▸ tracks.requests,?_⟩
    simp [resumeCh,tracks.replies]
  · rw [if_neg room,List.append_nil] at resumeCh
    rw [if_neg (lengths ▸ room)]
    exact tracks.same phase yieldCh resumeCh

/-- The oldest command is handled. -/
theorem handle (tracks : Tracks txn c) (phase : txn'.phase = txn.phase) (yieldCh : txn'.yieldCh = txn.yieldCh.tail)
    (resumeCh : txn'.resumeCh = txn.resumeCh ++
      if txn.yieldCh.head?.any (fun cmd => cmd.type = .sendAndWait) ∧ txn.resumeCh.length < yieldCapacity then [.nil] else []) :
    Tracks txn' (c.handle answering yieldCapacity) := by
  unfold Client.handle
  split
  · next empty =>
    have none : txn.yieldCh = [] := by rw [← tracks.requests,empty]; rfl
    rw [none] at yieldCh resumeCh
    refine tracks.same phase (by rw [yieldCh,none]; rfl) (by simpa using resumeCh)
  · next cmd number rest queue =>
    have headed : txn.yieldCh = cmd :: rest.map Prod.fst := by rw [← tracks.requests,queue]; rfl
    rw [headed] at yieldCh resumeCh
    simp only [List.head?_cons,Option.any_some,decide_eq_true_eq,List.tail_cons] at yieldCh resumeCh
    have popped : ∀ expected, cmd.type ≠ .sendAndWait →
        Tracks txn' { c with requests := rest, expected := expected } := by
      intro expected other
      refine ⟨phase ▸ tracks.asking,yieldCh.symm,?_⟩
      rw [resumeCh,if_neg (fun both => other both.1),List.append_nil]
      exact tracks.replies
    split
    · next nothing => exact popped _ (fun type => by simp [answering,type] at nothing)
    · next kind later => exact popped _ (fun type => by simp [answering,type] at later)
    · next value now =>
      obtain ⟨type,rfl⟩ := answering_now.mp now
      have before : Tracks { txn with yieldCh := rest.map Prod.fst } { c with requests := rest } :=
        ⟨tracks.asking,rfl,tracks.replies⟩
      refine before.reply .nil number phase yieldCh ?_
      rw [resumeCh]
      simp [type]

end Tracks
/-! ### What handling a command puts on the resume channels -/

theorem resumeCh_setTxn {s : System P} {id other : TransactionID} {txn : Txn P}
    (same : txn.resumeCh = (s.txns id).resumeCh) : ((s.setTxn id txn).txns other).resumeCh = (s.txns other).resumeCh := by
  rw [txns_setTxn]
  split
  · next here => rw [here,same]
  · rfl

theorem resumeCh_handleYieldCommand (s : System P) (node : Int) (id other : TransactionID) (cmd : YieldCommand P) :
    ((s.handleYieldCommand node id cmd).txns other).resumeCh = (s.txns other).resumeCh ++
      if other = id ∧ cmd.type = .sendAndWait ∧ (s.txns other).resumeCh.length < yieldCapacity then [.nil] else [] := by
  unfold System.handleYieldCommand
  split
  · next type => simp [type,System.sendMigration,System.emit,System.setManager]
  · next type =>
    dsimp only
    split
    · simp only [type,reduceCtorEq,false_and,and_false,if_false,List.append_nil]
      exact resumeCh_setTxn rfl
    · simp only [type,reduceCtorEq,false_and,and_false,if_false,List.append_nil]
      by_cases here : other = id
      · simp [System.execute,System.emit,System.setManager,System.setTxn,here]
      · simp [System.execute,System.emit,System.setManager,System.setTxn,here]
  · next type =>
    rw [resumeCh_pushResume]
    simp only [type,true_and]
    rfl
  · next type =>
    simp only [type,reduceCtorEq,false_and,and_false,if_false,List.append_nil]
    exact resumeCh_setTxn rfl
  · have other : cmd.type ≠ .sendAndWait := by assumption
    simp only [other,false_and,and_false,if_false,List.append_nil]
    rfl

theorem resumeCh_handleMigratedYield (s : System P) (node : Int) (mtxn : MigratedTxn) (other : TransactionID)
    (cmd : YieldCommand P) : ((s.handleMigratedYield node mtxn cmd).txns other).resumeCh = (s.txns other).resumeCh ++
      if other = mtxn.channels ∧ cmd.type = .sendAndWait ∧ (s.txns other).resumeCh.length < yieldCapacity then [.nil]
      else [] := by
  unfold System.handleMigratedYield
  dsimp only
  split
  · next type => simp [type,System.sendMigration,System.emit,System.setManager]
  · next type => simp [type,System.emit,System.setManager]
  · next type => simp [type,System.emit,System.setManager]
  · next type =>
    rw [resumeCh_pushResume]
    simp only [type,true_and]
    rfl
  · have other : cmd.type ≠ .sendAndWait := by assumption
    simp only [other,false_and,and_false,if_false,List.append_nil]
    rfl

/-- What a Tick that comes to the transaction does to its channels. -/
theorem tracks_processYields {s : System P} {node : Int} {id : TransactionID} {c : TxnClient P} {txn : Txn P}
    (tracks : Tracks txn c) (same : s.txns id = txn) :
    Tracks ((s.processYields node id).txns id) (c.handle answering yieldCapacity) := by
  subst same
  refine tracks.handle (phase_processYields s node id id) ((yieldCh_processYields s node id id).trans (if_pos rfl)) ?_
  rcases queue : (s.txns id).yieldCh with _ | ⟨cmd,rest⟩
  · simp [System.processYields,queue]
  · simp only [System.processYields,queue,resumeCh_handleYieldCommand]
    simp [txns_setTxn]

theorem tracks_processMigratedYields {s : System P} {node : Int} {mtxn : MigratedTxn} {c : TxnClient P} {txn : Txn P}
    (tracks : Tracks txn c) (same : s.txns mtxn.channels = txn) :
    Tracks ((s.processMigratedYields node mtxn).txns mtxn.channels) (c.handle answering yieldCapacity) := by
  subst same
  refine tracks.handle (phase_processMigratedYields s node mtxn mtxn.channels)
    ((yieldCh_processMigratedYields s node mtxn mtxn.channels).trans (if_pos rfl)) ?_
  rcases queue : (s.txns mtxn.channels).yieldCh with _ | ⟨cmd,rest⟩
  · simp [System.processMigratedYields,queue]
  · simp only [System.processMigratedYields,queue,resumeCh_handleMigratedYield]
    simp [txns_setTxn]

theorem resumeCh_processYields_of_ne {s : System P} {node : Int} {id other : TransactionID} (different : other ≠ id) :
    ((s.processYields node id).txns other).resumeCh = (s.txns other).resumeCh := by
  unfold System.processYields
  split
  · rfl
  · rw [resumeCh_handleYieldCommand]
    simp [txns_setTxn,different]

theorem resumeCh_processMigratedYields_of_ne {s : System P} {node : Int} {mtxn : MigratedTxn} {other : TransactionID}
    (different : other ≠ mtxn.channels) :
    ((s.processMigratedYields node mtxn).txns other).resumeCh = (s.txns other).resumeCh := by
  unfold System.processMigratedYields
  split
  · rfl
  · rw [resumeCh_handleMigratedYield]
    simp [txns_setTxn,different]

/-! ### Steps -/

section
variable [DecidableEq P] {s s' : System P} {action : Action P}

omit [DecidableEq P] in
/-- What a step does to another transaction's record is nothing to the client. -/
theorem Tracks.setTxn_of_ne {id other : TransactionID} {txn : Txn P} {c : TxnClient P} (tracks : Tracks (s.txns id) c)
    (different : id ≠ other) : Tracks ((s.setTxn other txn).txns id) c := by
  rw [txns_setTxn,if_neg different]
  exact tracks

omit [DecidableEq P] in
/-- What comes without the channels of a transaction is an answer for those it resumes. -/
theorem follow_response {node : Int} {msg : Message P} {rest : List (Message P)} {id : TransactionID} {c : TxnClient P}
    (routing : (s.managers node).tick = .routing (msg :: rest)) (ordinary : msg.isMigration = false) :
    follow s c id (.routeNext node) = if msg.type ≠ msgTypeMigrationRequest ∧ s.resumes node msg id = true then
      c.deliver yieldCapacity .message (.message msg) else c := by
  simp only [follow,routing]
  cases payload : msg.payload with
  | migration channels => simp [Message.isMigration,payload] at ordinary
  | none => rfl
  | value p => rfl

omit [DecidableEq P] in
theorem Tracks.start {id : TransactionID} {c : TxnClient P} (tracks : Tracks (s.txns id) c) (node : Int) :
    Tracks ((s.start node).txns id) (follow s c id (.start node)) := by
  simp only [follow]
  split
  · next here =>
    subst here
    simpa [System.start,System.setManager,txns_setTxn] using
      (⟨rfl,rfl,rfl⟩ : Tracks (⟨.running,[],[],none,[],.inProgress⟩ : Txn P) .idle)
  · next different =>
    rw [txns_start s node different]
    exact tracks

omit [DecidableEq P] in
/-- A command that the transaction does not wait for is posted. -/
theorem Tracks.pushYield {id : TransactionID} {c : TxnClient P} (tracks : Tracks (s.txns id) c) (cmd : YieldCommand P) :
    Tracks ((s.pushYield id cmd).txns id) (c.post cmd) := by
  refine tracks.post _ ?_ ?_ ?_ <;> simp [System.pushYield,txns_setTxn]

omit [DecidableEq P] in
theorem Tracks.yield {id other : TransactionID} {c : TxnClient P} (tracks : Tracks (s.txns id) c) (cmd : YieldCommand P) :
    Tracks (((s.pushYield other cmd).setTxn other { (s.pushYield other cmd).txns other with phase := .yielding cmd }).txns id)
      (follow s c id (.yield other cmd)) := by
  simp only [follow]
  split
  · next here =>
    subst here
    refine ⟨?_,?_,?_⟩
    · simp [Client.ask,txns_setTxn,Phase.asking]
    · simp [Client.ask,txns_setTxn,System.pushYield,tracks.requests]
    · simp [Client.ask,txns_setTxn,System.pushYield,tracks.replies]
  · next different =>
    exact Tracks.setTxn_of_ne (s := s.pushYield other cmd) (tracks.setTxn_of_ne different) different

omit [DecidableEq P] in
theorem Tracks.resume {id other : TransactionID} {c : TxnClient P} (tracks : Tracks (s.txns id) c) {value : ResumeValue P}
    {rest : List (ResumeValue P)} (resumed : (s.txns other).resumeCh = value :: rest) :
    Tracks ((s.setTxn other { s.txns other with phase := .running, resumeCh := rest }).txns id)
      (follow s c id (.resume other)) := by
  simp only [follow]
  split
  · next here =>
    subst here
    refine ⟨?_,?_,?_⟩
    · simp [Client.take,txns_setTxn,Phase.asking]
    · simp [Client.take,txns_setTxn,tracks.requests]
    · simp [Client.take,txns_setTxn,List.map_tail,tracks.replies,resumed]
  · next different => exact tracks.setTxn_of_ne different

omit [DecidableEq P] in
theorem Tracks.giveUp {id other : TransactionID} {c : TxnClient P} (tracks : Tracks (s.txns id) c) :
    Tracks ((s.setTxn other { s.txns other with phase := .running }).txns id) (follow s c id (.giveUp other)) := by
  simp only [follow]
  split
  · next here =>
    subst here
    refine ⟨?_,?_,?_⟩
    · simp [Client.abandon,txns_setTxn,Phase.asking]
    · simp [Client.abandon,txns_setTxn,tracks.requests]
    · simp [Client.abandon,txns_setTxn,tracks.replies]
  · next different => exact tracks.setTxn_of_ne different

omit [DecidableEq P] in
/-- A transaction with a result posts the command and replies to itself. -/
theorem Tracks.completeResult {id other : TransactionID} {c : TxnClient P} (tracks : Tracks (s.txns id) c) :
    Tracks (((s.pushYield other { type := .complete }).pushResume other .result).txns id)
      (follow s c id (.complete other true)) := by
  have pushed : SameTables (s.pushYield other { type := .complete })
      ((s.pushYield other { type := .complete }).pushResume other .result) := .pushResume (.refl _)
  simp only [follow]
  split
  · next here =>
    subst here
    exact (tracks.pushYield { type := .complete }).reply .result none (pushed.phase id) (pushed.yieldCh id)
      (by rw [resumeCh_pushResume]; simp)
  · next different =>
    have posted : Tracks ((s.pushYield other { type := .complete }).txns id) c := tracks.setTxn_of_ne different
    exact posted.same (pushed.phase id) (pushed.yieldCh id) (by rw [resumeCh_pushResume]; simp [different])

omit [DecidableEq P] in
theorem Tracks.exit {id other : TransactionID} {c : TxnClient P} (tracks : Tracks (s.txns id) c)
    (running : (s.txns other).phase = .running) : Tracks ((s.exit other).txns id) c := by
  show Tracks ((s.setTxn other { s.txns other with phase := .exited }).txns id) c
  by_cases here : id = other
  · subst here
    refine ⟨?_,?_,?_⟩
    · simp [txns_setTxn,tracks.asking,running,Phase.asking]
    · simp [txns_setTxn,tracks.requests]
    · simp [txns_setTxn,tracks.replies]
  · exact tracks.setTxn_of_ne here

/-- A transaction that arrives is told so. -/
theorem Tracks.arrive (one : OneHolder s) {id : TransactionID} {c : TxnClient P} (tracks : Tracks (s.txns id) c) {node : Int}
    {msg : Message P} {rest : List (Message P)} (routing : (s.managers node).tick = .routing (msg :: rest))
    (underWay : msg ∈ s.migrations) :
    Tracks ((({ s.setTick node (.routing rest) with migrations := s.migrations.erase msg } : System P).handleMigrationRequest
      node msg).txns id) (follow s c id (.routeNext node)) := by
  have shape := one.migrations_shape msg underWay
  have pushed : ∀ t : System P, SameTables t (t.pushResume msg.transactionID (.migrationResult node msg)) :=
    fun t => .pushResume (.refl t)
  simp only [follow,routing,shape,System.handleMigrationRequest]
  split
  · next here =>
    subst here
    refine tracks.reply _ _ ((pushed _).phase _) ((pushed _).yieldCh _) ?_
    rw [resumeCh_pushResume]
    simp only [true_and]
    rfl
  · next different =>
    refine tracks.same ((pushed _).phase id) ((pushed _).yieldCh id) ?_
    rw [resumeCh_pushResume]
    simp only [different,false_and,if_false,List.append_nil]
    rfl

/-- A message is an answer to the transaction that it resumes. -/
theorem Tracks.route (one : OneHolder s) {id : TransactionID} {c : TxnClient P} (tracks : Tracks (s.txns id) c) {node : Int}
    {msg : Message P} {rest : List (Message P)} (routing : (s.managers node).tick = .routing (msg :: rest))
    (ordinary : msg.isMigration = false) (kind : msg.type ≠ msgTypeMigrationRequest)
    (stepped : s.step (.routeNext node) = some ((s.setTick node (.routing rest)).route node msg)) :
    Tracks (((s.setTick node (.routing rest)).route node msg).txns id) (follow s c id (.routeNext node)) := by
  have routed := SameTables.route (s.setTick node (.routing rest)) node msg
  have resumeCh := one.resumeCh_step ⟨rest,routing⟩ ⟨ordinary,kind⟩ stepped id
  rw [follow_response routing ordinary]
  by_cases resumes : s.resumes node msg id = true
  · rw [if_pos ⟨kind,resumes⟩]
    rw [if_pos resumes] at resumeCh
    have room := (resumes_iff.mp resumes).1
    exact tracks.reply _ _ (routed.phase id) (routed.yieldCh id) (by rw [resumeCh,if_pos room])
  · rw [if_neg (fun both => resumes both.2)]
    rw [if_neg resumes,List.append_nil] at resumeCh
    exact tracks.same (routed.phase id) (routed.yieldCh id) resumeCh

omit [DecidableEq P] in
/-- The oldest command of the transaction that a Tick comes to is handled. -/
theorem Tracks.process {id other : TransactionID} {c : TxnClient P} (tracks : Tracks (s.txns id) c) {node : Int}
    {rest : List TransactionID} (processing : (s.managers node).tick = .processing (other :: rest)) :
    Tracks (((s.setTick node (.processing rest)).processYields node other).txns id) (follow s c id (.processNext node)) := by
  simp only [follow,processing]
  split
  · next here =>
    subst here
    exact tracks_processYields tracks rfl
  · next different =>
    refine tracks.same (phase_processYields _ node other id) ?_ (resumeCh_processYields_of_ne different)
    exact (yieldCh_processYields _ node other id).trans (if_neg different)

omit [DecidableEq P] in
theorem Tracks.processMigrated (one : OneHolder s) {id : TransactionID} {c : TxnClient P} (tracks : Tracks (s.txns id) c)
    {node : Int} {mtxn : MigratedTxn} {rest : List TransactionID}
    (processing : (s.managers node).tick = .processingMigrated (mtxn.txnID :: rest))
    (entry : mtxn ∈ (s.managers node).migratedTxns) :
    Tracks (((s.setTick node (.processingMigrated rest)).processMigratedYields node mtxn).txns id)
      (follow s c id (.processMigratedNext node)) := by
  have own := one.own_channels entry
  have listed : mtxn.txnID ∈ (s.managers node).migratedTxns.map MigratedTxn.txnID := List.mem_map_of_mem entry
  simp only [follow,processing]
  split
  · next here =>
    obtain ⟨rfl,_⟩ := here
    rw [← own]
    exact tracks_processMigratedYields (own.symm ▸ tracks) rfl
  · next different =>
    have other : id ≠ mtxn.channels := fun here => different ⟨here.trans own,here.trans own ▸ listed⟩
    refine tracks.same (phase_processMigratedYields _ node mtxn id) ?_ (resumeCh_processMigratedYields_of_ne other)
    exact (yieldCh_processMigratedYields _ node mtxn id).trans (if_neg other)

theorem Tracks.step (one : OneHolder s) (stepped : s.step action = some s') {id : TransactionID} {c : TxnClient P}
    (tracks : Tracks (s.txns id) c) : Tracks (s'.txns id) (follow s c id action) := by
  cases System.step_stepped stepped with
  | start node => exact tracks.start node
  | @send other msg =>
    simp only [follow]
    split
    · next here => exact here ▸ tracks.pushYield _
    · next different => exact tracks.setTxn_of_ne different
  | @yield other cmd => exact tracks.yield cmd
  | resume waiting resumed => exact tracks.resume resumed
  | giveUp => exact tracks.giveUp
  | @complete other =>
    simp only [follow]
    split
    · next here => exact here ▸ tracks.pushYield _
    · next different => exact tracks.setTxn_of_ne different
  | completeResult => exact tracks.completeResult
  | exit running => exact tracks.exit running
  | tickBegin => exact tracks
  | arrive routing migration underWay => exact tracks.arrive one routing underWay
  | ignore routing ordinary kind =>
    rw [follow_response routing ordinary,if_neg (fun both => both.1 kind)]
    exact tracks
  | route routing ordinary kind => exact tracks.route one routing ordinary kind stepped
  | snapshot => exact tracks
  | process processing => exact tracks.process processing
  | snapshotMigrated => exact tracks
  | processMigrated processing entry => exact tracks.processMigrated one processing entry
  | @skipMigrated node other rest processing absent =>
    simp only [follow,processing]
    have missing : ¬(id = other ∧ id ∈ (s.managers node).migratedTxns.map MigratedTxn.txnID) := by
      rintro ⟨rfl,listed⟩
      exact absent listed
    rw [if_neg missing]
    exact tracks
  | tickEnd => exact tracks

theorem numbered_step {id : TransactionID} {c : TxnClient P} (stepped : s.step action = some s')
    (tracks : Tracks (s.txns id) c) (numbered : Client.Numbered answering c) :
    Client.Numbered answering (follow s c id action) := by
  have quiet : ∀ {other}, (s.txns other).phase = .running → id = other → c.asking = none := by
    rintro other running rfl
    rw [tracks.asking,running]
    rfl
  cases System.step_stepped stepped with
  | start node =>
    simp only [follow]
    split
    · exact Client.numbered_idle
    · exact numbered
  | send running =>
    simp only [follow]
    split
    · next here => exact numbered.post (quiet running here) _
    · exact numbered
  | yield =>
    simp only [follow]
    split
    · exact numbered.ask _
    · exact numbered
  | resume =>
    simp only [follow]
    split
    · exact numbered.take
    · exact numbered
  | giveUp =>
    simp only [follow]
    split
    · exact numbered.abandon
    · exact numbered
  | complete running =>
    simp only [follow]
    split
    · next here => exact numbered.post (quiet running here) _
    · exact numbered
  | completeResult running =>
    simp only [follow]
    split
    · next here => exact (numbered.post (quiet running here) _).reply (fun _ isNumber => by cases isNumber) _
    · exact numbered
  | arrive routing =>
    simp only [follow,routing]
    split
    · split
      · exact numbered.deliver _ _
      · exact numbered
    · split
      · exact numbered.deliver _ _
      · exact numbered
  | ignore routing ordinary kind =>
    rw [follow_response routing ordinary,if_neg (fun both => both.1 kind)]
    exact numbered
  | route routing ordinary =>
    rw [follow_response routing ordinary]
    split
    · exact numbered.deliver _ _
    · exact numbered
  | process processing =>
    simp only [follow,processing]
    split
    · exact numbered.handle
    · exact numbered
  | processMigrated processing =>
    simp only [follow,processing]
    split
    · exact numbered.handle
    · exact numbered
  | skipMigrated processing =>
    simp only [follow,processing]
    split
    · exact numbered.handle
    · exact numbered
  | _ => exact numbered

/-! ### Answers in time -/

/-- The oldest command of the transaction, if it is answered at once, is the last
    in the queue, as far as the answer could be taken for that of a later Yield. -/
def HandledInTime (txn : Txn P) : Prop :=
  ∀ cmd first rest, txn.phase = .yielding cmd → txn.resumeCh = [] → txn.yieldCh = first :: rest →
    first.type = .sendAndWait → rest = []

/-- The Yield that the transaction stands in has been handled and waits for an
    answer of the type, as far as one could be taken for its own. -/
def WaitsInTime (txn : Txn P) (type : YieldType) : Prop :=
  ∀ cmd, txn.phase = .yielding cmd → txn.resumeCh = [] → txn.yieldCh = [] ∧ cmd.type = type

/-- The action brings the transaction no answer that a Yield could take for its
    own: it does not yield while answers are left in the channel, and those that
    come to a Yield with an empty channel come when its command has been handled. -/
def InTime (s : System P) (id : TransactionID) : Action P → Prop
  | .yield other _ => id = other → (s.txns id).resumeCh = []
  | .routeNext node => ∀ msg rest, (s.managers node).tick = .routing (msg :: rest) →
      (msg.payload = .migration id → WaitsInTime (s.txns id) .migrateTo) ∧
        (msg.IsResponse → s.resumes node msg id = true → WaitsInTime (s.txns id) .waitForMessage)
  | .processNext node => ∀ rest, (s.managers node).tick = .processing (id :: rest) → HandledInTime (s.txns id)
  | .processMigratedNext node => ∀ rest, (s.managers node).tick = .processingMigrated (id :: rest) →
      HeldBy s id (.migrated node) → HandledInTime (s.txns id)
  | _ => True

section
omit [DecidableEq P]
variable {txn : Txn P} {c : TxnClient P}

theorem Tracks.replies_eq_nil (tracks : Tracks txn c) : c.replies = [] ↔ txn.resumeCh = [] := by
  rw [← tracks.replies,List.map_eq_nil_iff]

theorem Tracks.requests_eq_nil (tracks : Tracks txn c) : c.requests = [] ↔ txn.yieldCh = [] := by
  rw [← tracks.requests,List.map_eq_nil_iff]

theorem Tracks.asking_some (tracks : Tracks txn c) {cmd : YieldCommand P} :
    c.asking = some cmd ↔ txn.phase = .yielding cmd := by
  rw [tracks.asking,asking_eq_some]

/-- A later answer is the transaction's own when it comes in time. -/
theorem Tracks.getsOwn_deliver (tracks : Tracks txn c) (numbered : Client.Numbered answering c)
    (own : c.GetsOwn YieldCommand.AnsweredBy) {kind : Deferral} {type : YieldType} {value : ResumeValue P}
    (kinds : ∀ {cmd : YieldCommand P}, answering cmd = .later kind ↔ cmd.type = type)
    (fits : ∀ {cmd : YieldCommand P}, cmd.type = type → cmd.AnsweredBy value) :
    (c.deliver yieldCapacity kind value).GetsOwn YieldCommand.AnsweredBy ↔ WaitsInTime txn type := by
  rcases asks : c.asking with _ | cmd
  · refine iff_of_true (Client.getsOwn_of_not_asking ?_) (fun cmd yielding => ?_)
    · unfold Client.deliver
      rw [Client.asking_reply,asks]
    · cases asks.symm.trans (tracks.asking_some.mpr yielding)
  · have yielding := tracks.asking_some.mp asks
    rw [numbered.getsOwn_deliver (by decide) own asks (fun later => fits (kinds.mp later)),tracks.replies_eq_nil,
      tracks.requests_eq_nil,kinds]
    constructor
    · intro ready other standing
      cases yielding.symm.trans standing
      exact ready
    · exact fun waits => waits cmd yielding

/-- So is an answer at once. -/
theorem Tracks.getsOwn_handle (tracks : Tracks txn c) (numbered : Client.Numbered answering c)
    (own : c.GetsOwn YieldCommand.AnsweredBy) :
    (c.handle answering yieldCapacity).GetsOwn YieldCommand.AnsweredBy ↔ HandledInTime txn := by
  have fits : ∀ {cmd : YieldCommand P} {value : ResumeValue P}, answering cmd = .now value → cmd.AnsweredBy value := by
    intro cmd value now
    obtain ⟨type,rfl⟩ := answering_now.mp now
    exact type
  rw [numbered.getsOwn_handle (by decide) own fits]
  constructor
  · intro last cmd first rest yielding empty queue type
    have queue' := tracks.requests.trans queue
    obtain ⟨⟨first',number⟩,rest',queued,rfl,rfl⟩ := List.map_eq_cons_iff.mp queue'
    have none := last cmd (tracks.asking_some.mpr yielding) first' number rest' .nil queued
      (answering_now.mpr ⟨type,rfl⟩) (tracks.replies_eq_nil.mpr empty)
    rw [none]
    rfl
  · intro handled cmd asks first number rest value queued now empty
    have queue : txn.yieldCh = first :: rest.map Prod.fst := by rw [← tracks.requests,queued]; rfl
    have none := handled cmd first _ (tracks.asking_some.mp asks) (tracks.replies_eq_nil.mp empty) queue
      (answering_now.mp now).1
    exact List.map_eq_nil_iff.mp none

end

/-- After a step the transaction's next value is its own exactly when the step
    was in time. -/
theorem getsOwn_step (one : OneHolder s) (stepped : s.step action = some s') {id : TransactionID} {c : TxnClient P}
    (tracks : Tracks (s.txns id) c) (numbered : Client.Numbered answering c) (own : c.GetsOwn YieldCommand.AnsweredBy) :
    (follow s c id action).GetsOwn YieldCommand.AnsweredBy ↔ InTime s id action := by
  have quiet : ∀ {other}, (s.txns other).phase = .running → id = other → c.asking = none := by
    rintro other running rfl
    rw [tracks.asking,running]
    rfl
  -- a goroutine that runs takes nothing now
  have runs : ∀ {other} {d : TxnClient P}, (id = other → d.asking = none) →
      (if id = other then d else c).GetsOwn YieldCommand.AnsweredBy := by
    intro other d still
    split
    · next here => exact Client.getsOwn_of_not_asking (still here)
    · exact own
  cases System.step_stepped stepped with
  | start node => exact iff_of_true (runs (fun _ => rfl)) trivial
  | send running => exact iff_of_true (runs (quiet running)) trivial
  | yield =>
    simp only [follow,InTime]
    split
    · next here =>
      rw [numbered.getsOwn_ask,tracks.replies_eq_nil]
      exact ⟨fun empty _ => empty,fun inTime => inTime here⟩
    · next different => exact iff_of_true own (fun here => absurd here different)
  | resume => exact iff_of_true (runs (fun _ => rfl)) trivial
  | giveUp => exact iff_of_true (runs (fun _ => rfl)) trivial
  | complete running => exact iff_of_true (runs (quiet running)) trivial
  | completeResult running =>
    refine iff_of_true (runs (fun here => ?_)) trivial
    simp only [if_true]
    rw [Client.asking_reply]
    exact quiet running here
  | exit => exact iff_of_true own trivial
  | tickBegin => exact iff_of_true own trivial
  | @arrive node msg rest routing migration underWay =>
    have shape := one.migrations_shape msg underWay
    have fits : ∀ {cmd : YieldCommand P}, cmd.type = .migrateTo → cmd.AnsweredBy (.migrationResult node msg) := fun type => type
    have inTime : InTime s id (.routeNext node) ↔ (id = msg.transactionID → WaitsInTime (s.txns id) .migrateTo) := by
      constructor
      · intro inTime here
        exact (inTime msg rest routing).1 (by rw [shape,here])
      · intro waits msg' rest' routing'
        cases routing.symm.trans routing'
        refine ⟨fun payload => waits ?_,fun response => ?_⟩
        · rw [shape] at payload
          cases payload
          rfl
        · cases migration.symm.trans response.1
    simp only [follow,routing,shape]
    rw [inTime]
    split
    · next here =>
      rw [tracks.getsOwn_deliver numbered own answering_migration fits]
      exact ⟨fun waits _ => waits,fun waits => waits here⟩
    · next different => exact iff_of_true own (fun here => absurd here different)
  | @ignore node msg rest routing ordinary kind =>
    rw [follow_response routing ordinary,if_neg (fun both => both.1 kind)]
    refine iff_of_true own (fun msg' rest' routing' => ?_)
    cases routing.symm.trans routing'
    refine ⟨fun payload => ?_,fun response => absurd kind response.2⟩
    simp [Message.isMigration,payload] at ordinary
  | @route node msg rest routing ordinary kind =>
    have fits : ∀ {cmd : YieldCommand P}, cmd.type = .waitForMessage → cmd.AnsweredBy (.message msg) := fun type => type
    have inTime : InTime s id (.routeNext node) ↔
        (s.resumes node msg id = true → WaitsInTime (s.txns id) .waitForMessage) := by
      constructor
      · exact fun inTime resumes => (inTime msg rest routing).2 ⟨ordinary,kind⟩ resumes
      · intro waits msg' rest' routing'
        cases routing.symm.trans routing'
        refine ⟨fun payload => ?_,fun _ resumes => waits resumes⟩
        simp [Message.isMigration,payload] at ordinary
    rw [follow_response routing ordinary,inTime]
    by_cases resumes : s.resumes node msg id = true
    · rw [if_pos ⟨kind,resumes⟩,tracks.getsOwn_deliver numbered own answering_message fits]
      exact ⟨fun waits _ => waits,fun waits => waits resumes⟩
    · rw [if_neg (fun both => resumes both.2)]
      exact iff_of_true own (fun here => absurd here resumes)
  | snapshot => exact iff_of_true own trivial
  | @process node other rest processing =>
    simp only [follow,InTime,processing]
    split
    · next here =>
      rw [tracks.getsOwn_handle numbered own]
      exact ⟨fun inTime _ _ => inTime,fun inTime => inTime rest (by rw [here])⟩
    · next different =>
      refine iff_of_true own (fun rest' same => ?_)
      cases same
      exact absurd rfl different
  | snapshotMigrated => exact iff_of_true own trivial
  | @processMigrated node mtxn rest processing entry =>
    have listed : mtxn.txnID ∈ (s.managers node).migratedTxns.map MigratedTxn.txnID := List.mem_map_of_mem entry
    simp only [follow,InTime,processing]
    split
    · next here =>
      rw [tracks.getsOwn_handle numbered own]
      exact ⟨fun inTime _ _ _ => inTime,fun inTime => inTime rest (by rw [here.1]) here.2⟩
    · next different =>
      refine iff_of_true own (fun rest' same => ?_)
      cases same
      exact absurd ⟨rfl,listed⟩ different
  | @skipMigrated node other rest processing absent =>
    simp only [follow,InTime,processing]
    split
    · next here => exact absurd (here.1 ▸ here.2) absent
    · refine iff_of_true own (fun rest' same held => ?_)
      cases same
      exact absurd held absent
  | tickEnd => exact iff_of_true own trivial

/-! ### Sessions -/

/-- Each Yield that can return now returns an answer that was put on the channel
    for it, of the kind it waits for. -/
def OwnAnswers (session : Session P) : Prop := ∀ id, (session.clients id).GetsOwn YieldCommand.AnsweredBy

/-- The clients follow the system, and get their own answers. -/
structure Answered (session : Session P) : Prop where
  one : OneHolder session.system
  tracks : ∀ id, Tracks (session.system.txns id) (session.clients id)
  numbered : ∀ id, Client.Numbered answering (session.clients id)
  own : OwnAnswers session

omit [DecidableEq P] in
theorem answered_initial : Answered (Session.initial : Session P) where
  one := oneHolder_initial
  tracks _ := ⟨rfl,rfl,rfl⟩
  numbered _ := Client.numbered_idle
  own _ := Client.getsOwn_of_not_asking rfl

theorem Answered.own_iff {session session' : Session P} (answered : Answered session)
    (stepped : session.step action = some session') :
    OwnAnswers session' ↔ ∀ id, InTime session.system id action := by
  obtain ⟨s',system_step,rfl⟩ := Option.map_eq_some_iff.mp stepped
  exact forall_congr' (fun id => getsOwn_step answered.one system_step (answered.tracks id) (answered.numbered id)
    (answered.own id))

theorem Answered.step {session session' : Session P} (answered : Answered session)
    (stepped : session.step action = some session') (inTime : ∀ id, InTime session.system id action) :
    Answered session' := by
  have own := (answered.own_iff stepped).mpr inTime
  obtain ⟨s',system_step,rfl⟩ := Option.map_eq_some_iff.mp stepped
  exact ⟨answered.one.step system_step,fun id => (answered.tracks id).step answered.one system_step,
    fun id => numbered_step system_step (answered.tracks id) (answered.numbered id),own⟩

/-- Throughout a run each Yield that can return returns its own answer exactly
    when every action is in time for every transaction. -/
theorem own_answers_iff (actions : List (Action P)) :
    (∀ taken ∈ trace Session.step Session.initial actions, OwnAnswers taken.2.2) ↔
      ∀ taken ∈ trace Session.step Session.initial actions, ∀ id, InTime taken.1.system id taken.2.1 :=
  @trace_forall_iff _ _ Session.step Answered (fun _ _ session' => OwnAnswers session')
    (fun session action => ∀ id, InTime session.system id action) (fun answered stepped => answered.own_iff stepped)
    (fun answered stepped inTime => answered.step stepped inTime) _ _ answered_initial

end

/-- A transaction gives up a SendAndWait before its manager comes to it, and then
    waits for a message. -/
def giveUpAndWait : List (Action Unit) :=
  [.start 0,.yield ⟨0,1⟩ { type := .sendAndWait },.giveUp ⟨0,1⟩,.tickBegin 0 [],.snapshot 0 [⟨0,1⟩],.processNext 0]

/-- The answer of the first Yield is there for the second to return. -/
theorem late_answer_returned : ¬ ∀ actions : List (Action Unit),
    ∀ taken ∈ trace Session.step Session.initial actions, OwnAnswers taken.2.2 := by
  intro own
  let waits : Action Unit := .yield ⟨0,1⟩ { type := .waitForMessage, waitFor := some { type := 5 } }
  let session := (runActions Session.step (fun _ _ => True) giveUpAndWait Session.initial).get (by decide +kernel)
  let session' := (session.step waits).get (by decide +kernel)
  have ran : runActions Session.step (fun _ _ => True) giveUpAndWait Session.initial = some session := (Option.some_get _).symm
  have stepped : session.step waits = some session' := (Option.some_get _).symm
  have answer := own _ _ (mem_trace_of_run stepped ran) ⟨0,1⟩ _ .nil (some 1) [] rfl rfl
  cases answer.2

end FlowSim.Transaction
