import FlowSim.Transaction.Manager

/-!
Who holds a transaction. A transaction is known to one manager's table, to one
table of migrated transactions, or is under way in one migration request; the
invariant `OneHolder` says that it is never in two of these, and that a Tick's
snapshot only names transactions that are still the manager's. Most operations
keep the tables (`SameTables`); the others are described one by one.
-/
namespace FlowSim.Transaction
open FlowSim.Lib
set_option linter.unusedSimpArgs false

variable {P : Type}

/-- The identity of an entry for a migrated transaction. -/
def MigratedTxn.key (mtxn : MigratedTxn) : TransactionID × TransactionID := (mtxn.txnID,mtxn.channels)

/-- The tables of the managers, the migration requests under way, and the
    goroutines with their commands are the same; waits, resume channels and
    records may differ. -/
structure SameTables (s s' : System P) : Prop where
  active : ∀ node, (s'.managers node).activeTxns = (s.managers node).activeTxns
  migrated : ∀ node, (s'.managers node).migratedTxns.map MigratedTxn.key =
    (s.managers node).migratedTxns.map MigratedTxn.key
  next : ∀ node, (s'.managers node).nextTxnID = (s.managers node).nextTxnID
  tick : ∀ node, (s'.managers node).tick = (s.managers node).tick
  ticks : ∀ node, (s'.managers node).ticks = (s.managers node).ticks
  migrations : s'.migrations = s.migrations
  phase : ∀ id, (s'.txns id).phase = (s.txns id).phase
  yieldCh : ∀ id, (s'.txns id).yieldCh = (s.txns id).yieldCh
  issued : s'.issued = s.issued

namespace SameTables

theorem refl (s : System P) : SameTables s s :=
  ⟨fun _ => rfl,fun _ => rfl,fun _ => rfl,fun _ => rfl,fun _ => rfl,rfl,fun _ => rfl,fun _ => rfl,rfl⟩

theorem trans {s₁ s₂ s₃ : System P} (first : SameTables s₁ s₂) (second : SameTables s₂ s₃) : SameTables s₁ s₃ where
  active node := (second.active node).trans (first.active node)
  migrated node := (second.migrated node).trans (first.migrated node)
  next node := (second.next node).trans (first.next node)
  tick node := (second.tick node).trans (first.tick node)
  ticks node := (second.ticks node).trans (first.ticks node)
  migrations := second.migrations.trans first.migrations
  phase id := (second.phase id).trans (first.phase id)
  yieldCh id := (second.yieldCh id).trans (first.yieldCh id)
  issued := second.issued.trans first.issued

/-- A transaction that keeps its goroutine and its commands may change otherwise. -/
theorem setTxn {s t : System P} {id : TransactionID} {txn : Txn P} (same : SameTables s t)
    (phase : txn.phase = (t.txns id).phase) (yieldCh : txn.yieldCh = (t.txns id).yieldCh) :
    SameTables s (t.setTxn id txn) := by
  refine same.trans ⟨fun _ => rfl,fun _ => rfl,fun _ => rfl,fun _ => rfl,fun _ => rfl,rfl,?_,?_,rfl⟩ <;> intro other
  · by_cases here : other = id
    · subst here; simpa [System.setTxn] using phase
    · simp [System.setTxn,here]
  · by_cases here : other = id
    · subst here; simpa [System.setTxn] using yieldCh
    · simp [System.setTxn,here]

/-- A manager that keeps its tables and its place in the Tick may change otherwise. -/
theorem setManager {s t : System P} {node : Int} {tm : TxnManager P} (same : SameTables s t)
    (active : tm.activeTxns = (t.managers node).activeTxns)
    (migrated : tm.migratedTxns.map MigratedTxn.key = (t.managers node).migratedTxns.map MigratedTxn.key)
    (next : tm.nextTxnID = (t.managers node).nextTxnID) (tick : tm.tick = (t.managers node).tick)
    (ticks : tm.ticks = (t.managers node).ticks) : SameTables s (t.setManager node tm) := by
  refine same.trans ⟨?_,?_,?_,?_,?_,rfl,fun _ => rfl,fun _ => rfl,rfl⟩ <;> intro other <;>
    by_cases here : other = node <;> simp [System.setManager,here,active,migrated,next,tick,ticks]

theorem emit {s t : System P} {node : Int} {id : TransactionID} {msgs : List (Message P)} (same : SameTables s t) :
    SameTables s (t.emit node id msgs) :=
  same.trans
    ⟨fun _ => rfl,fun _ => rfl,fun _ => rfl,fun _ => rfl,fun _ => rfl,rfl,fun _ => rfl,fun _ => rfl,rfl⟩

theorem execute {s t : System P} {node : Int} {operations : List CacheUpdateOperation} (same : SameTables s t) :
    SameTables s (t.execute node operations) :=
  same.trans
    ⟨fun _ => rfl,fun _ => rfl,fun _ => rfl,fun _ => rfl,fun _ => rfl,rfl,fun _ => rfl,fun _ => rfl,rfl⟩

theorem pushResume {s t : System P} {id : TransactionID} {value : ResumeValue P} (same : SameTables s t) :
    SameTables s (t.pushResume id value) := by
  unfold System.pushResume
  split
  · exact setTxn same rfl rfl
  · exact same

/-- Changing the wait of a migrated transaction keeps the table's entries. -/
theorem map_key_setWaiting (entries : List MigratedTxn) (id : TransactionID) (wait : Option WaitForMessage) :
    (entries.map (fun other => if other.txnID = id then { other with waiting := wait } else other)).map
      MigratedTxn.key = entries.map MigratedTxn.key := by
  rw [List.map_map]
  refine List.map_congr_left (fun other _ => ?_)
  simp only [Function.comp_apply]
  split <;> rfl

theorem resumeLocal (node : Int) (msg : Message P) (s : System P) (id : TransactionID) :
    SameTables s (System.resumeLocal node msg s id) := by
  unfold System.resumeLocal
  split
  · refine setManager (setTxn (refl s) ?_ ?_) ?_ ?_ ?_ ?_ ?_ <;> rfl
  · exact refl s

theorem resumeMigrated (node : Int) (msg : Message P) (s : System P) (mtxn : MigratedTxn) :
    SameTables s (System.resumeMigrated node msg s mtxn) := by
  unfold System.resumeMigrated
  split
  · refine setManager (pushResume (refl s)) ?_ (map_key_setWaiting _ _ _) ?_ ?_ ?_ <;> rfl
  · exact refl s

theorem foldl {β : Type} {f : System P → β → System P} (one : ∀ s item, SameTables s (f s item)) :
    ∀ (items : List β) (s : System P), SameTables s (items.foldl f s)
  | [], s => refl s
  | item :: rest, s => (one s item).trans (foldl one rest (f s item))

theorem routeMessage (s : System P) (node : Int) (msg : Message P) : SameTables s (s.routeMessage node msg) :=
  (foldl (resumeLocal node msg) _ s).trans (foldl (resumeMigrated node msg) _ _)

theorem route (s : System P) (node : Int) (msg : Message P) : SameTables s (s.route node msg) := by
  have routed := routeMessage s node msg
  unfold System.route
  dsimp only
  split
  · exact ⟨routed.active,routed.migrated,routed.next,routed.tick,routed.ticks,routed.migrations,routed.phase,
      routed.yieldCh,routed.issued⟩
  · exact routed

/-- At the manager that started the transaction, every command but a migration
    keeps the tables. -/
theorem handleYieldCommand (s : System P) (node : Int) (id : TransactionID) (cmd : YieldCommand P)
    (stays : cmd.type ≠ .migrateTo) : SameTables s (s.handleYieldCommand node id cmd) := by
  unfold System.handleYieldCommand
  split
  · next kind => exact absurd kind stays
  · dsimp only
    refine execute (emit ?_)
    split
    · refine setManager (setTxn (refl s) ?_ ?_) ?_ ?_ ?_ ?_ ?_ <;> rfl
    · refine setTxn (setManager (setManager (setTxn (refl s) ?_ ?_) ?_ ?_ ?_ ?_ ?_) ?_ ?_ ?_ ?_ ?_) ?_ ?_ <;> rfl
  · exact pushResume (execute (emit (refl s)))
  · refine execute (emit (setTxn (refl s) ?_ ?_)) <;> rfl
  · exact execute (emit (refl s))

/-- At a manager it migrated to, every command but a migration and the end of
    the transaction keeps the tables. -/
theorem handleMigratedYield (s : System P) (node : Int) (mtxn : MigratedTxn) (cmd : YieldCommand P)
    (stays : cmd.type ≠ .migrateTo) (goesOn : cmd.type ≠ .complete) :
    SameTables s (s.handleMigratedYield node mtxn cmd) := by
  unfold System.handleMigratedYield
  dsimp only
  split
  · next kind => exact absurd kind stays
  · refine emit (setManager (refl s) ?_ (map_key_setWaiting _ _ _) ?_ ?_ ?_) <;> rfl
  · next kind => exact absurd kind goesOn
  · exact pushResume (emit (refl s))
  · exact emit (refl s)

end SameTables

/-! ### Holders -/

/-- A place where a transaction can be held. -/
inductive Holder where
  | active (node : Int)
  | migrated (node : Int)
  | underWay
deriving DecidableEq

/-- The place holds the transaction. -/
def HeldBy (s : System P) (id : TransactionID) : Holder → Prop
  | .active node => id ∈ (s.managers node).activeTxns
  | .migrated node => id ∈ (s.managers node).migratedTxns.map MigratedTxn.txnID
  | .underWay => id ∈ s.migrations.map Message.transactionID

/-- No transaction is held twice, and what a Tick still has to look at is held
    nowhere else. -/
structure OneHolder (s : System P) : Prop where
  unique : ∀ {id h h'}, HeldBy s id h → HeldBy s id h' → h = h'
  active_nodup : ∀ node, (s.managers node).activeTxns.Nodup
  active_home : ∀ {node id}, id ∈ (s.managers node).activeTxns → id.nodeID = node
  migrated_nodup : ∀ node, ((s.managers node).migratedTxns.map MigratedTxn.txnID).Nodup
  channels : ∀ {node key}, key ∈ (s.managers node).migratedTxns.map MigratedTxn.key → key.2 = key.1
  migrations_nodup : (s.migrations.map Message.transactionID).Nodup
  migrations_shape : ∀ msg ∈ s.migrations, msg.payload = .migration msg.transactionID
  fresh : ∀ node {k : Int}, ((s.managers node).nextTxnID : Int) ≤ k → (s.txns ⟨node,k⟩).phase = .notStarted
  unstarted : ∀ {id}, (s.txns id).phase = .notStarted → ∀ h, ¬ HeldBy s id h
  processing : ∀ {node pending}, (s.managers node).tick = .processing pending → pending.Nodup ∧
    ∀ id ∈ pending, (s.txns id).phase ≠ .notStarted ∧ id.nodeID = node ∧ ∀ h, HeldBy s id h → h = .active node
  processingMigrated : ∀ {node pending}, (s.managers node).tick = .processingMigrated pending → pending.Nodup ∧
    ∀ id ∈ pending, HeldBy s id (.migrated node)

/-- The channels of a migrated transaction are those of the transaction itself. -/
theorem OneHolder.own_channels {s : System P} (one : OneHolder s) {node : Int} {mtxn : MigratedTxn}
    (entry : mtxn ∈ (s.managers node).migratedTxns) : mtxn.channels = mtxn.txnID := by
  have isKey : mtxn.key ∈ (s.managers node).migratedTxns.map MigratedTxn.key := List.mem_map_of_mem entry
  exact one.channels isKey

theorem map_txnID_eq (entries : List MigratedTxn) :
    entries.map MigratedTxn.txnID = (entries.map MigratedTxn.key).map Prod.fst := by
  rw [List.map_map]
  rfl

/-- The holders are the same: the tables and the requests under way, and which
    transactions have started. -/
structure SameHolders (s s' : System P) : Prop where
  active : ∀ node, (s'.managers node).activeTxns = (s.managers node).activeTxns
  migrated : ∀ node, (s'.managers node).migratedTxns.map MigratedTxn.key =
    (s.managers node).migratedTxns.map MigratedTxn.key
  next : ∀ node, (s'.managers node).nextTxnID = (s.managers node).nextTxnID
  migrations : s'.migrations = s.migrations
  unstarted : ∀ id, (s'.txns id).phase = .notStarted ↔ (s.txns id).phase = .notStarted

theorem SameTables.holders {s s' : System P} (same : SameTables s s') : SameHolders s s' :=
  ⟨same.active,same.migrated,same.next,same.migrations,fun id => by rw [same.phase]⟩

theorem SameHolders.heldBy {s s' : System P} (same : SameHolders s s') {id : TransactionID} {h : Holder} :
    HeldBy s' id h ↔ HeldBy s id h := by
  cases h with
  | active node => simp only [HeldBy,same.active]
  | migrated node => simp only [HeldBy,map_txnID_eq,same.migrated]
  | underWay => simp only [HeldBy,same.migrations]

theorem SameHolders.trans {s₁ s₂ s₃ : System P} (first : SameHolders s₁ s₂) (second : SameHolders s₂ s₃) :
    SameHolders s₁ s₃ where
  active node := (second.active node).trans (first.active node)
  migrated node := (second.migrated node).trans (first.migrated node)
  next node := (second.next node).trans (first.next node)
  migrations := second.migrations.trans first.migrations
  unstarted id := (second.unstarted id).trans (first.unstarted id)

theorem OneHolder.only {s : System P} (one : OneHolder s) {id : TransactionID} (h : Holder) (held : HeldBy s id h) :
    ∀ h', HeldBy s id h' → h' = h :=
  fun _ held' => one.unique held' held

/-- A transaction whose goroutine has started stays started. -/
theorem SameHolders.setTxn (s : System P) (id : TransactionID) (txn : Txn P)
    (started : txn.phase = .notStarted ↔ (s.txns id).phase = .notStarted) : SameHolders s (s.setTxn id txn) := by
  refine ⟨fun _ => rfl,fun _ => rfl,fun _ => rfl,rfl,fun other => ?_⟩
  by_cases here : other = id
  · subst here; simpa [System.setTxn] using started
  · simp [System.setTxn,here]

theorem SameHolders.pushYield (s : System P) (id : TransactionID) (cmd : YieldCommand P) :
    SameHolders s (s.pushYield id cmd) :=
  (SameHolders.setTxn s id { s.txns id with yieldCh := (s.txns id).yieldCh ++ [cmd] } Iff.rfl).trans
    ⟨fun _ => rfl,fun _ => rfl,fun _ => rfl,rfl,fun _ => Iff.rfl⟩

theorem SameHolders.setTick (s : System P) (node : Int) (tick : TickPhase P) (ticks : Nat) :
    SameHolders s (s.setManager node { s.managers node with tick, ticks }) := by
  refine ⟨?_,?_,?_,rfl,fun _ => Iff.rfl⟩ <;> intro other <;>
    by_cases here : other = node <;> simp [System.setManager,here]

/-- The holders are the same, and each Tick is where it was, or at a list of
    transactions that are its own. -/
theorem OneHolder.ticked {s s' : System P} (one : OneHolder s) (same : SameHolders s s')
    (processing : ∀ {node pending}, (s'.managers node).tick = .processing pending →
      (s.managers node).tick = .processing pending ∨ pending.Nodup ∧
        ∀ id ∈ pending, (s.txns id).phase ≠ .notStarted ∧ id.nodeID = node ∧ ∀ h, HeldBy s id h → h = .active node)
    (processingMigrated : ∀ {node pending}, (s'.managers node).tick = .processingMigrated pending →
      (s.managers node).tick = .processingMigrated pending ∨ pending.Nodup ∧
        ∀ id ∈ pending, HeldBy s id (.migrated node)) : OneHolder s' where
  unique held held' := one.unique (same.heldBy.mp held) (same.heldBy.mp held')
  active_nodup node := by rw [same.active]; exact one.active_nodup node
  active_home := by intro node id; rw [same.active]; exact one.active_home
  migrated_nodup node := by rw [map_txnID_eq,same.migrated,← map_txnID_eq]; exact one.migrated_nodup node
  channels := by intro node key; rw [same.migrated]; exact one.channels
  migrations_nodup := by rw [same.migrations]; exact one.migrations_nodup
  migrations_shape := by rw [same.migrations]; exact one.migrations_shape
  fresh := by intro node k; rw [same.next,same.unstarted]; exact one.fresh node
  unstarted := by
    intro id unstarted h held
    exact one.unstarted ((same.unstarted id).mp unstarted) h (same.heldBy.mp held)
  processing := by
    intro node pending at_processing
    obtain ⟨nodup,each⟩ := (processing at_processing).elim one.processing id
    refine ⟨nodup,fun id member => ?_⟩
    obtain ⟨started,home,only⟩ := each id member
    exact ⟨mt (same.unstarted id).mp started,home,fun h held => only h (same.heldBy.mp held)⟩
  processingMigrated := by
    intro node pending at_processing
    obtain ⟨nodup,each⟩ := (processingMigrated at_processing).elim one.processingMigrated id
    exact ⟨nodup,fun id member => same.heldBy.mpr (each id member)⟩

theorem OneHolder.same {s s' : System P} (one : OneHolder s) (same : SameHolders s s')
    (tick : ∀ node, (s'.managers node).tick = (s.managers node).tick) : OneHolder s' :=
  one.ticked same (fun at_processing => .inl (tick _ ▸ at_processing)) (fun at_processing => .inl (tick _ ▸ at_processing))

theorem OneHolder.tables {s s' : System P} (one : OneHolder s) (same : SameTables s s') : OneHolder s' :=
  one.same same.holders same.tick

theorem oneHolder_initial : OneHolder (System.initial : System P) where
  unique := by intro id h h' held; cases h <;> simp [HeldBy,System.initial,newTxnManager] at held
  active_nodup := by simp [System.initial,newTxnManager]
  active_home := by simp [System.initial,newTxnManager]
  migrated_nodup := by simp [System.initial,newTxnManager]
  channels := by simp [System.initial,newTxnManager]
  migrations_nodup := by simp [System.initial]
  migrations_shape := by simp [System.initial]
  fresh := by simp [System.initial]
  unstarted := by intro id _ h held; cases h <;> simp [HeldBy,System.initial,newTxnManager] at held
  processing := by simp [System.initial,newTxnManager]
  processingMigrated := by simp [System.initial,newTxnManager]

/-! ### Moving a transaction -/

/-- In a step from `s` to `s'` the transaction leaves the place `source`, which
    was its only one, for `target`, if any. -/
structure Moves (s s' : System P) (id : TransactionID) (source : Holder) (target : Option Holder) : Prop where
  only : ∀ h, HeldBy s id h → h = source
  held : ∀ {other h}, HeldBy s' other h ↔
    (HeldBy s other h ∧ ¬ (other = id ∧ h = source)) ∨ (other = id ∧ target = some h)

theorem Moves.unique {s s' : System P} {id : TransactionID} {source : Holder} {target : Option Holder}
    (one : OneHolder s) (moves : Moves s s' id source target) {other : TransactionID} {h h' : Holder}
    (held : HeldBy s' other h) (held' : HeldBy s' other h') : h = h' := by
  rcases moves.held.mp held with ⟨before,stays⟩ | ⟨rfl,goes⟩
  · rcases moves.held.mp held' with ⟨before',_⟩ | ⟨rfl,_⟩
    · exact one.unique before before'
    · exact absurd ⟨rfl,moves.only h before⟩ stays
  · rcases moves.held.mp held' with ⟨before',stays'⟩ | ⟨_,goes'⟩
    · exact absurd ⟨rfl,moves.only h' before'⟩ stays'
    · exact Option.some.inj (goes.symm.trans goes')

/-- What a step that moves a transaction has to keep besides the holders. -/
structure MovesIn (s s' : System P) (id : TransactionID) (source : Holder) (target : Option Holder) : Prop
    extends Moves s s' id source target where
  active_sub : ∀ node, (s'.managers node).activeTxns.Sublist (s.managers node).activeTxns
  migrated_nodup : ∀ node, ((s'.managers node).migratedTxns.map MigratedTxn.txnID).Nodup
  channels : ∀ {node key}, key ∈ (s'.managers node).migratedTxns.map MigratedTxn.key → key.2 = key.1
  next : ∀ node, (s'.managers node).nextTxnID = (s.managers node).nextTxnID
  tick : ∀ node, (s'.managers node).tick = (s.managers node).tick
  migrations_nodup : (s'.migrations.map Message.transactionID).Nodup
  migrations_shape : ∀ msg ∈ s'.migrations, msg.payload = .migration msg.transactionID
  unstarted : ∀ other, (s'.txns other).phase = .notStarted ↔ (s.txns other).phase = .notStarted
  started : target ≠ none → (s.txns id).phase ≠ .notStarted
  /-- no Tick still has the transaction to look at -/
  passed : ∀ {node pending}, (s.managers node).tick = .processing pending → target ≠ none → id ∉ pending
  passedMigrated : ∀ {node pending}, (s.managers node).tick = .processingMigrated pending →
    source = .migrated node → id ∉ pending

theorem OneHolder.moves {s s' : System P} (one : OneHolder s) (id : TransactionID) (source : Holder)
    (target : Option Holder) (moves : MovesIn s s' id source target) : OneHolder s' where
  unique := moves.toMoves.unique one
  active_nodup node := (one.active_nodup node).sublist (moves.active_sub node)
  active_home member := one.active_home ((moves.active_sub _).subset member)
  migrated_nodup := moves.migrated_nodup
  channels := moves.channels
  migrations_nodup := moves.migrations_nodup
  migrations_shape := moves.migrations_shape
  fresh := by intro node k; rw [moves.next,moves.unstarted]; exact one.fresh node
  unstarted := by
    intro other unstarted h held
    have before := (moves.unstarted other).mp unstarted
    rcases moves.held.mp held with ⟨was,_⟩ | ⟨rfl,goes⟩
    · exact one.unstarted before h was
    · exact moves.started (by rw [goes]; exact Option.some_ne_none h) before
  processing := by
    intro node pending at_processing
    rw [moves.tick] at at_processing
    obtain ⟨nodup,each⟩ := one.processing at_processing
    refine ⟨nodup,fun other member => ?_⟩
    obtain ⟨started,home,only⟩ := each other member
    refine ⟨mt (moves.unstarted other).mp started,home,fun h held => ?_⟩
    rcases moves.held.mp held with ⟨was,_⟩ | ⟨rfl,goes⟩
    · exact only h was
    · exact absurd member (moves.passed at_processing (by rw [goes]; exact Option.some_ne_none h))
  processingMigrated := by
    intro node pending at_processing
    rw [moves.tick] at at_processing
    obtain ⟨nodup,each⟩ := one.processingMigrated at_processing
    refine ⟨nodup,fun other member => moves.held.mpr (.inl ⟨each other member,?_⟩)⟩
    rintro ⟨rfl,from_⟩
    exact moves.passedMigrated at_processing from_.symm member

/-- Before the move, the holders stay. -/
theorem MovesIn.after_same {s t s' : System P} {id : TransactionID} {source : Holder} {target : Option Holder}
    (moves : MovesIn t s' id source target) (same : SameHolders s t)
    (tick : ∀ node, (t.managers node).tick = (s.managers node).tick) : MovesIn s s' id source target where
  only h held := moves.only h (same.heldBy.mpr held)
  held := by intro other h; rw [moves.held,same.heldBy]
  active_sub node := by rw [← same.active]; exact moves.active_sub node
  migrated_nodup := moves.migrated_nodup
  channels := moves.channels
  next node := (moves.next node).trans (same.next node)
  tick node := (moves.tick node).trans (tick node)
  migrations_nodup := moves.migrations_nodup
  migrations_shape := moves.migrations_shape
  unstarted other := (moves.unstarted other).trans (same.unstarted other)
  started some := mt (same.unstarted id).mpr (moves.started some)
  passed at_processing some := moves.passed (tick _ ▸ at_processing) some
  passedMigrated at_processing from_ := moves.passedMigrated (tick _ ▸ at_processing) from_

/-- After the move, the tables stay. -/
theorem MovesIn.then_same {s t s' : System P} {id : TransactionID} {source : Holder} {target : Option Holder}
    (moves : MovesIn s t id source target) (same : SameTables t s') : MovesIn s s' id source target where
  only := moves.only
  held := by intro other h; rw [same.holders.heldBy,moves.held]
  active_sub node := by rw [same.active]; exact moves.active_sub node
  migrated_nodup node := by rw [map_txnID_eq,same.migrated,← map_txnID_eq]; exact moves.migrated_nodup node
  channels := by intro node key; rw [same.migrated]; exact moves.channels
  next node := (same.next node).trans (moves.next node)
  tick node := (same.tick node).trans (moves.tick node)
  migrations_nodup := by rw [same.migrations]; exact moves.migrations_nodup
  migrations_shape := by rw [same.migrations]; exact moves.migrations_shape
  unstarted other := (same.holders.unstarted other).trans (moves.unstarted other)
  started := moves.started
  passed := moves.passed
  passedMigrated := moves.passedMigrated

theorem managers_setManager (s : System P) (node other : Int) (tm : TxnManager P) :
    (s.setManager node tm).managers other = if other = node then tm else s.managers other := by
  by_cases here : other = node
  · subst here; simp [System.setManager]
  · simp [System.setManager,here]

/-- The requests under way stay well formed and apart when one joins them. -/
theorem OneHolder.migrations_sent {s : System P} (one : OneHolder s) {id : TransactionID} (leaves : Bool) {msg : Message P}
    (gone : id ∉ s.migrations.map Message.transactionID)
    (request : leaves = true → msg.transactionID = id ∧ msg.payload = .migration id) :
    ((s.migrations ++ if leaves then [msg] else []).map Message.transactionID).Nodup ∧
      ∀ other ∈ s.migrations ++ if leaves then [msg] else [], other.payload = .migration other.transactionID := by
  cases leaves with
  | false => simpa using ⟨one.migrations_nodup,one.migrations_shape⟩
  | true =>
    obtain ⟨names,asks⟩ := request rfl
    constructor
    · simp only [↓reduceIte,List.map_append,List.map_cons,List.map_nil,names]
      exact List.Nodup.append one.migrations_nodup (List.nodup_singleton id) (by simpa using gone)
    · intro other member
      rcases List.mem_append.mp member with old | new
      · exact one.migrations_shape other old
      · obtain rfl := List.mem_singleton.mp new
        rw [asks,names]

/-- A manager forgets a transaction it started; if the transaction leaves, its
    request joins those under way. -/
theorem OneHolder.moves_leave {s s' : System P} (one : OneHolder s) (node : Int) (id : TransactionID) (leaves : Bool)
    (msg : Message P) (only : ∀ h, HeldBy s id h → h = .active node)
    (active : ∀ place, (s'.managers place).activeTxns =
      if place = node then (s.managers node).activeTxns.filter (fun other => other ≠ id)
      else (s.managers place).activeTxns)
    (migrated : ∀ place, (s'.managers place).migratedTxns = (s.managers place).migratedTxns)
    (next : ∀ place, (s'.managers place).nextTxnID = (s.managers place).nextTxnID)
    (tick : ∀ place, (s'.managers place).tick = (s.managers place).tick)
    (migrations : s'.migrations = s.migrations ++ if leaves then [msg] else [])
    (unstarted : ∀ other, (s'.txns other).phase = .notStarted ↔ (s.txns other).phase = .notStarted)
    (request : leaves = true → msg.transactionID = id ∧ msg.payload = .migration id ∧
      (s.txns id).phase ≠ .notStarted ∧
      ∀ {other pending}, (s.managers other).tick = .processing pending → id ∉ pending) :
    MovesIn s s' id (.active node) (if leaves then some .underWay else none) := by
  have gone : ∀ h, HeldBy s id h → h ≠ .underWay := fun h held away => by
    have here := only h held
    rw [away] at here
    cases here
  refine ⟨⟨only,?_⟩,?_,?_,?_,next,tick,?_,?_,unstarted,?_,?_,?_⟩
  · intro other h
    cases h with
    | active place =>
      simp only [HeldBy,active]
      by_cases here : place = node
      · subst here
        cases leaves <;> by_cases same : other = id <;> simp [same]
      · cases leaves <;> simp [here]
    | migrated place => cases leaves <;> simp [HeldBy,migrated]
    | underWay =>
      simp only [HeldBy,migrations]
      cases leaves with
      | false => simp
      | true => simp [(request rfl).1]
  · intro place
    rw [active]
    split
    · next here => rw [here]; exact List.filter_sublist
    · exact .refl _
  · intro place
    rw [migrated]
    exact one.migrated_nodup place
  · intro place key
    rw [migrated]
    exact one.channels
  · exact migrations ▸ (one.migrations_sent leaves (fun held => gone .underWay held rfl) fun left =>
      ⟨(request left).1,(request left).2.1⟩).1
  · exact migrations ▸ (one.migrations_sent leaves (fun held => gone .underWay held rfl) fun left =>
      ⟨(request left).1,(request left).2.1⟩).2
  · cases leaves with
    | false => simp
    | true => exact fun _ => (request rfl).2.2.1
  · cases leaves with
    | false => simp
    | true => exact fun at_processing _ => (request rfl).2.2.2 at_processing
  · intro place pending _ elsewhere
    cases elsewhere

/-- A manager forgets a transaction that migrated to it; if the transaction goes
    on to another node, its request joins those under way. -/
theorem OneHolder.moves_depart {s s' : System P} (one : OneHolder s) (node : Int) (id : TransactionID) (leaves : Bool)
    (msg : Message P) (here : HeldBy s id (.migrated node))
    (active : ∀ place, (s'.managers place).activeTxns = (s.managers place).activeTxns)
    (migrated : ∀ place, (s'.managers place).migratedTxns =
      if place = node then (s.managers node).migratedTxns.filter (fun other => other.txnID ≠ id)
      else (s.managers place).migratedTxns)
    (next : ∀ place, (s'.managers place).nextTxnID = (s.managers place).nextTxnID)
    (tick : ∀ place, (s'.managers place).tick = (s.managers place).tick)
    (migrations : s'.migrations = s.migrations ++ if leaves then [msg] else [])
    (unstarted : ∀ other, (s'.txns other).phase = .notStarted ↔ (s.txns other).phase = .notStarted)
    (request : leaves = true → msg.transactionID = id ∧ msg.payload = .migration id)
    (passed : ∀ {pending}, (s.managers node).tick = .processingMigrated pending → id ∉ pending) :
    MovesIn s s' id (.migrated node) (if leaves then some .underWay else none) := by
  have only : ∀ h, HeldBy s id h → h = .migrated node := fun h held => one.unique held here
  have gone : id ∉ s.migrations.map Message.transactionID := fun held => by
    have elsewhere := only .underWay held
    cases elsewhere
  refine ⟨⟨only,?_⟩,?_,?_,?_,next,tick,?_,?_,unstarted,?_,?_,?_⟩
  · intro other h
    cases h with
    | active place => cases leaves <;> simp [HeldBy,active]
    | migrated place =>
      simp only [HeldBy,migrated]
      by_cases same_place : place = node
      · subst same_place
        have filtered : other ∈ ((s.managers place).migratedTxns.filter (fun mtxn => mtxn.txnID ≠ id)).map
            MigratedTxn.txnID ↔ other ∈ (s.managers place).migratedTxns.map MigratedTxn.txnID ∧ other ≠ id := by
          simp only [List.mem_map,List.mem_filter,decide_eq_true_eq]
          constructor
          · rintro ⟨mtxn,⟨isEntry,different⟩,rfl⟩
            exact ⟨⟨mtxn,isEntry,rfl⟩,different⟩
          · rintro ⟨⟨mtxn,isEntry,rfl⟩,different⟩
            exact ⟨mtxn,⟨isEntry,different⟩,rfl⟩
        rw [if_pos rfl,filtered]
        cases leaves <;> simp
      · cases leaves <;> simp [same_place]
    | underWay =>
      simp only [HeldBy,migrations]
      cases leaves with
      | false => simp
      | true => simp [(request rfl).1]
  · intro place
    rw [active]
  · intro place
    rw [migrated]
    split
    · exact (one.migrated_nodup node).sublist (List.filter_sublist.map _)
    · exact one.migrated_nodup place
  · intro place key
    rw [migrated]
    split
    · exact fun member => one.channels ((List.filter_sublist.map MigratedTxn.key).subset member)
    · exact one.channels
  · exact migrations ▸ (one.migrations_sent leaves gone request).1
  · exact migrations ▸ (one.migrations_sent leaves gone request).2
  · exact fun _ unstarted => one.unstarted unstarted _ here
  · intro place pending at_processing _ member
    have elsewhere := (one.processing at_processing).2 id member |>.2.2 _ here
    cases elsewhere
  · intro place pending at_processing same member
    obtain rfl : node = place := by injection same
    exact passed at_processing member

/-- A request that was under way arrives: its transaction is registered. -/
theorem OneHolder.moves_arrive {s s' : System P} (one : OneHolder s) (node : Int) (msg : Message P)
    (member : msg ∈ s.migrations)
    (active : ∀ place, (s'.managers place).activeTxns = (s.managers place).activeTxns)
    (migrated : ∀ place, (s'.managers place).migratedTxns.map MigratedTxn.key =
      if place = node then
        ((s.managers node).migratedTxns.filter (fun other => other.txnID ≠ msg.transactionID)).map MigratedTxn.key ++
          [(msg.transactionID,msg.transactionID)]
      else (s.managers place).migratedTxns.map MigratedTxn.key)
    (next : ∀ place, (s'.managers place).nextTxnID = (s.managers place).nextTxnID)
    (tick : ∀ place, (s'.managers place).tick = (s.managers place).tick) [DecidableEq P]
    (migrations : s'.migrations = s.migrations.erase msg)
    (unstarted : ∀ other, (s'.txns other).phase = .notStarted ↔ (s.txns other).phase = .notStarted) :
    MovesIn s s' msg.transactionID .underWay (some (.migrated node)) := by
  have here : HeldBy s msg.transactionID .underWay := List.mem_map_of_mem member
  have only : ∀ h, HeldBy s msg.transactionID h → h = .underWay := fun h held => one.unique held here
  have absent : msg.transactionID ∉ (s.managers node).migratedTxns.map MigratedTxn.txnID := fun held => by
    have elsewhere := only (.migrated node) held
    cases elsewhere
  have kept : (s.managers node).migratedTxns.filter (fun other => other.txnID ≠ msg.transactionID) =
      (s.managers node).migratedTxns := by
    refine List.filter_eq_self.mpr (fun mtxn isEntry => ?_)
    simp only [ne_eq,decide_eq_true_eq]
    exact fun same => absent (same ▸ List.mem_map_of_mem isEntry)
  rw [kept] at migrated
  obtain ⟨before,after,_,split,erased⟩ := List.exists_erase_eq member
  have apart := one.migrations_nodup
  rw [split,List.map_append,List.map_cons] at apart
  have notBefore : msg.transactionID ∉ before.map Message.transactionID := fun inBefore =>
    (List.nodup_append.mp apart).2.2 _ inBefore _ (List.mem_cons_self ..) rfl
  have notAfter : msg.transactionID ∉ after.map Message.transactionID :=
    (List.nodup_cons.mp (List.nodup_append.mp apart).2.1).1
  refine ⟨⟨only,?_⟩,?_,?_,?_,next,tick,?_,?_,unstarted,?_,?_,?_⟩
  · intro other h
    cases h with
    | active place => simp [HeldBy,active]
    | migrated place =>
      simp only [HeldBy,map_txnID_eq,migrated]
      by_cases same_place : place = node
      · subst same_place
        simp [or_comm]
      · simp [same_place,Ne.symm same_place]
    | underWay =>
      have left : s'.migrations = before ++ after := migrations.trans erased
      simp only [HeldBy,left,List.map_append,List.mem_append,split,List.map_cons,List.mem_cons,and_true]
      constructor
      · rintro (inBefore | inAfter)
        · exact .inl ⟨.inl inBefore,fun same => notBefore (same ▸ inBefore)⟩
        · exact .inl ⟨.inr (.inr inAfter),fun same => notAfter (same ▸ inAfter)⟩
      · rintro (⟨inBefore | same | inAfter,stays⟩ | ⟨_,elsewhere⟩)
        · exact .inl inBefore
        · exact absurd same stays
        · exact .inr inAfter
        · cases elsewhere
  · intro place
    rw [active]
  · intro place
    rw [map_txnID_eq,migrated]
    split
    · rw [List.map_append,← map_txnID_eq]
      exact List.Nodup.append (one.migrated_nodup node) (by simp) (by simpa using absent)
    · rw [← map_txnID_eq]
      exact one.migrated_nodup place
  · intro place key
    rw [migrated]
    split
    · intro isKey
      rcases List.mem_append.mp isKey with old | new
      · exact one.channels old
      · rw [List.mem_singleton.mp new]
    · exact one.channels
  · rw [migrations]
    exact one.migrations_nodup.sublist (List.erase_sublist.map _)
  · rw [migrations]
    exact fun other isRequest => one.migrations_shape other (List.mem_of_mem_erase isRequest)
  · exact fun _ unstarted => one.unstarted unstarted _ here
  · intro place pending at_processing _ isPending
    have elsewhere := (one.processing at_processing).2 _ isPending |>.2.2 _ here
    cases elsewhere
  · intro place pending _ elsewhere
    cases elsewhere

/-! ### Steps -/

/-- A Tick that goes on to a list of its own transactions. -/
theorem OneHolder.setTick {s : System P} (one : OneHolder s) {node : Int} {tick : TickPhase P} {ticks : Nat}
    (processing : ∀ {pending}, tick = .processing pending → pending.Nodup ∧
      ∀ id ∈ pending, (s.txns id).phase ≠ .notStarted ∧ id.nodeID = node ∧ ∀ h, HeldBy s id h → h = .active node)
    (processingMigrated : ∀ {pending}, tick = .processingMigrated pending → pending.Nodup ∧
      ∀ id ∈ pending, HeldBy s id (.migrated node)) :
    OneHolder (s.setManager node { s.managers node with tick, ticks }) := by
  refine one.ticked (SameHolders.setTick s node tick ticks) ?_ ?_ <;> intro other pending at_processing <;>
    rw [managers_setManager] at at_processing <;> split at at_processing
  · next here => subst here; exact .inr (processing at_processing)
  · exact .inl at_processing
  · next here => subst here; exact .inr (processingMigrated at_processing)
  · exact .inl at_processing

/-- Between the reads of a Tick nothing is pending. -/
theorem OneHolder.setTick_routing {s : System P} (one : OneHolder s) (node : Int) (rest : List (Message P)) :
    OneHolder (s.setTick node (.routing rest)) :=
  one.setTick (fun here => by cases here) (fun here => by cases here)

theorem managers_start (s : System P) (node other : Int) :
    (s.start node).managers other =
      if other = node then { s.managers node with
        nextTxnID := (s.managers node).nextTxnID + 1
        activeTxns := (s.managers node).activeTxns ++ [⟨node,(s.managers node).nextTxnID⟩] }
      else s.managers other :=
  managers_setManager _ node other _

theorem txns_start (s : System P) (node : Int) {id : TransactionID} (other : id ≠ ⟨node,(s.managers node).nextTxnID⟩) :
    (s.start node).txns id = s.txns id := by
  simp [System.start,System.setManager,System.setTxn,other]

theorem heldBy_start (s : System P) (node : Int) {other : TransactionID} {h : Holder} : HeldBy (s.start node) other h ↔
    HeldBy s other h ∨ (other = ⟨node,(s.managers node).nextTxnID⟩ ∧ h = .active node) := by
  cases h with
  | active place =>
    simp only [HeldBy,managers_start]
    by_cases here : place = node
    · subst here; simp
    · simp [here]
  | migrated place =>
    simp only [HeldBy,managers_start]
    by_cases here : place = node
    · subst here; simp
    · simp [here]
  | underWay => simp [HeldBy,System.start,System.setManager,System.setTxn]

theorem OneHolder.start {s : System P} (one : OneHolder s) (node : Int) : OneHolder (s.start node) := by
  have unstarted : (s.txns ⟨node,(s.managers node).nextTxnID⟩).phase = .notStarted := one.fresh node (le_refl _)
  have absent := one.unstarted unstarted
  have running : ((s.start node).txns ⟨node,(s.managers node).nextTxnID⟩).phase = .running := by
    simp [System.start,System.setManager,System.setTxn]
  have held : ∀ {other h}, HeldBy (s.start node) other h ↔
      HeldBy s other h ∨ (other = ⟨node,(s.managers node).nextTxnID⟩ ∧ h = .active node) := heldBy_start s node
  have phases : ∀ {other}, ((s.start node).txns other).phase = .notStarted →
      other ≠ ⟨node,(s.managers node).nextTxnID⟩ ∧ (s.txns other).phase = .notStarted := by
    intro other isUnstarted
    have different : other ≠ ⟨node,(s.managers node).nextTxnID⟩ := by
      rintro rfl
      rw [running] at isUnstarted
      cases isUnstarted
    exact ⟨different,txns_start s node different ▸ isUnstarted⟩
  have tick : ∀ place, ((s.start node).managers place).tick = (s.managers place).tick := by
    intro place
    rw [managers_start]
    split
    · next here => rw [here]
    · rfl
  have migrated : ∀ place, ((s.start node).managers place).migratedTxns = (s.managers place).migratedTxns := by
    intro place
    rw [managers_start]
    split
    · next here => rw [here]
    · rfl
  constructor
  · intro other h h' isHeld isHeld'
    rcases held.mp isHeld with before | ⟨rfl,rfl⟩
    · rcases held.mp isHeld' with before' | ⟨rfl,_⟩
      · exact one.unique before before'
      · exact absurd before (absent h)
    · rcases held.mp isHeld' with before' | ⟨_,same⟩
      · exact absurd before' (absent h')
      · exact same.symm
  · intro place
    rw [managers_start]
    split
    · exact List.Nodup.append (one.active_nodup node) (List.nodup_singleton _)
        (List.disjoint_singleton.mpr (absent (.active node)))
    · exact one.active_nodup place
  · intro place other
    rw [managers_start]
    split
    · next here =>
      intro member
      rcases List.mem_append.mp member with old | new
      · rw [here]; exact one.active_home old
      · rw [List.mem_singleton.mp new,here]
    · exact one.active_home
  · intro place
    rw [migrated]
    exact one.migrated_nodup place
  · intro place key
    rw [migrated]
    exact one.channels
  · exact one.migrations_nodup
  · exact one.migrations_shape
  · intro place k late
    rw [managers_start] at late
    have different : (⟨place,k⟩ : TransactionID) ≠ ⟨node,(s.managers node).nextTxnID⟩ := by
      rintro same
      injection same with same_node same_number
      subst same_node same_number
      simp at late
    rw [txns_start s node different]
    refine one.fresh place ?_
    split at late
    · next here =>
      subst here
      simp only [Nat.cast_add,Nat.cast_one] at late
      omega
    · exact late
  · intro other isUnstarted h isHeld
    obtain ⟨different,before⟩ := phases isUnstarted
    rcases held.mp isHeld with was | ⟨same,_⟩
    · exact one.unstarted before h was
    · exact different same
  · intro place pending at_processing
    rw [tick] at at_processing
    obtain ⟨nodup,each⟩ := one.processing at_processing
    refine ⟨nodup,fun other member => ?_⟩
    obtain ⟨started,home,only⟩ := each other member
    refine ⟨fun isUnstarted => started (phases isUnstarted).2,home,fun h isHeld => ?_⟩
    rcases held.mp isHeld with was | ⟨rfl,_⟩
    · exact only h was
    · exact absurd unstarted started
  · intro place pending at_processing
    rw [tick] at at_processing
    obtain ⟨nodup,each⟩ := one.processingMigrated at_processing
    exact ⟨nodup,fun other member => held.mpr (.inl (each other member))⟩

theorem txns_setTxn (s : System P) (id other : TransactionID) (txn : Txn P) :
    (s.setTxn id txn).txns other = if other = id then txn else s.txns other := by
  by_cases here : other = id
  · subst here; simp [System.setTxn]
  · simp [System.setTxn,here]

theorem managers_exit (s : System P) (id : TransactionID) (place : Int) : (s.exit id).managers place =
    if place = id.nodeID then { s.managers id.nodeID with
      activeTxns := (s.managers id.nodeID).activeTxns.filter (fun other => other ≠ id)
      pendingByAddr := fun addr => ((s.managers id.nodeID).pendingByAddr addr).filter (fun other => other ≠ id) }
    else s.managers place :=
  managers_setManager _ id.nodeID place _

theorem unstarted_exit {s : System P} {id : TransactionID} (running : (s.txns id).phase = .running)
    (other : TransactionID) : ((s.exit id).txns other).phase = .notStarted ↔ (s.txns other).phase = .notStarted := by
  show ((s.setTxn id { s.txns id with phase := .exited }).txns other).phase = _ ↔ _
  rw [txns_setTxn]
  split
  · next here => subst here; simp [running]
  · rfl

/-- Where it started, a transaction that ends is forgotten. -/
theorem OneHolder.moves_exit {s : System P} (one : OneHolder s) {id : TransactionID}
    (running : (s.txns id).phase = .running) (registered : id ∈ (s.managers id.nodeID).activeTxns) :
    MovesIn s (s.exit id) id (.active id.nodeID) none := by
  refine one.moves_leave id.nodeID id false (System.migrationMessage 0 0 id id) (one.only (.active id.nodeID) registered)
    ?_ ?_ ?_ ?_ (by simp; rfl) (unstarted_exit running) (by simp)
  all_goals
    intro place
    rw [managers_exit]
    split
    · first | rfl | (next here => rw [here])
    · rfl

/-- Migrated, it is not held where it started, and stays where it is. -/
theorem SameHolders.exit {s : System P} {id : TransactionID} (running : (s.txns id).phase = .running)
    (unregistered : id ∉ (s.managers id.nodeID).activeTxns) : SameHolders s (s.exit id) := by
  have kept : (s.managers id.nodeID).activeTxns.filter (fun other => other ≠ id) =
      (s.managers id.nodeID).activeTxns := by
    refine List.filter_eq_self.mpr (fun other member => ?_)
    simp only [ne_eq,decide_eq_true_eq]
    rintro rfl
    exact unregistered member
  refine ⟨?_,?_,?_,rfl,unstarted_exit running⟩
  all_goals
    intro place
    rw [managers_exit]
    split
    · next here => subst here; first | exact kept | rfl
    · rfl

theorem tick_exit (s : System P) (id : TransactionID) (place : Int) :
    ((s.exit id).managers place).tick = (s.managers place).tick := by
  rw [managers_exit]
  split
  · next here => rw [here]
  · rfl

theorem OneHolder.exit {s : System P} (one : OneHolder s) (id : TransactionID) (running : (s.txns id).phase = .running) :
    OneHolder (s.exit id) := by
  by_cases registered : id ∈ (s.managers id.nodeID).activeTxns
  · exact one.moves _ _ _ (one.moves_exit running registered)
  · exact one.same (SameHolders.exit running registered) (tick_exit s id)

/-- A request that leaves a manager's table. -/
theorem tables_handleYieldCommand_migrate (s : System P) (node : Int) (id : TransactionID) (cmd : YieldCommand P)
    (leaves : cmd.type = .migrateTo) : s.handleYieldCommand node id cmd =
      (s.sendMigration node id (System.migrationMessage node cmd.migrateToNodeID id id)).setManager node
        { s.managers node with activeTxns := (s.managers node).activeTxns.filter (fun other => other ≠ id) } := by
  unfold System.handleYieldCommand
  rw [leaves]
  rfl

/-- A transaction that a Tick has come to leaves in a request. -/
theorem OneHolder.moves_migrate {s : System P} (one : OneHolder s) {node : Int} {id : TransactionID}
    (only : ∀ h, HeldBy s id h → h = .active node) (started : (s.txns id).phase ≠ .notStarted)
    (passed : ∀ {other pending}, (s.managers other).tick = .processing pending → id ∉ pending)
    {cmd : YieldCommand P} {rest : List (YieldCommand P)} (queue : (s.txns id).yieldCh = cmd :: rest)
    (leaves : cmd.type = .migrateTo) :
    MovesIn s (s.processYields node id) id (.active node) (some .underWay) := by
  have popped := SameHolders.setTxn s id { s.txns id with yieldCh := rest } Iff.rfl
  have onePopped := one.same popped (fun _ => rfl)
  simp only [System.processYields,queue]
  rw [tables_handleYieldCommand_migrate _ node id cmd leaves]
  refine MovesIn.after_same ?_ popped (fun _ => rfl)
  refine onePopped.moves_leave node id true (System.migrationMessage node cmd.migrateToNodeID id id)
    (fun h held => only h (popped.heldBy.mp held)) ?_ ?_ ?_ ?_ rfl (fun _ => Iff.rfl)
    (fun _ => ⟨rfl,rfl,mt (popped.unstarted id).mp started,passed⟩)
  all_goals
    intro place
    rw [managers_setManager]
    split
    · first | rfl | (next here => rw [here])
    · rfl

/-- Every other command leaves the holders as they are. -/
theorem SameHolders.processYields (s : System P) (node : Int) (id : TransactionID)
    (stays : ∀ {cmd rest}, (s.txns id).yieldCh = cmd :: rest → cmd.type ≠ .migrateTo) :
    SameHolders s (s.processYields node id) ∧
      ∀ place, ((s.processYields node id).managers place).tick = (s.managers place).tick := by
  rcases queue : (s.txns id).yieldCh with _ | ⟨cmd,rest⟩
  · simp only [System.processYields,queue]
    exact ⟨(SameTables.refl s).holders,fun _ => trivial⟩
  · simp only [System.processYields,queue]
    have handled := SameTables.handleYieldCommand (s.setTxn id { s.txns id with yieldCh := rest }) node id cmd (stays queue)
    exact ⟨(SameHolders.setTxn s id { s.txns id with yieldCh := rest } Iff.rfl).trans handled.holders,handled.tick⟩

/-- Handling the oldest command of a transaction that a Tick has come to. -/
theorem OneHolder.processYields {s : System P} (one : OneHolder s) {node : Int} {id : TransactionID}
    (only : ∀ h, HeldBy s id h → h = .active node) (started : (s.txns id).phase ≠ .notStarted)
    (passed : ∀ {other pending}, (s.managers other).tick = .processing pending → id ∉ pending) :
    OneHolder (s.processYields node id) := by
  by_cases leaves : ∃ cmd rest, (s.txns id).yieldCh = cmd :: rest ∧ cmd.type = .migrateTo
  · obtain ⟨cmd,rest,queue,migrates⟩ := leaves
    exact one.moves _ _ _ (one.moves_migrate only started passed queue migrates)
  · have same := SameHolders.processYields s node id (fun queue migrates => leaves ⟨_,_,queue,migrates⟩)
    exact one.same same.1 same.2

/-- A transaction that migrated here leaves again, or ends. -/
theorem OneHolder.moves_processMigratedYields {s : System P} (one : OneHolder s) {node : Int} {mtxn : MigratedTxn}
    (entry : mtxn ∈ (s.managers node).migratedTxns)
    (passed : ∀ {pending}, (s.managers node).tick = .processingMigrated pending → mtxn.txnID ∉ pending)
    {cmd : YieldCommand P} {rest : List (YieldCommand P)} (queue : (s.txns mtxn.channels).yieldCh = cmd :: rest)
    (gone : cmd.type = .migrateTo ∨ cmd.type = .complete) :
    MovesIn s (s.processMigratedYields node mtxn) mtxn.txnID (.migrated node)
      (if cmd.type = .migrateTo then some .underWay else none) := by
  have here : HeldBy s mtxn.txnID (.migrated node) := List.mem_map_of_mem entry
  have channels := one.own_channels entry
  have popped := SameHolders.setTxn s mtxn.channels { s.txns mtxn.channels with yieldCh := rest } Iff.rfl
  have onePopped := one.same popped (fun _ => rfl)
  simp only [System.processMigratedYields,queue]
  refine MovesIn.after_same ?_ popped (fun _ => rfl)
  rcases gone with leaves | ends
  · simp only [System.handleMigratedYield,leaves,if_true]
    refine onePopped.moves_depart node mtxn.txnID true
      (System.migrationMessage node cmd.migrateToNodeID mtxn.txnID mtxn.channels) (popped.heldBy.mpr here)
      ?_ ?_ ?_ ?_ rfl (fun _ => Iff.rfl) (fun _ => ⟨rfl,by rw [← channels]; rfl⟩) passed
    all_goals
      intro place
      rw [managers_setManager]
      split
      · first | rfl | (next here => rw [here]; rfl)
      · rfl
  · simp only [System.handleMigratedYield,ends]
    refine onePopped.moves_depart node mtxn.txnID false (System.migrationMessage 0 0 mtxn.txnID mtxn.txnID)
      (popped.heldBy.mpr here) ?_ ?_ ?_ ?_ (by simp; rfl) (fun _ => Iff.rfl) (by simp) passed
    all_goals
      intro place
      simp only [System.emit,managers_setManager]
      split
      · first | rfl | (next here => rw [here])
      · rfl

/-- Every other command of a transaction that migrated leaves the holders as they are. -/
theorem SameHolders.processMigratedYields (s : System P) (node : Int) (mtxn : MigratedTxn)
    (stays : ∀ {cmd rest}, (s.txns mtxn.channels).yieldCh = cmd :: rest →
      cmd.type ≠ .migrateTo ∧ cmd.type ≠ .complete) :
    SameHolders s (s.processMigratedYields node mtxn) ∧
      ∀ place, ((s.processMigratedYields node mtxn).managers place).tick = (s.managers place).tick := by
  rcases queue : (s.txns mtxn.channels).yieldCh with _ | ⟨cmd,rest⟩
  · simp only [System.processMigratedYields,queue]
    exact ⟨(SameTables.refl s).holders,fun _ => trivial⟩
  · simp only [System.processMigratedYields,queue]
    have handled := SameTables.handleMigratedYield (s.setTxn mtxn.channels { s.txns mtxn.channels with yieldCh := rest })
      node mtxn cmd (stays queue).1 (stays queue).2
    exact ⟨(SameHolders.setTxn s mtxn.channels { s.txns mtxn.channels with yieldCh := rest } Iff.rfl).trans
      handled.holders,handled.tick⟩

theorem OneHolder.processMigratedYields {s : System P} (one : OneHolder s) {node : Int} {mtxn : MigratedTxn}
    (entry : mtxn ∈ (s.managers node).migratedTxns)
    (passed : ∀ {pending}, (s.managers node).tick = .processingMigrated pending → mtxn.txnID ∉ pending) :
    OneHolder (s.processMigratedYields node mtxn) := by
  by_cases gone : ∃ cmd rest, (s.txns mtxn.channels).yieldCh = cmd :: rest ∧
      (cmd.type = .migrateTo ∨ cmd.type = .complete)
  · obtain ⟨cmd,rest,queue,type⟩ := gone
    exact one.moves _ _ _ (one.moves_processMigratedYields entry passed queue type)
  · have same := SameHolders.processMigratedYields s node mtxn (fun queue =>
      ⟨fun leaves => gone ⟨_,_,queue,.inl leaves⟩,fun ends => gone ⟨_,_,queue,.inr ends⟩⟩)
    exact one.same same.1 same.2

/-- A migration request that is under way arrives at its target. -/
theorem OneHolder.moves_handleMigrationRequest [DecidableEq P] {s : System P} (one : OneHolder s) (node : Int)
    {msg : Message P} (member : msg ∈ s.migrations) :
    MovesIn s (({ s with migrations := s.migrations.erase msg } : System P).handleMigrationRequest node msg)
      msg.transactionID .underWay (some (.migrated node)) := by
  have shape := one.migrations_shape msg member
  simp only [System.handleMigrationRequest,shape]
  refine MovesIn.then_same ?_ (SameTables.pushResume (SameTables.refl _))
  refine one.moves_arrive node msg member ?_ ?_ ?_ ?_ rfl (fun _ => Iff.rfl)
  all_goals
    intro place
    simp only [managers_setManager]
    split
    · next here => subst here; first | rfl | simp [MigratedTxn.key]
    · rfl

/-- Everything but the goroutine, the channels and the record of one transaction
    stays, and the goroutine does not start. -/
theorem OneHolder.setTxn {s : System P} (one : OneHolder s) (id : TransactionID) (txn : Txn P)
    (started : txn.phase = .notStarted ↔ (s.txns id).phase = .notStarted) : OneHolder (s.setTxn id txn) :=
  one.same (SameHolders.setTxn s id txn started) (fun _ => rfl)

theorem OneHolder.pushYield {s : System P} (one : OneHolder s) (id : TransactionID) (cmd : YieldCommand P) :
    OneHolder (s.pushYield id cmd) :=
  one.same (SameHolders.pushYield s id cmd) (fun _ => rfl)

theorem heldBy_setTick {s : System P} {node : Int} {tick : TickPhase P} {id : TransactionID} {h : Holder} :
    HeldBy (s.setTick node tick) id h ↔ HeldBy s id h :=
  (SameHolders.setTick s node tick (s.managers node).ticks).heldBy

/-- The transaction that a Tick comes to next has started, is held nowhere else,
    and no Tick comes to it again. -/
theorem OneHolder.comesTo {s : System P} (one : OneHolder s) {node : Int} {id : TransactionID}
    {rest : List TransactionID} (at_processing : (s.managers node).tick = .processing (id :: rest)) :
    OneHolder (s.setTick node (.processing rest)) ∧
      (∀ h, HeldBy (s.setTick node (.processing rest)) id h → h = .active node) ∧
      ((s.setTick node (.processing rest)).txns id).phase ≠ .notStarted ∧
      ∀ {other pending}, ((s.setTick node (.processing rest)).managers other).tick = .processing pending →
        id ∉ pending := by
  obtain ⟨nodup,each⟩ := one.processing at_processing
  obtain ⟨notLater,restNodup⟩ := List.nodup_cons.mp nodup
  obtain ⟨started,home,only⟩ := each id (List.mem_cons_self ..)
  refine ⟨?_,fun h held => only h (heldBy_setTick.mp held),started,?_⟩
  · refine one.setTick ?_ (fun here => by cases here)
    rintro pending ⟨⟩
    exact ⟨restNodup,fun other member => each other (List.mem_cons_of_mem id member)⟩
  · intro other pending at_other member
    -- elsewhere the transaction would belong to another node
    simp only [System.setTick,managers_setManager] at at_other
    split at at_other
    · cases at_other
      exact notLater member
    · next elsewhere => exact elsewhere (((one.processing at_other).2 id member).2.1.symm.trans home)

/-- The same for a transaction that migrated to the node. -/
theorem OneHolder.comesToMigrated {s : System P} (one : OneHolder s) {node : Int} {id : TransactionID}
    {rest : List TransactionID} (at_processing : (s.managers node).tick = .processingMigrated (id :: rest)) :
    OneHolder (s.setTick node (.processingMigrated rest)) ∧
      ∀ {pending}, ((s.setTick node (.processingMigrated rest)).managers node).tick = .processingMigrated pending →
        id ∉ pending := by
  obtain ⟨nodup,each⟩ := one.processingMigrated at_processing
  obtain ⟨notLater,restNodup⟩ := List.nodup_cons.mp nodup
  refine ⟨?_,?_⟩
  · refine one.setTick (fun here => by cases here) ?_
    rintro pending ⟨⟩
    exact ⟨restNodup,fun other member => each other (List.mem_cons_of_mem id member)⟩
  · intro pending at_pending
    simp only [System.setTick,managers_setManager] at at_pending
    cases at_pending
    exact notLater

/-- No step of any transaction or manager makes a second holder. -/
theorem OneHolder.step [DecidableEq P] {s s' : System P} (one : OneHolder s) {action : Action P}
    (stepped : s.step action = some s') : OneHolder s' := by
  cases System.step_stepped stepped with
  | start node => exact one.start node
  | send => exact one.pushYield _ _
  | yield running =>
    refine (one.pushYield _ _).setTxn _ _ ?_
    simp [System.pushYield,txns_setTxn,running]
  | resume waiting => exact one.setTxn _ _ (by simp [waiting])
  | giveUp waiting => exact one.setTxn _ _ (by simp [waiting])
  | complete => exact one.pushYield _ _
  | completeResult => exact (one.pushYield _ _).tables (SameTables.pushResume (SameTables.refl _))
  | exit running => exact one.exit _ running
  | tickBegin => exact one.setTick (fun here => by cases here) (fun here => by cases here)
  | @arrive node msg rest _ _ underWay =>
    have ticked := one.setTick_routing node rest
    exact ticked.moves _ _ _ (ticked.moves_handleMigrationRequest node underWay)
  | ignore => exact one.setTick (fun here => by cases here) (fun here => by cases here)
  | @route node msg rest =>
    have ticked := one.setTick_routing node rest
    exact ticked.tables (SameTables.route _ node msg)
  | @snapshot node order _ perm =>
    refine one.setTick ?_ (fun here => by cases here)
    rintro pending ⟨⟩
    refine ⟨perm.nodup_iff.mpr (one.active_nodup node),fun id member => ?_⟩
    have held : HeldBy s id (.active node) := perm.mem_iff.mp member
    exact ⟨fun unstarted => one.unstarted unstarted _ held,one.active_home held,one.only _ held⟩
  | @process node id rest processing =>
    obtain ⟨ticked,only,started,passed⟩ := one.comesTo processing
    exact ticked.processYields only started passed
  | @snapshotMigrated node order _ perm =>
    refine one.setTick (fun here => by cases here) ?_
    rintro pending ⟨⟩
    exact ⟨perm.nodup_iff.mpr (one.migrated_nodup node),fun id member => perm.mem_iff.mp member⟩
  | @processMigrated node mtxn rest processing entry =>
    obtain ⟨ticked,passed⟩ := one.comesToMigrated processing
    exact ticked.processMigratedYields (System.migratedTxns_setTick s node _ ▸ entry) passed
  | skipMigrated processing =>
    obtain ⟨nodup,each⟩ := one.processingMigrated processing
    refine one.setTick (fun here => by cases here) ?_
    rintro pending ⟨⟩
    exact ⟨(List.nodup_cons.mp nodup).2,fun other member => each other (List.mem_cons_of_mem _ member)⟩
  | tickEnd => exact one.setTick (fun here => by cases here) (fun here => by cases here)

/-- In every reachable state each transaction is held by at most one place. -/
theorem oneHolder_of_reaches [DecidableEq P] {ok : System P → Action P → Prop} {s : System P}
    (reached : Reaches System.step ok System.initial s) : OneHolder s :=
  reached.invariant oneHolder_initial (fun _ one _ next => one.step next)

end FlowSim.Transaction
