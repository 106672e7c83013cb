import FlowSim.Transaction.Place

/-!
What is left of a transaction whose function has returned. The manager that
started it forgets it; an entry at a node it migrated to goes only with a
Complete or a migration, and a wait that is handled after the return is listed
again under its address.
-/
namespace FlowSim.Transaction
open FlowSim.Lib
set_option linter.unusedSimpArgs false

variable {P : Type}

/-! ### The waiters of an address -/

/-- The transaction is listed under the address at the node. -/
def Listed (s : System P) (id : TransactionID) (node : Int) (addr : String) : Prop :=
  id ∈ (s.managers node).pendingByAddr addr

/-- Whoever is listed now was listed before. -/
def NoMoreListed (s s' : System P) : Prop := ∀ id node addr, Listed s' id node addr → Listed s id node addr

namespace NoMoreListed

theorem refl (s : System P) : NoMoreListed s s := fun _ _ _ listed => listed

theorem trans {s₁ s₂ s₃ : System P} (first : NoMoreListed s₁ s₂) (second : NoMoreListed s₂ s₃) : NoMoreListed s₁ s₃ :=
  fun id node addr listed => first id node addr (second id node addr listed)

theorem setManager {s t : System P} {node : Int} {tm : TxnManager P} (fewer : NoMoreListed s t)
    (kept : ∀ addr, ∀ id ∈ tm.pendingByAddr addr, id ∈ (t.managers node).pendingByAddr addr) :
    NoMoreListed s (t.setManager node tm) := by
  intro id place addr listed
  unfold Listed at listed
  rw [managers_setManager] at listed
  split at listed
  · next here =>
    subst here
    exact fewer id place addr (kept addr id listed)
  · exact fewer id place addr listed

theorem setTxn {s t : System P} {id : TransactionID} {txn : Txn P} (fewer : NoMoreListed s t) :
    NoMoreListed s (t.setTxn id txn) := fewer

theorem pushResume {s t : System P} {id : TransactionID} {value : ResumeValue P} (fewer : NoMoreListed s t) :
    NoMoreListed s (t.pushResume id value) := by
  unfold System.pushResume
  split
  · exact fewer.setTxn
  · exact fewer

theorem mem_removePending {tm : TxnManager P} {id other : TransactionID} {addrs : List String} {addr : String}
    (member : other ∈ (tm.removePending id addrs).pendingByAddr addr) : other ∈ tm.pendingByAddr addr := by
  simp only [TxnManager.removePending] at member
  split at member
  · exact List.mem_of_mem_filter member
  · exact member

theorem foldl {β : Type} {f : System P → β → System P} (one : ∀ s item, NoMoreListed s (f s item)) :
    ∀ (items : List β) (s : System P), NoMoreListed s (items.foldl f s)
  | [], s => refl s
  | item :: rest, s => (one s item).trans (foldl one rest (f s item))

theorem route (s : System P) (node : Int) (msg : Message P) : NoMoreListed s (s.route node msg) := by
  have routed : NoMoreListed s (s.routeMessage node msg) := by
    refine (foldl ?_ _ s).trans (foldl ?_ _ _)
    · intro t target
      unfold System.resumeLocal
      split
      · exact setManager (setTxn (refl t)) (fun addr id member => mem_removePending member)
      · exact refl t
    · intro t mtxn
      unfold System.resumeMigrated
      split
      · refine setManager (pushResume (refl t)) (fun addr id member => member)
      · exact refl t
  unfold System.route
  dsimp only
  split <;> exact routed

theorem handleMigrationRequest (s : System P) (node : Int) (msg : Message P) :
    NoMoreListed s (s.handleMigrationRequest node msg) := by
  unfold System.handleMigrationRequest
  split
  · exact pushResume (setManager (refl s) (fun addr id member => member))
  · exact refl s

theorem processMigratedYields (s : System P) (node : Int) (mtxn : MigratedTxn) :
    NoMoreListed s (s.processMigratedYields node mtxn) := by
  unfold System.processMigratedYields
  split
  · exact refl s
  · unfold System.handleMigratedYield
    dsimp only
    split
    · exact setManager (refl s) (fun addr id member => member)
    · exact setManager (refl s) (fun addr id member => member)
    · exact setManager (refl s) (fun addr id member => member)
    · exact pushResume (refl s)
    · exact refl s

end NoMoreListed

/-- The address that a command lists its transaction under. -/
def YieldCommand.waitAddr (cmd : YieldCommand P) : String :=
  if cmd.type = .waitForMessage then (cmd.waitFor.map WaitForMessage.addr).getD "" else ""

/-- A command lists its transaction under its address, and nobody else. -/
theorem listed_handleYieldCommand {s : System P} {node place : Int} {id other : TransactionID} {cmd : YieldCommand P}
    {addr : String} (listed : Listed (s.handleYieldCommand node id cmd) other place addr) :
    Listed s other place addr ∨ other = id ∧ place = node ∧ cmd.waitAddr ≠ "" := by
  have kept : ∀ {t : System P}, Listed t other place addr → NoMoreListed s t →
      Listed s other place addr ∨ other = id ∧ place = node ∧ cmd.waitAddr ≠ "" :=
    fun now fewer => .inl (fewer other place addr now)
  unfold System.handleYieldCommand at listed
  split at listed
  · exact kept listed (.setManager (.refl s) (fun addr id member => member))
  · next kind =>
    dsimp only at listed
    have cleared : NoMoreListed s ((s.setTxn id { s.txns id with waiting := cmd.waitFor, pendingAddrs := [] }).setManager
        node ((s.managers node).removePending id (s.txns id).pendingAddrs)) :=
      .setManager (.refl s) (fun addr id member => NoMoreListed.mem_removePending member)
    split at listed
    · exact .inl (cleared other place addr listed)
    · next addressed =>
      have added : cmd.waitAddr ≠ "" := by
        rw [YieldCommand.waitAddr,if_pos kind]
        exact addressed
      simp only [Listed,System.execute,System.emit,System.setTxn,managers_setManager,if_pos] at listed
      split at listed
      · next here =>
        simp only [Function.update_apply] at listed
        split at listed
        · next same =>
          rcases List.mem_append.mp listed with before | new
          · subst here same
            exact .inl (NoMoreListed.mem_removePending before)
          · exact .inr ⟨List.mem_singleton.mp new,here,added⟩
        · subst here
          exact .inl (NoMoreListed.mem_removePending listed)
      · exact .inl listed
  · exact kept listed (.pushResume (.refl s))
  · exact kept listed (.refl s)
  · exact kept listed (.refl s)

/-- A wait with an address lists its transaction. -/
theorem listed_of_waitAddr {s : System P} {node : Int} {id : TransactionID} {cmd : YieldCommand P}
    (addressed : cmd.waitAddr ≠ "") : Listed (s.handleYieldCommand node id cmd) id node cmd.waitAddr := by
  have kind : cmd.type = .waitForMessage := by
    by_contra other
    exact addressed (if_neg other)
  have same : cmd.waitAddr = (cmd.waitFor.map WaitForMessage.addr).getD "" := if_pos kind
  rw [same] at addressed ⊢
  simp only [System.handleYieldCommand,kind,if_neg addressed,Listed,System.execute,System.emit,System.setTxn,
    managers_setManager,if_true,Function.update_self]
  exact List.mem_append_right _ (List.mem_singleton.mpr rfl)

section
variable [DecidableEq P] {s s' : System P} {action : Action P}

/-- The Tick of the node comes to the transaction, whose oldest command has an
    address to wait for. -/
def Lists (s : System P) (action : Action P) (id : TransactionID) (node : Int) : Prop :=
  action = .processNext node ∧ (∃ rest, (s.managers node).tick = .processing (id :: rest)) ∧
    ∃ cmd cmds, (s.txns id).yieldCh = cmd :: cmds ∧ cmd.waitAddr ≠ ""

theorem listed_of_step (stepped : s.step action = some s') {id : TransactionID} {node : Int} {addr : String}
    (listed : Listed s' id node addr) : (Listed s id node addr ∧ (action = .exit id → id.nodeID ≠ node)) ∨
      Lists s action id node := by
  have kept : ∀ {t : System P}, (∀ other, action ≠ .exit other) → Listed t id node addr → NoMoreListed s t →
      (Listed s id node addr ∧ (action = .exit id → id.nodeID ≠ node)) ∨ Lists s action id node :=
    fun stays now fewer => .inl ⟨fewer id node addr now,fun ends => absurd ends (stays id)⟩
  have ticked : ∀ {place : Int} {tick : TickPhase P}, NoMoreListed s (s.setTick place tick) :=
    .setManager (.refl s) (fun addr id member => member)
  cases System.step_stepped stepped with
  | start => exact kept (by simp) listed (.setManager (.setTxn (.refl s)) (fun addr id member => member))
  | send => exact kept (by simp) listed (.refl s)
  | yield => exact kept (by simp) listed (.refl s)
  | resume => exact kept (by simp) listed (.refl s)
  | giveUp => exact kept (by simp) listed (.refl s)
  | complete => exact kept (by simp) listed (.refl s)
  | completeResult =>
    exact kept (by simp) listed (NoMoreListed.pushResume (t := s.pushYield _ _) (.refl s))
  | @exit other running =>
    refine .inl ?_
    unfold Listed at listed
    rw [managers_exit] at listed
    split at listed
    · next here =>
      subst here
      obtain ⟨member,different⟩ := List.mem_filter.mp listed
      refine ⟨member,fun ends => ?_⟩
      cases ends
      exact absurd rfl (of_decide_eq_true different)
    · next elsewhere =>
      refine ⟨listed,fun ends => ?_⟩
      cases ends
      exact Ne.symm elsewhere
  | tickBegin => exact kept (by simp) listed ticked
  | @arrive place msg rest =>
    have erased : NoMoreListed s { s.setTick place (.routing rest) with migrations := s.migrations.erase msg } := ticked
    exact kept (by simp) listed (erased.trans (.handleMigrationRequest _ _ _))
  | ignore => exact kept (by simp) listed ticked
  | route => exact kept (by simp) listed (ticked.trans (.route _ _ _))
  | snapshot => exact kept (by simp) listed ticked
  | @process place other rest processing =>
    rcases queue : (s.txns other).yieldCh with _ | ⟨cmd,cmds⟩
    · have queue' : ((s.setTick place (.processing rest)).txns other).yieldCh = [] := queue
      simp only [System.processYields,queue'] at listed
      exact kept (by simp) listed ticked
    · have queue' : ((s.setTick place (.processing rest)).txns other).yieldCh = cmd :: cmds := queue
      simp only [System.processYields,queue'] at listed
      rcases listed_handleYieldCommand listed with before | ⟨rfl,rfl,addressed⟩
      · exact kept (by simp) before ticked
      · exact .inr ⟨rfl,⟨rest,processing⟩,cmd,cmds,queue,addressed⟩
  | snapshotMigrated => exact kept (by simp) listed ticked
  | processMigrated => exact kept (by simp) listed (ticked.trans (.processMigratedYields _ _ _))
  | skipMigrated => exact kept (by simp) listed ticked
  | tickEnd => exact kept (by simp) listed (.setManager (.refl s) (fun addr id member => member))

/-! ### Goroutines that have returned -/

/-- The transaction's function has returned. -/
def Exited (s : System P) (id : TransactionID) : Prop := (s.txns id).phase = .exited

/-- A function that has returned stays so; it returns in its own step. -/
theorem exited_of_step (one : OneHolder s) (stepped : s.step action = some s') {id : TransactionID} :
    Exited s' id ↔ Exited s id ∨ action = .exit id := by
  have kept : ∀ {t : System P}, (∀ other, action ≠ .exit other) → (t.txns id).phase = (s.txns id).phase →
      (Exited t id ↔ Exited s id ∨ action = .exit id) := by
    intro t stays same
    simp only [Exited,same,stays id,or_false]
  -- a goroutine that goes on running had not returned before either
  have runs : ∀ {other : TransactionID} {txn : Txn P}, (∀ other, action ≠ .exit other) →
      (s.txns other).phase ≠ .exited → txn.phase ≠ .exited →
      (Exited (s.setTxn other txn) id ↔ Exited s id ∨ action = .exit id) := by
    intro other txn stays before after
    by_cases here : id = other
    · subst here
      simp [Exited,txns_setTxn,before,after,stays id]
    · exact kept stays (by rw [txns_setTxn,if_neg here])
  cases System.step_stepped stepped with
  | start node =>
    exact runs (by simp) (by rw [one.fresh node (le_refl _)]; simp) (by simp)
  | send => exact kept (by simp) (phase_pushYield s _ id _)
  | @yield other cmd running =>
    have pushed : ((s.pushYield other cmd).txns id).phase = (s.txns id).phase := phase_pushYield s _ id _
    by_cases here : id = other
    · subst here
      simp [Exited,txns_setTxn,running]
    · exact kept (by simp) (by rw [txns_setTxn,if_neg here,pushed])
  | resume waiting => exact runs (by simp) (by simp [waiting]) (by simp)
  | giveUp waiting => exact runs (by simp) (by simp [waiting]) (by simp)
  | complete => exact kept (by simp) (phase_pushYield s _ id _)
  | completeResult =>
    exact kept (by simp) (((SameTables.pushResume (SameTables.refl _)).phase id).trans (phase_pushYield s _ id _))
  | @exit other running =>
    by_cases here : id = other
    · subst here
      exact iff_of_true (by simp [Exited,System.exit,System.setManager,txns_setTxn]) (.inr rfl)
    · have same : ((s.exit other).txns id).phase = (s.txns id).phase := by
        simp [System.exit,System.setManager,txns_setTxn,here]
      simp [Exited,same,Ne.symm here]
  | tickBegin => exact kept (by simp) rfl
  | arrive => exact kept (by simp) (phase_handleMigrationRequest _ _ _ id)
  | ignore => exact kept (by simp) rfl
  | route => exact kept (by simp) ((SameTables.route _ _ _).phase id)
  | snapshot => exact kept (by simp) rfl
  | process => exact kept (by simp) (phase_processYields _ _ _ id)
  | snapshotMigrated => exact kept (by simp) rfl
  | processMigrated => exact kept (by simp) (phase_processMigratedYields _ _ _ id)
  | skipMigrated => exact kept (by simp) rfl
  | tickEnd => exact kept (by simp) rfl

/-- All commands of a transaction whose function has returned are handled, and no
    migration request for it is under way. -/
structure Finished (s : System P) (id : TransactionID) : Prop where
  exited : Exited s id
  handled : (s.txns id).yieldCh = []
  settled : ¬ HeldBy s id .underWay

/-- Nothing is left of the transaction: no table names it, and no message
    resumes it. -/
structure NoResidue (s : System P) (id : TransactionID) : Prop where
  active : ∀ node, id ∉ (s.managers node).activeTxns
  migrated : ∀ node, id ∉ (s.managers node).migratedTxns.map MigratedTxn.txnID
  pending : ∀ node addr, id ∉ (s.managers node).pendingByAddr addr
  unmatched : ∀ node msg, s.resumes node msg id = false

/-- Nothing is left of the transactions that have finished. -/
def Clean (s : System P) : Prop := ∀ id, Finished s id → NoResidue s id

/-- The step leaves nothing behind: a function returns with an empty queue only
    while no node hosts its transaction as a migrated one; no request arrives for
    a transaction that has returned, with an empty queue; and the last command
    of a transaction that has returned is a Complete or a migration where it has
    migrated to, and no wait for an address where it started. -/
def Tidy (s : System P) : Action P → Prop
  | .exit id => (s.txns id).yieldCh = [] → ∀ node, ¬ HeldBy s id (.migrated node)
  | .routeNext node => ∀ msg rest, (s.managers node).tick = .routing (msg :: rest) → msg.isMigration = true →
      Exited s msg.transactionID → (s.txns msg.transactionID).yieldCh ≠ []
  | .processNext node => ∀ id rest cmd, (s.managers node).tick = .processing (id :: rest) → Exited s id →
      (s.txns id).yieldCh = [cmd] → cmd.waitAddr = ""
  | .processMigratedNext node => ∀ id rest cmd, (s.managers node).tick = .processingMigrated (id :: rest) →
      HeldBy s id (.migrated node) → Exited s id → (s.txns id).yieldCh = [cmd] →
      cmd.type = .complete ∨ cmd.type = .migrateTo
  | _ => True

/-- What tidy steps keep. A transaction that is listed after its return still has
    commands, and no manager will come to them. -/
structure Swept (s : System P) : Prop where
  one : OneHolder s
  fresh : Fresh s
  home : ∀ {id node addr}, Listed s id node addr → id.nodeID = node
  inactive : ∀ {id}, Exited s id → ∀ node, ¬ HeldBy s id (.active node)
  unmigrated : ∀ {id}, Exited s id → (s.txns id).yieldCh = [] → ∀ node, ¬ HeldBy s id (.migrated node)
  stuck : ∀ {id node addr}, Exited s id → Listed s id node addr → (s.txns id).yieldCh ≠ [] ∧ ¬ Held s id ∧
    ∀ place pending, (s.managers place).tick = .processing pending → id ∉ pending

omit [DecidableEq P] in
theorem swept_initial : Swept (System.initial : System P) where
  one := oneHolder_initial
  fresh _ _ := rfl
  home listed := absurd listed List.not_mem_nil
  inactive exited := by cases exited
  unmigrated exited := by cases exited
  stuck exited := by cases exited

omit [DecidableEq P] in
theorem Swept.clean (swept : Swept s) : Clean s := by
  intro id finished
  have inactive := swept.inactive finished.exited
  have unmigrated := swept.unmigrated finished.exited finished.handled
  refine ⟨inactive,unmigrated,fun node addr listed => ?_,fun node msg => ?_⟩
  · exact (swept.stuck finished.exited listed).1 finished.handled
  · rw [← Bool.not_eq_true,resumes_iff]
    rintro ⟨_,wait,waits,_⟩
    rcases waits.heldBy swept.one with held | held
    · exact inactive node held
    · exact unmigrated node held

/-! ### Steps -/

/-- After the return commands are taken one by one, where the transaction is. -/
theorem Swept.queue_step (swept : Swept s) (stepped : s.step action = some s') {id : TransactionID}
    (exited : Exited s id) : (s'.txns id).yieldCh = (s.txns id).yieldCh ∨
      ∃ cmd, (s.txns id).yieldCh = cmd :: (s'.txns id).yieldCh ∧ (cmd.type = .migrateTo → HeldBy s' id .underWay) ∧
        ((∃ node rest, action = .processNext node ∧ (s.managers node).tick = .processing (id :: rest)) ∨
          ∃ node rest, action = .processMigratedNext node ∧
            (s.managers node).tick = .processingMigrated (id :: rest) ∧ HeldBy s id (.migrated node)) := by
  cases Traffic.of_step swept.one swept.fresh stepped id with
  | accepted cmd running => cases exited.symm.trans running
  | handled cmd queue _ _ moved => exact .inr ⟨cmd,queue,moved,taken_of_step swept.one swept.fresh stepped ⟨cmd,queue⟩⟩
  | quiet queue => exact .inl queue

omit [DecidableEq P] in
/-- What a Tick of the manager that started it comes to after the return is held nowhere. -/
theorem Swept.not_held (swept : Swept s) {node : Int} {id : TransactionID} {rest : List TransactionID}
    (exited : Exited s id) (processing : (s.managers node).tick = .processing (id :: rest)) : ¬ Held s id := by
  rintro ⟨h,held⟩
  obtain rfl := ((swept.one.processing processing).2 id (List.mem_cons_self ..)).2.2 h held
  exact swept.inactive exited node held

theorem Swept.home_step (swept : Swept s) (stepped : s.step action = some s') {id : TransactionID} {node : Int}
    {addr : String} (listed : Listed s' id node addr) : id.nodeID = node := by
  rcases listed_of_step stepped listed with ⟨before,_⟩ | ⟨_,⟨rest,processing⟩,_⟩
  · exact swept.home before
  · exact ((swept.one.processing processing).2 id (List.mem_cons_self ..)).2.1

theorem Swept.inactive_step (swept : Swept s) (stepped : s.step action = some s') {id : TransactionID}
    (exited : Exited s' id) (node : Int) : ¬ HeldBy s' id (.active node) := by
  intro held
  rcases (exited_of_step swept.one stepped).mp exited with before | rfl
  · cases HolderOrigin.of_step swept.one stepped held with
    | same held => exact swept.inactive before node held
    | started _ new =>
      have unstarted := swept.one.fresh node (le_refl ((s.managers node).nextTxnID : Int))
      rw [← new] at unstarted
      cases before.symm.trans unstarted
  · -- the function returns in this step, and its manager forgets it
    have home := (swept.one.step stepped).active_home held
    cases System.step_stepped stepped with
    | exit running =>
      simp only [HeldBy,managers_exit,home,if_true,List.mem_filter] at held
      exact absurd rfl (of_decide_eq_true held.2)

theorem Swept.unmigrated_step (swept : Swept s) (tidy : Tidy s action) (stepped : s.step action = some s')
    {id : TransactionID} (exited : Exited s' id) (handled : (s'.txns id).yieldCh = []) (node : Int) :
    ¬ HeldBy s' id (.migrated node) := by
  intro held
  have one' := swept.one.step stepped
  have origin := HolderOrigin.of_step swept.one stepped held
  rcases (exited_of_step swept.one stepped).mp exited with before | rfl
  · rcases swept.queue_step stepped before with same | ⟨cmd,queue,moved,taken⟩
    · rw [handled] at same
      cases origin with
      | same held => exact swept.unmigrated before same.symm node held
      | @arrived _ msg rest comes routing migration own underWay =>
        subst comes own
        exact tidy msg rest routing migration before same.symm
    · rw [handled] at queue
      rcases taken with ⟨place,rest,rfl,processing⟩ | ⟨place,rest,rfl,processing,here⟩
      · cases origin with
        | same held => exact swept.not_held before processing ⟨_,held⟩
        | arrived comes => cases comes
      · rcases tidy id rest cmd processing here before queue with completes | leaves
        · exact not_held_of_forgets swept.one stepped ⟨place,rest,cmd,[],rfl,processing,here,queue,completes⟩ ⟨_,held⟩
        · cases one'.unique held (moved leaves)
  · have kept : (s'.txns id).yieldCh = (s.txns id).yieldCh := by
      cases System.step_stepped stepped with
      | exit => exact yieldCh_setTxn rfl
    cases origin with
    | same held => exact tidy (kept.symm.trans handled) node held
    | arrived comes => cases comes

/-- No step comes back to a transaction that is held nowhere and in no snapshot. -/
theorem Swept.stays_stuck (swept : Swept s) (stepped : s.step action = some s') {id : TransactionID}
    (exited : Exited s id) (unheld : ¬ Held s id)
    (passed : ∀ place pending, (s.managers place).tick = .processing pending → id ∉ pending) :
    (s'.txns id).yieldCh = (s.txns id).yieldCh ∧ ¬ Held s' id ∧
      ∀ place pending, (s'.managers place).tick = .processing pending → id ∉ pending := by
  refine ⟨?_,?_,fun place pending processing member => ?_⟩
  · rcases swept.queue_step stepped exited with same | ⟨_,_,_,⟨place,rest,_,processing⟩ | ⟨place,_,_,_,here⟩⟩
    · exact same
    · exact absurd (List.mem_cons_self ..) (passed place (id :: rest) processing)
    · exact absurd ⟨_,here⟩ unheld
  · intro held'
    rcases held_of_step swept.one stepped held' with held | ⟨place,_,new⟩ | ⟨place,rest,processing⟩
    · exact unheld held
    · have unstarted := swept.one.fresh place (le_refl ((s.managers place).nextTxnID : Int))
      rw [← new] at unstarted
      cases exited.symm.trans unstarted
    · exact passed place (id :: rest) processing (List.mem_cons_self ..)
  · have move := TickMove.of_step swept.one stepped place
    rw [processing] at move
    generalize before : (s.managers place).tick = tick at move
    cases move with
    | stay => exact passed place pending before member
    | snapshot perm =>
      have active : HeldBy s id (.active place) := perm.mem_iff.mp member
      exact unheld ⟨_,active⟩
    | processed => exact passed place _ before (List.mem_cons_of_mem _ member)

theorem Swept.stuck_step (swept : Swept s) (tidy : Tidy s action) (stepped : s.step action = some s')
    {id : TransactionID} {node : Int} {addr : String} (exited : Exited s' id) (listed : Listed s' id node addr) :
    (s'.txns id).yieldCh ≠ [] ∧ ¬ Held s' id ∧
      ∀ place pending, (s'.managers place).tick = .processing pending → id ∉ pending := by
  have was := (exited_of_step swept.one stepped).mp exited
  rcases listed_of_step stepped listed with ⟨before,notHere⟩ | ⟨rfl,⟨rest,processing⟩,cmd,cmds,queue,addressed⟩
  · rcases was with returned | returns
    · obtain ⟨some,unheld,passed⟩ := swept.stuck returned before
      obtain ⟨same,unheld',passed'⟩ := swept.stays_stuck stepped returned unheld passed
      exact ⟨same ▸ some,unheld',passed'⟩
    · exact absurd (swept.home before) (notHere returns)
  · -- the wait was in a snapshot when the function returned
    have returned : Exited s id := was.resolve_right (by simp)
    have unheld := swept.not_held returned processing
    obtain ⟨distinct,here⟩ := swept.one.processing processing
    cases System.step_stepped stepped with
    | process processing' =>
      cases processing'.symm.trans processing
      have popped : (((s.setTick node (.processing rest)).processYields node id).txns id).yieldCh = cmds := by
        rw [yieldCh_processYields,if_pos rfl]
        show (s.txns id).yieldCh.tail = cmds
        rw [queue,List.tail_cons]
      refine ⟨?_,?_,fun place pending after member => ?_⟩
      · rw [popped]
        rintro rfl
        exact addressed (tidy id rest cmd processing returned queue)
      · rintro ⟨h,held⟩
        cases HolderOrigin.of_step swept.one stepped held with
        | same before => exact unheld ⟨_,before⟩
        | started starts => cases starts
        | left cmd' queue' leaves =>
          rw [queue] at queue'
          obtain ⟨rfl,_⟩ := List.cons.inj queue'
          exact addressed (by simp [YieldCommand.waitAddr,leaves])
        | arrived comes => cases comes
      · rw [tick_processYields,tick_setTick] at after
        split at after
        · cases after
          exact (List.nodup_cons.mp distinct).1 member
        · next elsewhere =>
          have other := ((swept.one.processing after).2 id member).2.1
          exact elsewhere (other.symm.trans (here id (List.mem_cons_self ..)).2.1)

theorem Swept.step (swept : Swept s) (tidy : Tidy s action) (stepped : s.step action = some s') : Swept s' where
  one := swept.one.step stepped
  fresh := Fresh.step swept.one swept.fresh stepped
  home := swept.home_step stepped
  inactive := swept.inactive_step stepped
  unmigrated := swept.unmigrated_step tidy stepped
  stuck := swept.stuck_step tidy stepped

/-- A step that leaves nothing behind is tidy. -/
theorem Swept.tidy_of_clean (swept : Swept s) (stepped : s.step action = some s') (clean : Clean s') : Tidy s action := by
  have one' := swept.one.step stepped
  have stays : ∀ {id}, Exited s id → Exited s' id := fun before => (exited_of_step swept.one stepped).mpr (.inl before)
  cases action with
  | exit id =>
    intro empty node held
    have exited : Exited s' id := (exited_of_step swept.one stepped).mpr (.inr rfl)
    have still : HeldBy s' id (.migrated node) ∧ (s'.txns id).yieldCh = (s.txns id).yieldCh := by
      refine ⟨?_,?_⟩
      · cases HolderChange.of_step swept.one stepped held with
        | kept held' => exact held'
        | left cmd queue => rw [empty] at queue; cases queue
        | ended _ ends => cases ends
      · cases System.step_stepped stepped with
        | exit => exact yieldCh_setTxn rfl
    have finished : Finished s' id := ⟨exited,still.2.trans empty,fun way => by cases one'.unique still.1 way⟩
    exact (clean id finished).migrated node still.1
  | routeNext node =>
    intro msg rest routing migration exited empty
    cases System.step_stepped stepped with
    | @arrive _ msg' rest' routing' _ underWay =>
      cases routing'.symm.trans routing
      have ticked := swept.one.setTick_routing node rest
      have arrived := (ticked.moves_handleMigrationRequest node underWay).held.mpr (.inr ⟨rfl,rfl⟩)
      have queue : ((({ s.setTick node (.routing rest) with migrations := s.migrations.erase msg } :
          System P).handleMigrationRequest node msg).txns msg.transactionID).yieldCh = [] := by
        rcases swept.queue_step stepped exited with same | ⟨_,_,_,⟨_,_,other,_⟩ | ⟨_,_,other,_⟩⟩
        · exact same.trans empty
        · cases other
        · cases other
      have finished : Finished _ msg.transactionID := ⟨stays exited,queue,fun way => by cases one'.unique arrived way⟩
      exact (clean _ finished).migrated node arrived
    | ignore routing' ordinary =>
      cases routing'.symm.trans routing
      cases ordinary.symm.trans migration
    | route routing' ordinary =>
      cases routing'.symm.trans routing
      cases ordinary.symm.trans migration
  | processNext node =>
    intro id rest cmd processing exited queue
    by_contra addressed
    have unheld := swept.not_held exited processing
    cases System.step_stepped stepped with
    | process processing' =>
      cases processing'.symm.trans processing
      have popped : (((s.setTick node (.processing rest)).processYields node id).txns id).yieldCh = [] := by
        rw [yieldCh_processYields,if_pos rfl]
        show (s.txns id).yieldCh.tail = []
        rw [queue,List.tail_cons]
      have listed : Listed ((s.setTick node (.processing rest)).processYields node id) id node cmd.waitAddr := by
        have queue' : ((s.setTick node (.processing rest)).txns id).yieldCh = [cmd] := queue
        simp only [System.processYields,queue']
        exact listed_of_waitAddr addressed
      have settled : ¬ HeldBy ((s.setTick node (.processing rest)).processYields node id) id .underWay := by
        intro way
        cases HolderOrigin.of_step swept.one stepped way with
        | same before => exact unheld ⟨_,before⟩
        | left cmd' queue' leaves =>
          rw [queue] at queue'
          obtain ⟨rfl,_⟩ := List.cons.inj queue'
          exact addressed (by simp [YieldCommand.waitAddr,leaves])
      exact (clean id ⟨stays exited,popped,settled⟩).pending node _ listed
  | processMigratedNext node =>
    intro id rest cmd processing held exited queue
    by_contra goesOn
    obtain ⟨notEnded,notLeft⟩ := not_or.mp goesOn
    -- the entry stays, and its queue is empty now
    have popped : (s'.txns id).yieldCh = [] := by
      cases System.step_stepped stepped with
      | @processMigrated _ mtxn _ processing' entry =>
        cases processing'.symm.trans processing
        have channels := swept.one.channels (List.mem_map_of_mem (f := MigratedTxn.key) entry)
        have own : mtxn.channels = mtxn.txnID := channels
        rw [yieldCh_processMigratedYields,own,if_pos rfl]
        show (s.txns mtxn.txnID).yieldCh.tail = []
        rw [queue,List.tail_cons]
      | skipMigrated processing' absent =>
        cases processing'.symm.trans processing
        exact absurd held absent
    have still : HeldBy s' id (.migrated node) := by
      cases HolderChange.of_step swept.one stepped held with
      | kept held' => exact held'
      | left _ _ way =>
        cases HolderOrigin.of_step swept.one stepped way with
        | same before => cases swept.one.unique held before
        | left cmd' queue' leaves =>
          rw [queue] at queue'
          obtain ⟨rfl,_⟩ := List.cons.inj queue'
          exact absurd leaves notLeft
      | ended cmd' ends processing' queue' completes =>
        rw [queue] at queue'
        obtain ⟨rfl,_⟩ := List.cons.inj queue'
        exact absurd completes notEnded
    exact (clean id ⟨stays exited,popped,fun way => by cases one'.unique still way⟩).migrated node still
  | _ => trivial

/-- A step leaves nothing behind exactly when it is tidy. -/
theorem Swept.clean_iff (swept : Swept s) (stepped : s.step action = some s') : Clean s' ↔ Tidy s action :=
  ⟨swept.tidy_of_clean stepped,fun tidy => (swept.step tidy stepped).clean⟩

/-- In a run nothing is ever left of finished transactions exactly when every
    step is tidy. -/
theorem no_residue_iff (actions : List (Action P)) :
    (∀ taken ∈ trace System.step System.initial actions, Clean taken.2.2) ↔
      ∀ taken ∈ trace System.step System.initial actions, Tidy taken.1 taken.2.1 :=
  @trace_forall_iff _ _ System.step Swept (fun _ _ s' => Clean s') Tidy (fun swept stepped => swept.clean_iff stepped)
    (fun swept stepped tidy => swept.step tidy stepped) _ _ swept_initial

end

/-- A transaction migrates to node 1, and its function returns there without a
    Complete, as on an error. -/
def migrateAndReturn : List (Action Unit) :=
  [.start 0,.yield ⟨0,1⟩ { type := .migrateTo, migrateToNodeID := 1 },
    .tickBegin 0 [],.snapshot 0 [⟨0,1⟩],.processNext 0,.snapshotMigrated 0 [],.tickEnd 0,
    .tickBegin 1 [System.migrationMessage 0 1 ⟨0,1⟩ ⟨0,1⟩],.routeNext 1,.resume ⟨0,1⟩]

/-- Node 1 keeps the transaction. -/
theorem returned_elsewhere_kept : ¬ ∀ actions : List (Action Unit),
    ∀ taken ∈ trace System.step System.initial actions, Clean taken.2.2 := by
  intro clean
  let s := (runActions System.step (fun _ _ => True) migrateAndReturn System.initial).get (by decide +kernel)
  have ran : runActions System.step (fun _ _ => True) migrateAndReturn System.initial = some s := (Option.some_get _).symm
  have stepped : s.step (.exit ⟨0,1⟩) = some (s.exit ⟨0,1⟩) := by rfl
  have finished : Finished (s.exit ⟨0,1⟩) ⟨0,1⟩ := ⟨by unfold Exited; decide +kernel,by decide +kernel,by unfold HeldBy; decide +kernel⟩
  have gone := (clean _ _ (mem_trace_of_run stepped ran) ⟨0,1⟩ finished).migrated 1
  exact gone (by decide +kernel)

end FlowSim.Transaction
