import FlowSim.Transaction.Progress

/-!
Where a transaction is while its function runs. It is held in exactly one place
until a manager it migrated to takes its Complete and forgets it; then it is held
nowhere. What it queues is taken by the manager that holds it and by no other.
-/
namespace FlowSim.Transaction
open FlowSim.Lib
set_option linter.unusedSimpArgs false

variable {P : Type}

/-- The step takes the Complete of a transaction that migrated to the node. -/
def Forgets (s : System P) (action : Action P) (id : TransactionID) : Prop :=
  ∃ node rest cmd cmds, action = .processMigratedNext node ∧
    (s.managers node).tick = .processingMigrated (id :: rest) ∧ HeldBy s id (.migrated node) ∧
    (s.txns id).yieldCh = cmd :: cmds ∧ cmd.type = .complete

/-- One of the steps has taken the Complete of the transaction at a node it
    migrated to. -/
def Forgotten (steps : List (System P × Action P × System P)) (id : TransactionID) : Prop :=
  ∃ taken ∈ steps, Forgets taken.1 taken.2.1 id

/-- The step takes the oldest command of the transaction. -/
def Takes (s s' : System P) (id : TransactionID) : Prop :=
  ∃ cmd, (s.txns id).yieldCh = cmd :: (s'.txns id).yieldCh

/-- Running transactions are held in one place, except those that are gone; what
    a Tick still has to come to is not gone. -/
structure Placed (gone : TransactionID → Prop) (s : System P) : Prop where
  one : OneHolder s
  fresh : Fresh s
  held : ∀ {id}, s.live id = true → ¬ gone id → Held s id
  nowhere : ∀ {id}, s.live id = true → gone id → ¬ Held s id
  started : ∀ {id}, gone id → (s.txns id).phase ≠ .notStarted
  pending : ∀ {node pending id}, (s.managers node).tick = .processing pending → id ∈ pending → s.live id = true → Held s id

theorem placed_initial : Placed (fun _ => False) (System.initial : System P) where
  one := oneHolder_initial
  fresh _ _ := rfl
  held live := by cases live
  nowhere _ gone := gone.elim
  started gone := gone.elim
  pending processing := by cases processing

section
variable [DecidableEq P] {s s' : System P} {action : Action P}

/-! ### Steps -/

/-- A function starts, returns, or goes on. -/
theorem live_of_step (stepped : s.step action = some s') (id : TransactionID) :
    (∃ node, action = .start node ∧ id = ⟨node,(s.managers node).nextTxnID⟩) ∨ s'.live id = false ∨
      s'.live id = s.live id := by
  have lives : ∀ {t : System P} {t' : System P}, (t'.txns id).phase = (t.txns id).phase → t'.live id = t.live id := by
    intro t t' same
    simp only [System.live,same]
  have put : ∀ (t : System P) (other : TransactionID) (txn : Txn P),
      (System.live (t.setTxn other txn) id = t.live id) ∨ id = other := by
    intro t other txn
    by_cases here : id = other
    · exact .inr here
    · exact .inl (lives (by rw [txns_setTxn,if_neg here]))
  cases System.step_stepped stepped with
  | start node =>
    by_cases here : id = ⟨node,(s.managers node).nextTxnID⟩
    · exact .inl ⟨node,rfl,here⟩
    · exact .inr (.inr (lives (by rw [txns_start s node here])))
  | send => exact .inr (.inr (lives (phase_pushYield s _ id _)))
  | @yield other cmd running =>
    rcases put (s.pushYield other cmd) other { (s.pushYield other cmd).txns other with phase := .yielding cmd } with
      same | rfl
    · exact .inr (.inr (same.trans (lives (phase_pushYield s _ id _))))
    · exact .inr (.inr (by simp [System.live,txns_setTxn,running]))
  | @resume other cmd value rest waiting =>
    rcases put s other { s.txns other with phase := .running, resumeCh := rest } with same | rfl
    · exact .inr (.inr same)
    · exact .inr (.inr (by simp [System.live,txns_setTxn,waiting]))
  | @giveUp other cmd waiting =>
    rcases put s other { s.txns other with phase := .running } with same | rfl
    · exact .inr (.inr same)
    · exact .inr (.inr (by simp [System.live,txns_setTxn,waiting]))
  | complete => exact .inr (.inr (lives (phase_pushYield s _ id _)))
  | completeResult =>
    refine .inr (.inr (lives ?_))
    rw [(SameTables.pushResume (SameTables.refl _)).phase,phase_pushYield]
  | @exit other running =>
    rcases put s other { s.txns other with phase := .exited } with same | rfl
    · exact .inr (.inr same)
    · refine .inr (.inl ?_)
      show System.live (s.setTxn id { s.txns id with phase := .exited }) id = false
      simp [System.live,txns_setTxn]
  | tickBegin => exact .inr (.inr (lives rfl))
  | arrive => exact .inr (.inr (lives (phase_handleMigrationRequest _ _ _ id)))
  | ignore => exact .inr (.inr (lives rfl))
  | route => exact .inr (.inr (lives ((SameTables.route _ _ _).phase id)))
  | snapshot => exact .inr (.inr (lives rfl))
  | process => exact .inr (.inr (lives (phase_processYields _ _ _ id)))
  | snapshotMigrated => exact .inr (.inr (lives rfl))
  | processMigrated => exact .inr (.inr (lives (phase_processMigratedYields _ _ _ id)))
  | skipMigrated => exact .inr (.inr (lives rfl))
  | tickEnd => exact .inr (.inr (lives rfl))

/-- Where the holder that a transaction has after a step comes from. -/
inductive HolderOrigin (s s' : System P) (action : Action P) (id : TransactionID) : Holder → Prop where
  | same {h : Holder} (held : HeldBy s id h) : HolderOrigin s s' action id h
  | started {node : Int} (starts : action = .start node) (new : id = ⟨node,(s.managers node).nextTxnID⟩) :
      HolderOrigin s s' action id (.active node)
  | left (cmd : YieldCommand P) (queue : (s.txns id).yieldCh = cmd :: (s'.txns id).yieldCh)
      (leaves : cmd.type = .migrateTo) (place : (∃ node, HeldBy s id (.migrated node)) ∨
        ∃ node rest, (s.managers node).tick = .processing (id :: rest)) : HolderOrigin s s' action id .underWay
  | arrived {node : Int} {msg : Message P} {rest : List (Message P)} (comes : action = .routeNext node)
      (routing : (s.managers node).tick = .routing (msg :: rest)) (migration : msg.isMigration = true)
      (own : msg.transactionID = id) (underWay : HeldBy s id .underWay) :
      HolderOrigin s s' action id (.migrated node)

theorem HolderOrigin.of_step (one : OneHolder s) (stepped : s.step action = some s') {id : TransactionID} {h : Holder}
    (held : HeldBy s' id h) : HolderOrigin s s' action id h := by
  cases System.step_stepped stepped with
  | start node =>
    rcases (heldBy_start s node).mp held with before | ⟨rfl,rfl⟩
    · exact .same before
    · exact .started rfl rfl
  | send => exact .same ((SameHolders.pushYield s _ _).heldBy.mp held)
  | yield running =>
    refine .same ((SameHolders.pushYield s _ _).heldBy.mp ((SameHolders.setTxn _ _ _ ?_).heldBy.mp held))
    simp [System.pushYield,txns_setTxn,running]
  | resume waiting => exact .same ((SameHolders.setTxn s _ _ (by simp [waiting])).heldBy.mp held)
  | giveUp waiting => exact .same ((SameHolders.setTxn s _ _ (by simp [waiting])).heldBy.mp held)
  | complete => exact .same ((SameHolders.pushYield s _ _).heldBy.mp held)
  | completeResult =>
    exact .same ((SameHolders.pushYield s _ _).heldBy.mp
      ((SameTables.pushResume (SameTables.refl _)).holders.heldBy.mp held))
  | @exit other running =>
    by_cases registered : other ∈ (s.managers other.nodeID).activeTxns
    · rcases (one.moves_exit running registered).held.mp held with ⟨before,_⟩ | ⟨_,nowhere⟩
      · exact .same before
      · cases nowhere
    · exact .same ((SameHolders.exit running registered).heldBy.mp held)
  | tickBegin => exact .same (heldBy_setTick.mp held)
  | @arrive node msg rest routing migration underWay =>
    have ticked := one.setTick_routing node rest
    rcases (ticked.moves_handleMigrationRequest node underWay).held.mp held with ⟨before,_⟩ | ⟨rfl,arrives⟩
    · exact .same (heldBy_setTick.mp before)
    · cases arrives
      exact .arrived rfl routing migration rfl (List.mem_map_of_mem underWay)
  | ignore => exact .same (heldBy_setTick.mp held)
  | route => exact .same (heldBy_setTick.mp ((SameTables.route _ _ _).holders.heldBy.mp held))
  | snapshot => exact .same (heldBy_setTick.mp held)
  | @process node other rest processing =>
    obtain ⟨ticked,only,started,passed⟩ := one.comesTo processing
    by_cases leaves : ∃ cmd cmds, (s.txns other).yieldCh = cmd :: cmds ∧ cmd.type = .migrateTo
    · obtain ⟨cmd,cmds,queue,migrates⟩ := leaves
      rcases (ticked.moves_migrate only started passed queue migrates).held.mp held with ⟨before,_⟩ | ⟨rfl,goes⟩
      · exact .same (heldBy_setTick.mp before)
      · cases goes
        exact .left cmd (popped_processYields queue) migrates (.inr ⟨node,rest,processing⟩)
    · exact .same (heldBy_setTick.mp ((SameHolders.processYields (s.setTick node (.processing rest)) node other
        (fun queue migrates => leaves ⟨_,_,queue,migrates⟩)).1.heldBy.mp held))
  | snapshotMigrated => exact .same (heldBy_setTick.mp held)
  | @processMigrated node mtxn rest processing entry =>
    obtain ⟨ticked,passed⟩ := one.comesToMigrated processing
    have entryTicked := System.migratedTxns_setTick s node (.processingMigrated rest) ▸ entry
    have channels := one.own_channels entry
    by_cases gone : ∃ cmd cmds, (s.txns mtxn.channels).yieldCh = cmd :: cmds ∧
        (cmd.type = .migrateTo ∨ cmd.type = .complete)
    · obtain ⟨cmd,cmds,queue,type⟩ := gone
      rcases (ticked.moves_processMigratedYields entryTicked passed queue type).held.mp held with ⟨before,_⟩ | ⟨rfl,goes⟩
      · exact .same (heldBy_setTick.mp before)
      · by_cases migrates : cmd.type = .migrateTo
        · rw [if_pos migrates] at goes
          cases goes
          exact .left cmd (popped_processMigratedYields channels queue) migrates (.inl ⟨node,List.mem_map_of_mem entry⟩)
        · rw [if_neg migrates] at goes
          cases goes
    · exact .same (heldBy_setTick.mp ((SameHolders.processMigratedYields (s.setTick node (.processingMigrated rest)) node
        mtxn (fun queue => ⟨fun leaves => gone ⟨_,_,queue,.inl leaves⟩,fun ends => gone ⟨_,_,queue,.inr ends⟩⟩)).1.heldBy.mp
        held))
  | skipMigrated => exact .same (heldBy_setTick.mp held)
  | tickEnd => exact .same ((SameHolders.setTick s _ .idle _).heldBy.mp held)

/-- What is held after a step was held before it, is new, or is the next in a
    Tick's snapshot. -/
theorem held_of_step (one : OneHolder s) (stepped : s.step action = some s') {id : TransactionID}
    (held : Held s' id) : Held s id ∨ (∃ node, action = .start node ∧ id = ⟨node,(s.managers node).nextTxnID⟩) ∨
      ∃ node rest, (s.managers node).tick = .processing (id :: rest) := by
  obtain ⟨h,held⟩ := held
  cases HolderOrigin.of_step one stepped held with
  | same before => exact .inl ⟨h,before⟩
  | started starts new => exact .inr (.inl ⟨_,starts,new⟩)
  | left cmd queue leaves place =>
    rcases place with ⟨node,before⟩ | next
    · exact .inl ⟨_,before⟩
    · exact .inr (.inr next)
  | arrived _ _ _ _ underWay => exact .inl ⟨_,underWay⟩

/-- A transaction that is forgotten is held nowhere. -/
theorem not_held_of_forgets (one : OneHolder s) (stepped : s.step action = some s') {id : TransactionID}
    (forgets : Forgets s action id) : ¬ Held s' id := by
  obtain ⟨node,pending,cmd,cmds,rfl,atId,here,queue,completes⟩ := forgets
  rintro ⟨h,held⟩
  cases System.step_stepped stepped with
  | @processMigrated _ mtxn rest processing entry =>
    cases processing.symm.trans atId
    obtain ⟨ticked,passed⟩ := one.comesToMigrated processing
    have entryTicked := System.migratedTxns_setTick s node (.processingMigrated pending) ▸ entry
    have channels := one.own_channels entry
    have moves := ticked.moves_processMigratedYields entryTicked passed (channels ▸ queue) (.inr completes)
    rcases moves.held.mp held with ⟨before,elsewhere⟩ | ⟨_,nowhere⟩
    · exact elsewhere ⟨rfl,moves.only h before⟩
    · rw [if_neg (by rw [completes]; decide)] at nowhere
      cases nowhere
  | skipMigrated processing absent =>
    cases processing.symm.trans atId
    exact absent here

/-- A command is taken by a Tick that has come to its transaction, in the
    manager's own table or in that of the transactions that migrated to it. -/
theorem taken_of_step (one : OneHolder s) (fresh : Fresh s) (stepped : s.step action = some s') {id : TransactionID}
    (takes : Takes s s' id) :
    (∃ node rest, action = .processNext node ∧ (s.managers node).tick = .processing (id :: rest)) ∨
      ∃ node rest, action = .processMigratedNext node ∧ (s.managers node).tick = .processingMigrated (id :: rest) ∧
        HeldBy s id (.migrated node) := by
  obtain ⟨cmd,queue⟩ := takes
  have shorter : (s'.txns id).yieldCh.length < (s.txns id).yieldCh.length := by
    rw [queue]
    exact Nat.lt_succ_self _
  have same : ¬ (s'.txns id).yieldCh = (s.txns id).yieldCh := by
    intro same
    rw [same] at shorter
    exact Nat.lt_irrefl _ shorter
  have longer : ∀ (other : TransactionID) (cmd : YieldCommand P),
      (s.txns id).yieldCh.length ≤ ((s.pushYield other cmd).txns id).yieldCh.length := by
    intro other cmd
    simp only [System.pushYield,txns_setTxn]
    split
    · next here => simp [here]
    · exact Nat.le_refl _
  cases System.step_stepped stepped with
  | start node =>
    by_cases here : id = ⟨node,(s.managers node).nextTxnID⟩
    · rw [here,fresh _ (one.fresh node (le_refl _))] at queue
      cases queue
    · rw [txns_start s node here] at same
      exact absurd rfl same
  | send => exact absurd shorter (Nat.not_lt.mpr (longer _ _))
  | @yield other cmd =>
    have kept : (((s.pushYield other cmd).setTxn other { (s.pushYield other cmd).txns other with
        phase := .yielding cmd }).txns id).yieldCh = ((s.pushYield other cmd).txns id).yieldCh := yieldCh_setTxn rfl
    rw [kept] at shorter
    exact absurd shorter (Nat.not_lt.mpr (longer _ _))
  | resume => exact (same (yieldCh_setTxn rfl)).elim
  | giveUp => exact (same (yieldCh_setTxn rfl)).elim
  | complete => exact absurd shorter (Nat.not_lt.mpr (longer _ _))
  | completeResult =>
    rw [(SameTables.pushResume (SameTables.refl _)).yieldCh] at shorter
    exact absurd shorter (Nat.not_lt.mpr (longer _ _))
  | exit => exact (same (yieldCh_setTxn rfl)).elim
  | tickBegin => exact absurd rfl same
  | @arrive node msg rest =>
    refine absurd ?_ same
    unfold System.handleMigrationRequest
    split
    · exact (SameTables.pushResume (SameTables.refl _)).yieldCh id
    · rfl
  | ignore => exact absurd rfl same
  | route => exact absurd ((SameTables.route _ _ _).yieldCh id) same
  | snapshot => exact absurd rfl same
  | @process node other rest processing =>
    by_cases here : id = other
    · subst here
      exact .inl ⟨node,rest,rfl,processing⟩
    · rw [yieldCh_processYields,if_neg here] at same
      exact absurd rfl same
  | snapshotMigrated => exact absurd rfl same
  | @processMigrated node mtxn rest processing entry =>
    have channels := one.own_channels entry
    by_cases here : id = mtxn.txnID
    · subst here
      exact .inr ⟨node,rest,rfl,processing,List.mem_map_of_mem entry⟩
    · rw [yieldCh_processMigratedYields,channels,if_neg here] at same
      exact absurd rfl same
  | skipMigrated => exact absurd rfl same
  | tickEnd => exact absurd rfl same

/-! ### Runs -/

theorem Placed.live_before {gone : TransactionID → Prop} (placed : Placed gone s) (stepped : s.step action = some s')
    {id : TransactionID} (started : (s.txns id).phase ≠ .notStarted) (live : s'.live id = true) : s.live id = true := by
  rcases live_of_step stepped id with ⟨node,_,rfl⟩ | returned | same
  · exact absurd (placed.one.fresh node (le_refl _)) started
  · rw [returned] at live
    cases live
  · rwa [same] at live

/-- A running transaction that is held stays held, unless it is forgotten. -/
theorem Placed.held_step {gone : TransactionID → Prop} (placed : Placed gone s) (stepped : s.step action = some s')
    {id : TransactionID} {h : Holder} (held : HeldBy s id h) (live : s'.live id = true)
    (kept : ¬ Forgets s action id) : Held s' id := by
  cases HolderChange.of_step placed.one stepped held with
  | kept held' => exact ⟨_,held'⟩
  | exited ends =>
    subst ends
    cases System.step_stepped stepped
    have ended : ((s.exit id).txns id).phase = .exited := by
      show ((s.setTxn id { s.txns id with phase := .exited }).txns id).phase = .exited
      rw [txns_setTxn,if_pos rfl]
    simp only [System.live,ended] at live
    cases live
  | left _ _ held' => exact ⟨_,held'⟩
  | ended cmd ends processing queue completes =>
    exact absurd ⟨_,_,cmd,_,ends,processing,held,queue,completes⟩ kept
  | arrived held' => exact ⟨_,held'⟩

theorem Placed.step {gone : TransactionID → Prop} (placed : Placed gone s) (stepped : s.step action = some s') :
    Placed (fun id => gone id ∨ Forgets s action id) s' where
  one := placed.one.step stepped
  fresh := placed.fresh.step placed.one stepped
  held := by
    intro id live kept
    rw [not_or] at kept
    rcases live_of_step stepped id with ⟨node,rfl,rfl⟩ | returned | same
    · cases System.step_stepped stepped
      exact ⟨_,(heldBy_start s node).mpr (.inr ⟨rfl,rfl⟩)⟩
    · rw [returned] at live
      cases live
    · obtain ⟨h,held⟩ := placed.held (same ▸ live) kept.1
      exact placed.held_step stepped held live kept.2
  nowhere := by
    rintro id live (gone | forgets)
    · intro held
      have before := placed.live_before stepped (placed.started gone) live
      rcases held_of_step placed.one stepped held with held | ⟨node,_,rfl⟩ | ⟨node,rest,processing⟩
      · exact placed.nowhere before gone held
      · exact placed.started gone (placed.one.fresh node (le_refl _))
      · exact placed.nowhere before gone (placed.pending processing (List.mem_cons_self ..) before)
    · exact not_held_of_forgets placed.one stepped forgets
  started := by
    rintro id (gone | ⟨node,rest,_,_,_,_,held,_⟩) unstarted
    · exact placed.started gone (unstarted_of_step stepped unstarted)
    · exact placed.one.unstarted (unstarted_of_step stepped unstarted) _ held
  pending := by
    intro node pending id processing member live
    have move := TickMove.of_step placed.one stepped node
    rw [processing] at move
    -- what is still to come to was so before, or is in the manager's table
    have held : HeldBy s id (.active node) := by
      generalize tick : (s.managers node).tick = before at move
      have only : ∀ {rest}, (s.managers node).tick = .processing rest → id ∈ rest → HeldBy s id (.active node) := by
        intro rest waits inside
        obtain ⟨started,_,at_home⟩ := (placed.one.processing waits).2 id inside
        obtain ⟨h,held⟩ := placed.pending waits inside (placed.live_before stepped started live)
        exact at_home h held ▸ held
      cases move with
      | stay => exact only tick member
      | snapshot perm => exact perm.mem_iff.mp member
      | processed => exact only tick (List.mem_cons_of_mem _ member)
    apply placed.held_step stepped held live
    rintro ⟨_,_,_,_,_,_,elsewhere,_⟩
    cases placed.one.unique held elsewhere

theorem Placed.run {gone : TransactionID → Prop} : ∀ {actions : List (Action P)} {s t : System P}, Placed gone s →
    runActions System.step (fun _ _ => True) actions s = some t →
    Placed (fun id => gone id ∨ Forgotten (trace System.step s actions) id) t := by
  intro actions
  induction actions generalizing gone with
  | nil =>
    intro s t placed ran
    obtain rfl := Option.some.inj ran
    simpa [trace,Forgotten] using placed
  | cons action rest ih =>
    intro s t placed ran
    rw [runActions,if_pos trivial] at ran
    obtain ⟨s',stepped,ran⟩ := Option.bind_eq_some_iff.mp ran
    have later := ih (placed.step stepped) ran
    have same : ∀ id, ((gone id ∨ Forgets s action id) ∨ Forgotten (trace System.step s' rest) id) ↔
        (gone id ∨ Forgotten (trace System.step s (action :: rest)) id) := by
      intro id
      rw [trace,stepped]
      simp only [Forgotten,List.exists_mem_cons_iff,or_assoc]
    simpa only [same] using later

/-- In every state of every run, a transaction whose function has not returned is
    held in exactly one place, or a manager it migrated to has taken its Complete
    and it is held nowhere; its commands are taken by the manager that holds it. -/
theorem in_one_place {actions : List (Action P)} {s : System P}
    (ran : runActions System.step (fun _ _ => True) actions System.initial = some s) (id : TransactionID)
    (live : s.live id = true) :
    (¬ Forgotten (trace System.step System.initial actions) id → ∃! h, HeldBy s id h) ∧
      (Forgotten (trace System.step System.initial actions) id → ∀ h, ¬ HeldBy s id h) ∧
      ∀ {action s'}, s.step action = some s' → Takes s s' id → ∃ node,
        (action = .processNext node ∧ HeldBy s id (.active node)) ∨
        (action = .processMigratedNext node ∧ HeldBy s id (.migrated node)) := by
  have placed := placed_initial.run ran
  refine ⟨?_,?_,?_⟩
  · intro kept
    obtain ⟨h,held⟩ := placed.held live (by simpa using kept)
    exact ⟨h,held,fun other held' => placed.one.unique held' held⟩
  · intro forgotten h held
    exact placed.nowhere live (.inr forgotten) ⟨h,held⟩
  · intro action s' stepped takes
    rcases taken_of_step placed.one placed.fresh stepped takes with ⟨node,rest,rfl,processing⟩ | ⟨node,_,rfl,_,held⟩
    · obtain ⟨h,held⟩ := placed.pending processing (List.mem_cons_self ..) live
      have home := ((placed.one.processing processing).2 id (List.mem_cons_self ..)).2.2 h held
      exact ⟨node,.inl ⟨rfl,home ▸ held⟩⟩
    · exact ⟨node,.inr ⟨rfl,held⟩⟩

end

/-- A transaction migrates to node 1, and completes there; its function has not
    returned when node 1 takes the Complete. -/
def migrateAndComplete : List (Action Unit) :=
  [.start 0,.yield ⟨0,1⟩ { type := .migrateTo, migrateToNodeID := 1 },
    .tickBegin 0 [],.snapshot 0 [⟨0,1⟩],.processNext 0,.snapshotMigrated 0 [],.tickEnd 0,
    .tickBegin 1 [System.migrationMessage 0 1 ⟨0,1⟩ ⟨0,1⟩],.routeNext 1,.resume ⟨0,1⟩,.complete ⟨0,1⟩ false,
    .snapshot 1 [],.snapshotMigrated 1 [⟨0,1⟩],.processMigratedNext 1]

def migratedAndArrived : System Unit :=
  (runActions System.step (fun _ _ => True) (migrateAndComplete.take 9) System.initial).get (by decide +kernel)

/-- On arrival the transaction has one holder. -/
theorem in_one_place_arrived : ∃! h, HeldBy migratedAndArrived ⟨0,1⟩ h := by
  refine (in_one_place (Option.some_get _).symm ⟨0,1⟩ (by decide +kernel)).1 ?_
  rintro ⟨taken,member,node,_,_,_,here,_⟩
  have listed := action_mem_of_trace member
  rw [here] at listed
  simp [migrateAndComplete] at listed

def completedElsewhere : System Unit :=
  (runActions System.step (fun _ _ => True) migrateAndComplete System.initial).get (by decide +kernel)

/-- The function still runs, and no place holds the transaction. -/
theorem completed_elsewhere_nowhere : ¬ ∀ {s : System Unit}, Reachable System.step System.initial s →
    ∀ id, s.live id = true → ∃! h, HeldBy s id h := by
  intro one_place
  have ran : runActions System.step (fun _ _ => True) migrateAndComplete System.initial = some completedElsewhere :=
    (Option.some_get _).symm
  obtain ⟨h,held,_⟩ := one_place (reaches_runActions migrateAndComplete ran) ⟨0,1⟩ (by decide +kernel)
  cases h with
  | active node =>
    have none : ∀ node, (completedElsewhere.managers node).activeTxns = [] := by
      rintro ((_ | _ | k) | k)
      · decide +kernel
      · decide +kernel
      · rfl
      · rfl
    simp only [HeldBy,none] at held
    exact List.not_mem_nil held
  | migrated node =>
    have none : ∀ node, (completedElsewhere.managers node).migratedTxns = [] := by
      rintro ((_ | _ | k) | k)
      · decide +kernel
      · decide +kernel
      · rfl
      · rfl
    simp only [HeldBy,none] at held
    exact List.not_mem_nil held
  | underWay =>
    have none : completedElsewhere.migrations = [] := by decide +kernel
    simp only [HeldBy,none] at held
    exact List.not_mem_nil held

end FlowSim.Transaction
