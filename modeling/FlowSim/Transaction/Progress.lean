import FlowSim.Transaction.Emission

/-!
Every accepted message is emitted exactly once, in order. This needs a
transaction that is not forgotten while it still has messages queued; the
conditions are those of `Careful`. What is queued is then always served, and in a
run where Ticks and migrations go on it is emitted.
-/
namespace FlowSim.Transaction
open FlowSim.Lib
set_option linter.unusedSimpArgs false

variable {P : Type}

/-! ### Ticks through a step -/

/-- How a step can move the Tick of a node. -/
inductive TickMove (s s' : System P) (place : Int) : TickPhase P → TickPhase P → Prop where
  | stay {tick : TickPhase P} : TickMove s s' place tick tick
  | begun {incoming : List (Message P)} : TickMove s s' place .idle (.routing incoming)
  | routed {msg : Message P} {rest : List (Message P)} : TickMove s s' place (.routing (msg :: rest)) (.routing rest)
  | snapshot {order : List TransactionID} (perm : order.Perm (s.managers place).activeTxns) :
      TickMove s s' place (.routing []) (.processing order)
  | processed {id : TransactionID} {rest : List TransactionID}
      (popped : (s'.txns id).yieldCh = (s.txns id).yieldCh.tail) :
      TickMove s s' place (.processing (id :: rest)) (.processing rest)
  | snapshotMigrated {order : List TransactionID}
      (perm : order.Perm ((s.managers place).migratedTxns.map MigratedTxn.txnID)) :
      TickMove s s' place (.processing []) (.processingMigrated order)
  | processedMigrated {id : TransactionID} {rest : List TransactionID}
      (popped : HeldBy s id (.migrated place) → (s'.txns id).yieldCh = (s.txns id).yieldCh.tail) :
      TickMove s s' place (.processingMigrated (id :: rest)) (.processingMigrated rest)
  | ended : TickMove s s' place (.processingMigrated []) .idle

theorem tick_setTick (s : System P) (node place : Int) (tick : TickPhase P) :
    ((s.setTick node tick).managers place).tick = if place = node then tick else (s.managers place).tick := by
  simp only [System.setTick,managers_setManager]
  split <;> rfl

theorem tick_processYields (s : System P) (node : Int) (id : TransactionID) (place : Int) :
    ((s.processYields node id).managers place).tick = (s.managers place).tick := by
  by_cases leaves : ∃ cmd cmds, (s.txns id).yieldCh = cmd :: cmds ∧ cmd.type = .migrateTo
  · obtain ⟨cmd,cmds,queue,migrates⟩ := leaves
    simp only [System.processYields,queue]
    rw [tables_handleYieldCommand_migrate _ node id cmd migrates,managers_setManager]
    split
    · next here => rw [here]; rfl
    · rfl
  · exact (SameHolders.processYields s node id (fun queue migrates => leaves ⟨_,_,queue,migrates⟩)).2 place

theorem tick_processMigratedYields (s : System P) (node : Int) (mtxn : MigratedTxn) (place : Int) :
    ((s.processMigratedYields node mtxn).managers place).tick = (s.managers place).tick := by
  rcases queue : (s.txns mtxn.channels).yieldCh with _ | ⟨cmd,cmds⟩
  · simp only [System.processMigratedYields,queue]
  · simp only [System.processMigratedYields,queue]
    by_cases leaves : cmd.type = .migrateTo
    · simp only [System.handleMigratedYield,leaves,managers_setManager]
      split
      · next here => rw [here]; rfl
      · rfl
    · by_cases ends : cmd.type = .complete
      · simp only [System.handleMigratedYield,ends,System.emit,managers_setManager]
        split
        · next here => rw [here]; rfl
        · rfl
      · exact (SameTables.handleMigratedYield _ node mtxn cmd leaves ends).tick place

/-- A step of another node's Tick, or of no Tick. -/
theorem TickMove.of_eq {s s' : System P} {place : Int} {tick tick' : TickPhase P} (same : tick' = tick) :
    TickMove s s' place tick tick' :=
  same ▸ .stay

theorem TickMove.of_step [DecidableEq P] {s s' : System P} (one : OneHolder s) {action : Action P}
    (stepped : s.step action = some s') (place : Int) :
    TickMove s s' place (s.managers place).tick (s'.managers place).tick := by
  cases System.step_stepped stepped with
  | start node =>
    refine .of_eq ?_
    rw [managers_start]
    split
    · next here => rw [here]
    · rfl
  | completeResult => exact .of_eq ((SameTables.pushResume (SameTables.refl _)).tick place)
  | exit => exact .of_eq (tick_exit s _ place)
  | @tickBegin node incoming idle =>
    rw [tick_setTick]
    split
    · next here => rw [here,idle]; exact .begun
    · exact .stay
  | @arrive node msg rest routing =>
    have arrived : ((({ s.setTick node (.routing rest) with migrations := s.migrations.erase msg } :
        System P).handleMigrationRequest node msg).managers place).tick =
        ((s.setTick node (.routing rest)).managers place).tick := by
      unfold System.handleMigrationRequest
      split
      · rw [(SameTables.pushResume (SameTables.refl _)).tick,managers_setManager]
        split
        · next here => rw [here]
        · rfl
      · rfl
    rw [arrived,tick_setTick]
    split
    · next here => rw [here,routing]; exact .routed
    · exact .stay
  | @ignore node msg rest routing =>
    rw [tick_setTick]
    split
    · next here => rw [here,routing]; exact .routed
    · exact .stay
  | @route node msg rest routing =>
    rw [(SameTables.route _ node msg).tick,tick_setTick]
    split
    · next here => rw [here,routing]; exact .routed
    · exact .stay
  | @snapshot node order routing perm =>
    rw [tick_setTick]
    split
    · next here => subst here; rw [routing]; exact .snapshot perm
    · exact .stay
  | @process node id rest processing =>
    rw [tick_processYields,tick_setTick]
    split
    · next here =>
      rw [here,processing]
      exact .processed (by rw [yieldCh_processYields,if_pos rfl]; rfl)
    · exact .stay
  | @snapshotMigrated node order processing perm =>
    rw [tick_setTick]
    split
    · next here => subst here; rw [processing]; exact .snapshotMigrated perm
    · exact .stay
  | @processMigrated node mtxn rest processing entry =>
    have channels := one.own_channels entry
    rw [tick_processMigratedYields,tick_setTick]
    split
    · next here =>
      rw [here,processing]
      refine .processedMigrated (fun _ => ?_)
      rw [yieldCh_processMigratedYields,channels,if_pos rfl]
      rfl
    · exact .stay
  | @skipMigrated node id rest processing absent =>
    rw [tick_setTick]
    split
    · next here =>
      rw [here,processing]
      exact .processedMigrated (fun held => absurd held absent)
    · exact .stay
  | @tickEnd node processing =>
    rw [managers_setManager]
    split
    · next here => rw [here,processing]; exact .ended
    · exact .stay
  | _ => exact .stay

/-! ### What a Tick has still to come to -/

/-- The tables of transactions that a Tick goes through, one after the other. -/
inductive Table where
  | active
  | migrated

def Table.phase : Table → List TransactionID → TickPhase P
  | .active => .processing
  | .migrated => .processingMigrated

/-- The Tick of the node goes through the table, and has still to come to the transaction. -/
def Pending (s : System P) (node : Int) (table : Table) (id : TransactionID) : Prop :=
  ∃ pending, (s.managers node).tick = table.phase pending ∧ id ∈ pending

/-- What is still to come stays so, unless its oldest command is handled. -/
theorem Pending.step [DecidableEq P] {s s' : System P} {action : Action P} (one : OneHolder s) (stepped : s.step action = some s')
    {node : Int} {table : Table} {id : TransactionID} (waits : Pending s node table id)
    (queue : (s'.txns id).yieldCh ≠ (s.txns id).yieldCh.tail) : Pending s' node table id := by
  obtain ⟨pending,processing,member⟩ := waits
  have move := TickMove.of_step one stepped node
  unfold Pending
  rw [processing] at move
  generalize after : (s'.managers node).tick = tick at move
  cases table with
  | active =>
    cases move with
    | stay => exact ⟨pending,rfl,member⟩
    | @processed other rest popped =>
      refine ⟨rest,rfl,?_⟩
      rcases List.mem_cons.mp member with here | later
      · exact absurd (here ▸ popped) queue
      · exact later
    | snapshotMigrated => cases member
  | migrated =>
    cases move with
    | stay => exact ⟨pending,rfl,member⟩
    | @processedMigrated other rest popped =>
      refine ⟨rest,rfl,?_⟩
      rcases List.mem_cons.mp member with here | later
      · subst here
        exact absurd (popped ((one.processingMigrated processing).2 _ member)) queue
      · exact later
    | ended => cases member

/-- The Tick does not end before. -/
theorem Pending.not_ending {s : System P} {node : Int} {table : Table} {id : TransactionID} (waits : Pending s node table id) :
    (s.managers node).tick ≠ .processingMigrated [] ∧ (s.managers node).tick ≠ .idle := by
  obtain ⟨pending,processing,member⟩ := waits
  rw [processing]
  cases table with
  | active => exact ⟨by rintro ⟨⟩,by rintro ⟨⟩⟩
  | migrated =>
    refine ⟨?_,by rintro ⟨⟩⟩
    rintro ⟨⟩
    cases member

/-! ### Runs that forget no message -/

/-- Some manager or request holds the transaction. -/
def Held (s : System P) (id : TransactionID) : Prop := ∃ h, HeldBy s id h

/-- The Tick of its node still comes to the transaction, and the command that it
    takes then is the last one with messages, or takes the transaction elsewhere. -/
def Due (s : System P) (id : TransactionID) : Prop :=
  ∃ pending cmd cmds, (s.managers id.nodeID).tick = .processing pending ∧ id ∈ pending ∧
    (s.txns id).yieldCh = cmd :: cmds ∧ (cmd.type = .migrateTo ∨ messages cmds = [])

/-- Messages are given by transactions that are held, and not in the command that
    migrates; a transaction that returns to where it started has no messages
    queued, or is due; and one that completes elsewhere has none queued behind. -/
def Careful (s : System P) : Action P → Prop
  | .send id _ => Held s id
  | .yield id cmd => (cmd.type = .migrateTo → cmd.sendQueue = []) ∧ (cmd.sendQueue ≠ [] → Held s id)
  | .exit id => id ∈ (s.managers id.nodeID).activeTxns → messages (s.txns id).yieldCh = [] ∨ Due s id
  | .processMigratedNext node => ∀ id rest cmd cmds, (s.managers node).tick = .processingMigrated (id :: rest) →
      HeldBy s id (.migrated node) → (s.txns id).yieldCh = cmd :: cmds → cmd.type = .complete → messages cmds = []
  | _ => True

/-- What careful runs keep: every message given is emitted or queued, in order,
    and what is queued belongs to a transaction that is held or due. -/
structure Accounted (s : System P) : Prop where
  one : OneHolder s
  fresh : Fresh s
  plain : ∀ {id cmd}, cmd ∈ (s.txns id).yieldCh → ∀ msg ∈ cmd.sendQueue, msg.isMigration = false
  bare : ∀ {id cmd}, cmd ∈ (s.txns id).yieldCh → cmd.type = .migrateTo → cmd.sendQueue = []
  account : ∀ id, s.issued id = emittedBy s id ++ messages (s.txns id).yieldCh
  served : ∀ {id}, messages (s.txns id).yieldCh ≠ [] → Held s id ∨ Due s id

theorem accounted_initial : Accounted (System.initial : System P) where
  one := oneHolder_initial
  fresh _ _ := rfl
  plain := by intro id cmd queued; cases queued
  bare := by intro id cmd queued; cases queued
  account := by intro id; rfl
  served := by intro id some; exact absurd rfl some

/-- A command that is in order puts all its messages on the outgoing list. -/
theorem Accounted.emission {s : System P} (accounted : Accounted s) {id : TransactionID} {cmd : YieldCommand P}
    (queued : cmd ∈ (s.txns id).yieldCh) : emission cmd = cmd.sendQueue := by
  unfold FlowSim.Transaction.emission
  split
  · next migrates => rw [accounted.bare queued migrates]
  · refine List.filter_eq_self.mpr (fun msg member => ?_)
    rw [accounted.plain queued msg member]
    rfl

section
variable {s s' : System P} {action : Action P}

/-- A command offered with messages comes from a transaction that is held. -/
theorem Careful.held {id : TransactionID} {cmd : YieldCommand P} (careful : Careful s action)
    (offers : Offers action id cmd) (some : cmd.sendQueue ≠ []) : Held s id := by
  cases offers with
  | send => exact careful
  | yield => exact careful.2 some
  | complete => exact absurd rfl some

theorem Careful.bare {id : TransactionID} {cmd : YieldCommand P} (careful : Careful s action)
    (offers : Offers action id cmd) (migrates : cmd.type = .migrateTo) : cmd.sendQueue = [] := by
  cases offers with
  | send => cases migrates
  | yield => exact careful.1 migrates
  | complete => rfl

variable [DecidableEq P]

/-- A transaction that is held stays so, or is due, while messages are queued. -/
theorem Accounted.held_step (accounted : Accounted s) (careful : Careful s action) (stepped : s.step action = some s')
    {id : TransactionID} (held : Held s id) (some : messages (s'.txns id).yieldCh ≠ []) : Held s' id ∨ Due s' id := by
  obtain ⟨h,heldBy⟩ := held
  cases HolderChange.of_step accounted.one stepped heldBy with
  | kept held' => exact .inl ⟨h,held'⟩
  | exited ends =>
    subst ends
    have sameQueue : (s'.txns id).yieldCh = (s.txns id).yieldCh := by
      cases System.step_stepped stepped
      exact yieldCh_setTxn rfl
    rcases careful heldBy with none | ⟨pending,cmd,cmds,processing,member,queue,last⟩
    · exact absurd (sameQueue ▸ none) some
    · refine .inr ⟨pending,cmd,cmds,?_,member,sameQueue.trans queue,last⟩
      cases System.step_stepped stepped
      exact (tick_exit s id _).trans processing
  | left _ _ held' => exact .inl ⟨_,held'⟩
  | ended cmd ends processing queue completes =>
    subst ends
    exact absurd (careful id _ cmd _ processing heldBy queue completes) some
  | arrived held' => exact .inl ⟨_,held'⟩

theorem Accounted.due_step (accounted : Accounted s) (careful : Careful s action) (stepped : s.step action = some s')
    {id : TransactionID} (due : Due s id) (some : messages (s'.txns id).yieldCh ≠ []) : Held s' id ∨ Due s' id := by
  by_cases held : Held s id
  · exact accounted.held_step careful stepped held some
  · obtain ⟨pending,cmd,cmds,processing,member,queue,last⟩ := due
    have waits : Pending s id.nodeID .active id := ⟨pending,processing,member⟩
    cases Traffic.of_step accounted.one accounted.fresh stepped id with
    | accepted new running offers _ queue' =>
      have none : new.sendQueue = [] := by
        by_contra messages_given
        exact held (careful.held offers messages_given)
      obtain ⟨pending',processing',member'⟩ := waits.step accounted.one stepped (by
        rw [queue',queue]
        intro same
        have lengths := congrArg List.length same
        simp at lengths
        omega)
      refine .inr ⟨pending',cmd,cmds ++ [new],processing',member',by rw [queue',queue,List.cons_append],?_⟩
      rcases last with migrates | last
      · exact .inl migrates
      · exact .inr (by rw [messages_append,last,messages_cons,none]; rfl)
    | handled head queue' _ _ moved =>
      rw [queue] at queue'
      obtain ⟨rfl,rest⟩ := List.cons.inj queue'
      rcases last with migrates | last
      · exact .inl ⟨_,moved migrates⟩
      · exact absurd (rest ▸ last) some
    | quiet queue' =>
      obtain ⟨pending',processing',member'⟩ := waits.step accounted.one stepped (by
        rw [queue',queue]
        intro same
        have lengths := congrArg List.length same
        simp at lengths)
      exact .inr ⟨pending',cmd,cmds,processing',member',queue'.trans queue,last⟩

/-- Careful steps keep the account. -/
theorem Accounted.step (accounted : Accounted s) (careful : Careful s action) (stepped : s.step action = some s') :
    Accounted s' := by
  have traffic := fun id => Traffic.of_step accounted.one accounted.fresh stepped id
  refine ⟨accounted.one.step stepped,accounted.fresh.step accounted.one stepped,?_,?_,?_,?_⟩
  · intro id cmd queued
    cases traffic id with
    | accepted new _ _ plain queue =>
      rw [queue] at queued
      rcases List.mem_append.mp queued with old | isNew
      · exact accounted.plain old
      · rw [List.mem_singleton.mp isNew]
        exact plain
    | handled head queue => exact accounted.plain (queue ▸ List.mem_cons_of_mem head queued)
    | quiet queue => exact accounted.plain (queue ▸ queued)
  · intro id cmd queued
    cases traffic id with
    | accepted new _ offers _ queue =>
      rw [queue] at queued
      rcases List.mem_append.mp queued with old | isNew
      · exact accounted.bare old
      · rw [List.mem_singleton.mp isNew]
        exact careful.bare offers
    | handled head queue => exact accounted.bare (queue ▸ List.mem_cons_of_mem head queued)
    | quiet queue => exact accounted.bare (queue ▸ queued)
  · intro id
    cases traffic id with
    | accepted new _ _ _ queue issued emitted =>
      rw [issued,emitted,queue,accounted.account id,messages_append,messages_cons,messages_nil,List.append_nil,
        List.append_assoc]
    | handled head queue issued emitted =>
      rw [issued,emitted,accounted.account id,accounted.emission (queue ▸ List.mem_cons_self ..),queue,messages_cons,
        List.append_assoc]
    | quiet queue issued emitted => rw [issued,emitted,queue,accounted.account id]
  · intro id some
    cases traffic id with
    | accepted new _ offers _ queue =>
      by_cases before : messages (s.txns id).yieldCh = []
      · refine accounted.held_step careful stepped (careful.held offers (fun none => some ?_)) some
        rw [queue,messages_append,before,messages_cons,none]
        rfl
      · rcases accounted.served before with held | due
        · exact accounted.held_step careful stepped held some
        · exact accounted.due_step careful stepped due some
    | handled head queue =>
      have before : messages (s.txns id).yieldCh ≠ [] := by
        rw [queue,messages_cons]
        exact fun none => some (List.append_eq_nil_iff.mp none).2
      rcases accounted.served before with held | due
      · exact accounted.held_step careful stepped held some
      · exact accounted.due_step careful stepped due some
    | quiet queue =>
      rcases accounted.served (queue ▸ some) with held | due
      · exact accounted.held_step careful stepped held some
      · exact accounted.due_step careful stepped due some

theorem accounted_of_reaches (reached : Reaches System.step Careful System.initial s) : Accounted s :=
  reached.invariant accounted_initial (fun _ accounted careful stepped => accounted.step careful stepped)

theorem tick_of_tickEnd {node : Int} (stepped : s.step (.tickEnd node) = some s') :
    (s.managers node).tick = .processingMigrated [] ∧ (s'.managers node).tick = .idle := by
  cases System.step_stepped stepped with
  | tickEnd processing => exact ⟨processing,by rw [managers_setManager,if_pos rfl]⟩

end

/-! ### Endless runs -/

section
variable [DecidableEq P] {ok : System P → Action P → Prop}

/-- The manager of the node is in the middle of a Tick, or holds transactions. -/
def Busy (s : System P) (node : Int) : Prop :=
  (s.managers node).tick ≠ .idle ∨ ∃ id, HeldBy s id (.active node) ∨ HeldBy s id (.migrated node)

/-- A manager that stays busy goes on ticking, and requests arrive. -/
structure Fair (run : Run System.step ok (System.initial : System P)) : Prop where
  ticks : ∀ n node, (∀ m ≥ n, Busy (run.states m) node) → ∃ m ≥ n, run.actions m = .tickEnd node
  arrives : ∀ n id, HeldBy (run.states n) id .underWay → ∃ m ≥ n, ¬ HeldBy (run.states m) id .underWay

variable (run : Run System.step Careful (System.initial : System P))

/-- The commands of a transaction that are still to be handled. -/
def queueAt (id : TransactionID) (n : Nat) : List (YieldCommand P) := ((run.states n).txns id).yieldCh

/-- The step handles the oldest command of the transaction. -/
def HandledAt (id : TransactionID) (n : Nat) : Prop := ∃ cmd, queueAt run id n = cmd :: queueAt run id (n + 1)

/-- The transaction has messages queued, and none of its commands is handled any more. -/
structure Stuck (id : TransactionID) (n : Nat) : Prop where
  some : messages (queueAt run id n) ≠ []
  never : ∀ m ≥ n, ¬ HandledAt run id m

theorem traffic_at (id : TransactionID) (n : Nat) :
    Traffic (run.states n) (run.states (n + 1)) (run.actions n) id :=
  have accounted : Accounted (run.states n) := accounted_of_reaches (run.reaches n)
  Traffic.of_step accounted.one accounted.fresh (run.stepped n) id

variable {run}

theorem Stuck.queued {id : TransactionID} {n : Nat} (stuck : Stuck run id n) : ∀ m ≥ n, messages (queueAt run id m) ≠ [] := by
  refine run.onwards (Q := fun s => messages (s.txns id).yieldCh ≠ []) stuck.some (fun m later some => ?_)
  cases traffic_at run id m with
  | accepted cmd _ _ _ queue =>
    rw [queue,messages_append]
    exact fun none => some (List.append_eq_nil_iff.mp none).1
  | handled cmd queue => exact absurd ⟨cmd,queue⟩ (stuck.never m later)
  | quiet queue => rwa [queue]

theorem Stuck.unhandled {id : TransactionID} {n m : Nat} (stuck : Stuck run id n) (later : m ≥ n) :
    queueAt run id (m + 1) ≠ (queueAt run id m).tail := by
  intro popped
  have some := stuck.queued m later
  rcases queue : queueAt run id m with _ | ⟨cmd,cmds⟩
  · exact some (by rw [queue]; rfl)
  · refine stuck.never m later ⟨cmd,?_⟩
    rw [popped,queue,List.tail_cons]

theorem Stuck.not_pending {id : TransactionID} {n m : Nat} (stuck : Stuck run id n) (fair : Fair run) (later : m ≥ n)
    (table : Table) {node : Int} : ¬ Pending (run.states m) node table id := by
  intro waits
  have waits := run.onwards (Q := fun s => Pending s node table id) waits fun k after waits =>
    waits.step (accounted_of_reaches (run.reaches k)).one (run.stepped k) (stuck.unhandled (le_trans later after))
  obtain ⟨k,after,ends⟩ := fair.ticks m node (fun k after => .inl (waits k after).not_ending.2)
  exact (waits k after).not_ending.1 (tick_of_tickEnd (ends ▸ run.stepped k)).1

theorem Stuck.not_active {id : TransactionID} {n m : Nat} (stuck : Stuck run id n) (fair : Fair run) (later : m ≥ n)
    {node : Int} : ¬ HeldBy (run.states m) id (.active node) := by
  intro held
  have holds := run.onwards (Q := fun s => HeldBy s id (.active node)) (n := m) held (fun k after held => by
    have reached := le_trans later after
    have accounted := accounted_of_reaches (run.reaches k)
    cases HolderChange.of_step accounted.one (run.stepped k) held with
    | kept held => exact held
    | exited ends =>
      have careful := run.allowed k
      rw [ends] at careful
      rcases careful held with none | ⟨pending,_,_,processing,member,_⟩
      · exact absurd none (stuck.queued k reached)
      · exact absurd ⟨pending,processing,member⟩ (stuck.not_pending fair reached .active)
    | left cmd queue => exact absurd ⟨cmd,queue⟩ (stuck.never k reached))
  -- once a Tick has ended, the next cannot get past its snapshot
  obtain ⟨k,after,ends⟩ := fair.ticks m node (fun k after => .inr ⟨id,.inl (holds k after)⟩)
  have early := run.onwards
    (Q := fun s => (s.managers node).tick = .idle ∨ ∃ incoming, (s.managers node).tick = .routing incoming)
    (n := k + 1) (.inl (tick_of_tickEnd (ends ▸ run.stepped k)).2) (fun j beyond early => by
      have reached : j ≥ m := le_trans after (le_trans (Nat.le_succ k) beyond)
      have move := TickMove.of_step (accounted_of_reaches (run.reaches j)).one (run.stepped j) node
      generalize next : ((run.states (j + 1)).managers node).tick = tick at move
      rcases early with idle | ⟨incoming,routing⟩
      · rw [idle] at move
        cases move with
        | stay => exact .inl rfl
        | begun => exact .inr ⟨_,rfl⟩
      · rw [routing] at move
        cases move with
        | stay => exact .inr ⟨_,rfl⟩
        | routed => exact .inr ⟨_,rfl⟩
        | snapshot perm =>
          have passed : j + 1 ≥ n := le_trans later (le_trans reached (Nat.le_succ j))
          exact absurd ⟨_,next,perm.mem_iff.mpr (holds j reached)⟩ (stuck.not_pending fair passed .active))
  obtain ⟨j,beyond,ends'⟩ := fair.ticks (k + 1) node (fun j beyond =>
    .inr ⟨id,.inl (holds j (le_trans after (le_trans (Nat.le_succ k) beyond)))⟩)
  have processing := (tick_of_tickEnd (ends' ▸ run.stepped j)).1
  rcases early j beyond with idle | ⟨incoming,routing⟩
  · cases processing.symm.trans idle
  · cases processing.symm.trans routing

theorem Stuck.not_migrated {id : TransactionID} {n m : Nat} (stuck : Stuck run id n) (fair : Fair run) (later : m ≥ n)
    {node : Int} : ¬ HeldBy (run.states m) id (.migrated node) := by
  intro held
  have holds := run.onwards (Q := fun s => HeldBy s id (.migrated node)) (n := m) held (fun k after held => by
    have reached := le_trans later after
    cases HolderChange.of_step (accounted_of_reaches (run.reaches k)).one (run.stepped k) held with
    | kept held => exact held
    | left cmd queue => exact absurd ⟨cmd,queue⟩ (stuck.never k reached)
    | ended cmd _ _ queue => exact absurd ⟨cmd,queue⟩ (stuck.never k reached))
  obtain ⟨k,after,ends⟩ := fair.ticks m node (fun k after => .inr ⟨id,.inr (holds k after)⟩)
  have early := run.onwards
    (Q := fun s => (s.managers node).tick = .idle ∨ (∃ incoming, (s.managers node).tick = .routing incoming) ∨
      ∃ pending, (s.managers node).tick = .processing pending)
    (n := k + 1) (.inl (tick_of_tickEnd (ends ▸ run.stepped k)).2) (fun j beyond early => by
      have reached : j ≥ m := le_trans after (le_trans (Nat.le_succ k) beyond)
      have move := TickMove.of_step (accounted_of_reaches (run.reaches j)).one (run.stepped j) node
      generalize next : ((run.states (j + 1)).managers node).tick = tick at move
      rcases early with idle | ⟨incoming,routing⟩ | ⟨pending,processing⟩
      · rw [idle] at move
        cases move with
        | stay => exact .inl rfl
        | begun => exact .inr (.inl ⟨_,rfl⟩)
      · rw [routing] at move
        cases move with
        | stay => exact .inr (.inl ⟨_,rfl⟩)
        | routed => exact .inr (.inl ⟨_,rfl⟩)
        | snapshot => exact .inr (.inr ⟨_,rfl⟩)
      · rw [processing] at move
        cases move with
        | stay => exact .inr (.inr ⟨_,rfl⟩)
        | processed => exact .inr (.inr ⟨_,rfl⟩)
        | snapshotMigrated perm =>
          have passed : j + 1 ≥ n := le_trans later (le_trans reached (Nat.le_succ j))
          exact absurd ⟨_,next,perm.mem_iff.mpr (holds j reached)⟩ (stuck.not_pending fair passed .migrated))
  obtain ⟨j,beyond,ends'⟩ := fair.ticks (k + 1) node (fun j beyond =>
    .inr ⟨id,.inr (holds j (le_trans after (le_trans (Nat.le_succ k) beyond)))⟩)
  have processing := (tick_of_tickEnd (ends' ▸ run.stepped j)).1
  rcases early j beyond with idle | ⟨incoming,routing⟩ | ⟨pending,processing'⟩
  · cases processing.symm.trans idle
  · cases processing.symm.trans routing
  · cases processing.symm.trans processing'

theorem Stuck.not_underWay {id : TransactionID} {n m : Nat} (stuck : Stuck run id n) (fair : Fair run) (later : m ≥ n) :
    ¬ HeldBy (run.states m) id .underWay := by
  intro held
  have holds := run.onwards (Q := fun s => HeldBy s id .underWay) (n := m) held (fun k after held => by
    have reached := le_trans later after
    cases HolderChange.of_step (accounted_of_reaches (run.reaches k)).one (run.stepped k) held with
    | kept held => exact held
    | left cmd queue => exact absurd ⟨cmd,queue⟩ (stuck.never k reached)
    | arrived held => exact absurd held (stuck.not_migrated fair (le_trans reached (Nat.le_succ k))))
  obtain ⟨k,after,gone⟩ := fair.arrives m id held
  exact gone (holds k after)

/-- In a fair run no transaction is stuck. -/
theorem not_stuck (fair : Fair run) (id : TransactionID) (n : Nat) : ¬ Stuck run id n := by
  intro stuck
  rcases (accounted_of_reaches (run.reaches n)).served stuck.some with ⟨h,held⟩ | ⟨pending,_,_,processing,member,_⟩
  · cases h with
    | active node => exact stuck.not_active fair (le_refl n) held
    | migrated node => exact stuck.not_migrated fair (le_refl n) held
    | underWay => exact stuck.not_underWay fair (le_refl n) held
  · exact stuck.not_pending fair (le_refl n) .active ⟨pending,processing,member⟩

/-- While messages are queued, the oldest command is handled at some time, for
    the first time. -/
theorem handled_next (fair : Fair run) {id : TransactionID} {n : Nat} (some : messages (queueAt run id n) ≠ []) :
    ∃ m ≥ n, HandledAt run id m ∧ ∀ k ≥ n, k < m → ¬ HandledAt run id k := by
  classical
  have exists_handled : ∃ d, HandledAt run id (n + d) := by
    by_contra never
    refine not_stuck fair id n ⟨some,fun m later handled => never ⟨m - n,?_⟩⟩
    rwa [Nat.add_sub_cancel' later]
  refine ⟨n + Nat.find exists_handled,Nat.le_add_right _ _,Nat.find_spec exists_handled,fun k later before handled => ?_⟩
  refine Nat.find_min exists_handled (m := k - n) (by omega) ?_
  rwa [Nat.add_sub_cancel' later]

/-- Until then the queue grows at its end and nothing is emitted. -/
theorem unhandled_until (id : TransactionID) {n : Nat} : ∀ m ≥ n, (∀ k ≥ n, k < m → ¬ HandledAt run id k) →
    (∃ more, queueAt run id m = queueAt run id n ++ more) ∧
      emittedBy (run.states m) id = emittedBy (run.states n) id := by
  intro m later
  induction m, later using Nat.le_induction with
  | base => exact fun _ => ⟨⟨[],(List.append_nil _).symm⟩,rfl⟩
  | succ m later ih =>
    intro unhandled
    obtain ⟨⟨more,grown⟩,emitted⟩ := ih (fun k reached before => unhandled k reached (Nat.lt_succ_of_lt before))
    cases traffic_at run id m with
    | accepted cmd _ _ _ queue _ emitted' =>
      refine ⟨⟨more ++ [cmd],?_⟩,emitted'.trans emitted⟩
      show ((run.states (m + 1)).txns id).yieldCh = _
      rw [queue,← List.append_assoc,← grown]
      rfl
    | handled cmd queue => exact absurd ⟨cmd,queue⟩ (unhandled m later (Nat.lt_succ_self m))
    | quiet queue _ emitted' => exact ⟨⟨more,queue.trans grown⟩,emitted'.trans emitted⟩

/-- The commands that are queued at some time are handled one after the other. -/
theorem emitted_eventually (fair : Fair run) (id : TransactionID) : ∀ (ahead : List (YieldCommand P)) (n : Nat)
    (behind : List (YieldCommand P)), queueAt run id n = ahead ++ behind →
      ∃ m ≥ n, emittedBy (run.states n) id ++ messages ahead <+: emittedBy (run.states m) id
  | [], n, _, _ => ⟨n,le_refl n,by rw [messages_nil,List.append_nil]⟩
  | cmd :: ahead, n, behind, queue => by
    by_cases none : messages (cmd :: ahead) = []
    · exact ⟨n,le_refl n,by rw [none,List.append_nil]⟩
    · have some : messages (queueAt run id n) ≠ [] := by
        rw [queue,messages_append]
        exact fun empty => none (List.append_eq_nil_iff.mp empty).1
      obtain ⟨m,later,⟨head,handled⟩,first⟩ := handled_next fair some
      obtain ⟨⟨more,grown⟩,emitted⟩ := unhandled_until id m later first
      rw [queue,handled,List.cons_append,List.cons_append] at grown
      obtain ⟨rfl,rest⟩ := List.cons.inj grown
      have emits : emittedBy (run.states (m + 1)) id = emittedBy (run.states n) id ++ head.sendQueue := by
        have accounted := accounted_of_reaches (run.reaches m)
        have shorter : ((run.states m).txns id).yieldCh = head :: ((run.states (m + 1)).txns id).yieldCh := handled
        cases traffic_at run id m with
        | accepted new _ _ _ queue =>
          have lengths := congrArg List.length (shorter.trans (congrArg (head :: ·) queue))
          simp at lengths
          omega
        | handled cmd shrinks _ emitted' =>
          have queued : cmd ∈ ((run.states m).txns id).yieldCh := by
            rw [shrinks]
            exact List.mem_cons_self ..
          obtain ⟨rfl,_⟩ := List.cons.inj (shrinks.symm.trans shorter)
          rw [emitted',emitted,accounted.emission queued]
        | quiet queue =>
          have lengths := congrArg List.length (shorter.trans (congrArg (head :: ·) queue))
          simp at lengths
      obtain ⟨m',later',reached⟩ := emitted_eventually fair id ahead (m + 1) (behind ++ more) (by
        rw [rest,List.append_assoc])
      refine ⟨m',le_trans later (le_trans (Nat.le_succ m) later'),?_⟩
      rwa [emits,List.append_assoc,← messages_cons] at reached

end

/-- In careful runs the messages that a transaction was allowed to give are the
    ones that Ticks have emitted, in order and each once, followed by those still
    queued; and as Ticks and migrations go on, each is emitted. -/
theorem messages_emitted_once [DecidableEq P] :
    (∀ {s : System P}, Reaches System.step Careful System.initial s →
      ∀ id, s.issued id = emittedBy s id ++ messages (s.txns id).yieldCh) ∧
    ∀ run : Run System.step Careful (System.initial : System P), Fair run →
      ∀ id n, ∃ m ≥ n, (run.states n).issued id <+: emittedBy (run.states m) id := by
  refine ⟨fun reached => (accounted_of_reaches reached).account,fun run fair id n => ?_⟩
  obtain ⟨m,later,reached⟩ := emitted_eventually fair id (queueAt run id n) n [] (List.append_nil _).symm
  refine ⟨m,later,?_⟩
  rw [(accounted_of_reaches (run.reaches n)).account id]
  exact reached

/-! ### Idle Ticks -/

/-- No manager is in a Tick or holds a transaction, and no request is under way. -/
structure Quiet (s : System P) : Prop where
  idle : ∀ node, (s.managers node).tick = .idle
  active : ∀ node, (s.managers node).activeTxns = []
  migrated : ∀ node, (s.managers node).migratedTxns = []
  migrations : s.migrations = []

/-- The phases of a Tick with nothing to do, in turn. -/
def idleTick (n : Nat) : TickPhase P :=
  match n % 4 with
  | 0 => .idle
  | 1 => .routing []
  | 2 => .processing []
  | _ => .processingMigrated []

def idleAction (n : Nat) : Action P :=
  match n % 4 with
  | 0 => .tickBegin 0 []
  | 1 => .snapshot 0 []
  | 2 => .snapshotMigrated 0 []
  | _ => .tickEnd 0

def idleState (s : System P) (n : Nat) : System P :=
  s.setManager 0 { s.managers 0 with tick := idleTick n, ticks := (s.managers 0).ticks + n / 4 }

theorem idleState_stepped [DecidableEq P] {s : System P} (quiet : Quiet s) (n : Nat) :
    (idleState s n).step (idleAction n) = some (idleState s (n + 1)) := by
  have manager : (idleState s n).managers 0 =
      { s.managers 0 with tick := idleTick n, ticks := (s.managers 0).ticks + n / 4 } := by
    rw [idleState,managers_setManager,if_pos rfl]
  have put : ∀ tm : TxnManager P, (idleState s n).setManager 0 tm = s.setManager 0 tm := by
    intro tm
    simp [idleState,System.setManager]
  have active := quiet.active 0
  have migrated := quiet.migrated 0
  have phase : n % 4 = 0 ∨ n % 4 = 1 ∨ n % 4 = 2 ∨ n % 4 = 3 := by omega
  rcases phase with phase | phase | phase | phase
  all_goals
    have next : (n + 1) % 4 = (n % 4 + 1) % 4 := by omega
    rw [phase] at next
    simp only [idleAction,phase,System.step,manager,idleTick,System.setTick,put]
    simp only [idleState,idleTick,next,active,migrated,List.map_nil,List.Perm.refl,if_true]
    congr 3
    omega

theorem idleState_quiet {s : System P} (quiet : Quiet s) (n : Nat) : Quiet (idleState s (4 * n)) := by
  have phase : 4 * n % 4 = 0 := Nat.mul_mod_right 4 n
  constructor
  · intro node
    rw [idleState,managers_setManager]
    split
    · simp [idleTick,phase]
    · exact quiet.idle node
  · intro node
    rw [idleState,managers_setManager]
    split
    · exact quiet.active 0
    · exact quiet.active node
  · intro node
    rw [idleState,managers_setManager]
    split
    · exact quiet.migrated 0
    · exact quiet.migrated node
  · exact quiet.migrations

/-- From a quiet state on, idle Ticks make a fair run. -/
theorem exists_fair_run [DecidableEq P] {ok : System P → Action P → Prop} {s : System P} (quiet : Quiet s)
    (reached : Reaches System.step ok System.initial s) (idle : ∀ s n, ok s (idleAction n)) :
    ∃ (run : Run System.step ok System.initial) (d : Nat), Fair run ∧
      ∀ n ≥ d, (run.states n).issued = s.issued ∧ (run.states n).emitted = s.emitted := by
  have start : idleState s 0 = s := by
    have manager : ({ s.managers 0 with tick := idleTick 0, ticks := (s.managers 0).ticks + 0 / 4 } : TxnManager P) =
        s.managers 0 := by
      have at_idle : (idleTick 0 : TickPhase P) = (s.managers 0).tick := (quiet.idle 0).symm
      rw [at_idle]
      rfl
    rw [idleState,manager,System.setManager,Function.update_eq_self]
  obtain ⟨run,d,same⟩ := reached.endless
    ⟨idleState s,idleAction,start,fun n => idle _ n,idleState_stepped quiet⟩
  have later : ∀ n, Quiet (run.states (4 * n + d)) := fun n => same (4 * n) ▸ idleState_quiet quiet n
  refine ⟨run,d,⟨?_,?_⟩,?_⟩
  · intro n node busy
    have quiet := later n
    rcases busy (4 * n + d) (by omega) with ticking | ⟨id,active | migrated⟩
    · exact absurd (quiet.idle node) ticking
    · rw [HeldBy,quiet.active] at active
      cases active
    · rw [HeldBy,quiet.migrated] at migrated
      cases migrated
  · intro n id _
    refine ⟨4 * n + d,by omega,fun held => ?_⟩
    rw [HeldBy,(later n).migrations] at held
    cases held
  · intro n reached
    obtain ⟨k,rfl⟩ := Nat.exists_eq_add_of_le' reached
    rw [same]
    exact ⟨rfl,rfl⟩

/-- A transaction sends a message and returns right away. -/
def sendAndReturn : List (Action Unit) := [.start 0,.send ⟨0,1⟩ ⟨⟨0,0⟩,100,0,1,.none⟩,.exit ⟨0,1⟩]

def returned : System Unit :=
  (runActions System.step (fun _ _ => True) sendAndReturn System.initial).get (by decide +kernel)

theorem returned_quiet : Quiet returned where
  idle := by rintro ((_ | k) | k) <;> rfl
  active := by rintro ((_ | k) | k) <;> rfl
  migrated := by rintro ((_ | k) | k) <;> rfl
  migrations := rfl

/-- Its manager forgets it, and the message is never emitted. -/
theorem returned_message_lost : ¬ ∀ run : Run System.step (fun _ _ => True) (System.initial : System Unit), Fair run →
    ∀ id n, ∃ m ≥ n, (run.states n).issued id <+: emittedBy (run.states m) id := by
  intro emits
  have ran : runActions System.step (fun _ _ => True) sendAndReturn System.initial = some returned :=
    (Option.some_get _).symm
  obtain ⟨run,d,fair,after⟩ := exists_fair_run returned_quiet (reaches_runActions sendAndReturn ran) (fun _ _ => trivial)
  obtain ⟨m,later,found⟩ := emits run fair ⟨0,1⟩ d
  have issued : returned.issued ⟨0,1⟩ = [⟨⟨0,1⟩,100,0,1,.none⟩] := by decide +kernel
  have emitted : emittedBy (run.states m) ⟨0,1⟩ = [] := by
    rw [emittedBy,(after m later).2]
    rfl
  rw [(after d (le_refl d)).1,issued,emitted] at found
  exact absurd found (by decide)

/-- A step that is careful for a simple reason. -/
def simplyCareful (s : System P) : Action P → Bool
  | .send id _ => id ∈ (s.managers id.nodeID).activeTxns
  | .exit id => (s.txns id).yieldCh.isEmpty
  | .yield _ _ => false
  | .processMigratedNext _ => false
  | _ => true

theorem careful_of_simply {s : System P} {action : Action P} (simply : simplyCareful s action = true) :
    Careful s action := by
  cases action with
  | send id msg =>
    have registered : id ∈ (s.managers id.nodeID).activeTxns := of_decide_eq_true simply
    exact ⟨.active id.nodeID,registered⟩
  | exit id =>
    intro _
    rw [List.isEmpty_iff.mp simply]
    exact .inl rfl
  | yield id cmd => cases simply
  | processMigratedNext node => cases simply
  | _ => trivial

/-- The transaction returns after the Tick that handles its command. -/
def sendAndTick : List (Action Unit) :=
  [.start 0,.send ⟨0,1⟩ ⟨⟨0,0⟩,100,0,1,.none⟩,.tickBegin 0 [],.snapshot 0 [⟨0,1⟩],.processNext 0,.snapshotMigrated 0 [],
    .tickEnd 0,.exit ⟨0,1⟩]

def ticked : System Unit :=
  (runActions System.step (fun s action => simplyCareful s action = true) sendAndTick System.initial).get
    (by decide +kernel)

theorem ticked_quiet : Quiet ticked where
  idle := by rintro ((_ | k) | k) <;> rfl
  active := by rintro ((_ | k) | k) <;> rfl
  migrated := by rintro ((_ | k) | k) <;> rfl
  migrations := rfl

theorem ticked_message_emitted : ∃ run : Run System.step Careful (System.initial : System Unit), Fair run ∧
    ∃ m, [(⟨⟨0,1⟩,100,0,1,.none⟩ : Message Unit)] <+: emittedBy (run.states m) ⟨0,1⟩ := by
  have ran : runActions System.step (fun s action => simplyCareful s action = true) sendAndTick System.initial =
      some ticked := (Option.some_get _).symm
  have reached := (reaches_runActions sendAndTick ran).mono (fun _ _ simply => careful_of_simply simply)
  obtain ⟨run,d,fair,after⟩ := exists_fair_run ticked_quiet reached (fun s n => by
    unfold idleAction
    split <;> trivial)
  obtain ⟨m,_,emitted⟩ := messages_emitted_once.2 run fair ⟨0,1⟩ d
  have issued : ticked.issued ⟨0,1⟩ = [⟨⟨0,1⟩,100,0,1,.none⟩] := by decide +kernel
  rw [(after d (le_refl d)).1,issued] at emitted
  exact ⟨run,fair,m,emitted⟩

end FlowSim.Transaction
