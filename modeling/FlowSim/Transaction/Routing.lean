import FlowSim.Transaction.Holders

/-!
Which transactions a message resumes. `routeMessage` goes by the type of the
message and by the nodes it goes between, and resumes every transaction at the
node whose registered wait fits; so a message reaches its own transaction alone
exactly when no other registered wait at the node fits it.
-/
namespace FlowSim.Transaction
open FlowSim.Lib
set_option linter.unusedSimpArgs false

variable {P : Type}

/-! ### What routing adds to the resume channels -/

theorem resumeCh_setManager (s : System P) (node : Int) (tm : TxnManager P) (id : TransactionID) :
    ((s.setManager node tm).txns id).resumeCh = (s.txns id).resumeCh := rfl

theorem resumeCh_pushResume (s : System P) (target id : TransactionID) (value : ResumeValue P) :
    ((s.pushResume target value).txns id).resumeCh = (s.txns id).resumeCh ++
      if id = target ∧ (s.txns id).resumeCh.length < yieldCapacity then [value] else [] := by
  unfold System.pushResume
  by_cases here : id = target
  · subst here
    split <;> simp [txns_setTxn, *]
  · split <;> simp [txns_setTxn,here]

theorem resumeCh_resumeLocal (node : Int) (msg : Message P) (s : System P) (target id : TransactionID) :
    ((System.resumeLocal node msg s target).txns id).resumeCh = (s.txns id).resumeCh ++
      if id = target ∧ (s.txns id).resumeCh.length < yieldCapacity then [.message msg] else [] := by
  unfold System.resumeLocal
  by_cases here : id = target
  · subst here
    split <;> simp [resumeCh_setManager,txns_setTxn, *]
  · split <;> simp [resumeCh_setManager,txns_setTxn,here]

theorem resumeCh_resumeMigrated (node : Int) (msg : Message P) (s : System P) (mtxn : MigratedTxn)
    (id : TransactionID) : ((System.resumeMigrated node msg s mtxn).txns id).resumeCh = (s.txns id).resumeCh ++
      if id = mtxn.channels ∧ (s.txns id).resumeCh.length < yieldCapacity then [.message msg] else [] := by
  unfold System.resumeMigrated
  split
  · rw [resumeCh_setManager,resumeCh_pushResume]
  · next full =>
    split
    · next room => exact absurd (room.1 ▸ room.2) full
    · simp

/-- Over a list of different transactions, each is resumed once if it has room. -/
theorem resumeCh_foldl {β : Type} {f : System P → β → System P} {target : β → TransactionID} {value : ResumeValue P}
    (one : ∀ s item id, ((f s item).txns id).resumeCh = (s.txns id).resumeCh ++
      if id = target item ∧ (s.txns id).resumeCh.length < yieldCapacity then [value] else []) :
    ∀ (items : List β) (s : System P), (items.map target).Nodup → ∀ id,
      ((items.foldl f s).txns id).resumeCh = (s.txns id).resumeCh ++
        if id ∈ items.map target ∧ (s.txns id).resumeCh.length < yieldCapacity then [value] else []
  | [], s, _, id => by simp
  | item :: rest, s, distinct, id => by
    obtain ⟨fresh,restDistinct⟩ := List.nodup_cons.mp distinct
    rw [List.foldl_cons,resumeCh_foldl one rest _ restDistinct id,one]
    by_cases here : id = target item
    · -- once resumed, it is not met again
      subst here
      simp [fresh]
    · simp [here]

theorem migratedTxns_resumeLocal (node : Int) (msg : Message P) (s : System P) (id : TransactionID) (place : Int) :
    ((System.resumeLocal node msg s id).managers place).migratedTxns = (s.managers place).migratedTxns := by
  unfold System.resumeLocal
  split
  · simp only [managers_setManager]
    split
    · next here => rw [here]; rfl
    · rfl
  · rfl

theorem migratedTxns_resumeLocals (node : Int) (msg : Message P) : ∀ (ids : List TransactionID) (s : System P) (place : Int),
    ((ids.foldl (System.resumeLocal node msg) s).managers place).migratedTxns = (s.managers place).migratedTxns
  | [], _, _ => rfl
  | id :: rest, s, place => by
    rw [List.foldl_cons,migratedTxns_resumeLocals node msg rest,migratedTxns_resumeLocal]

/-- A transaction that a manager started has not migrated to the same manager. -/
theorem OneHolder.matching_apart {s : System P} (one : OneHolder s) {node : Int} {msg : Message P}
    {id : TransactionID} (here : id ∈ s.matchingTxns node msg) :
    id ∉ (s.matchingMigrated node msg).map MigratedTxn.channels := by
  intro migrated
  obtain ⟨mtxn,isMatch,rfl⟩ := List.mem_map.mp migrated
  have entry := List.mem_of_mem_filter isMatch
  have channels := one.own_channels entry
  have heldMigrated : HeldBy s mtxn.txnID (.migrated node) := List.mem_map_of_mem entry
  have heldActive : HeldBy s mtxn.txnID (.active node) := channels ▸ List.mem_of_mem_filter here
  cases one.unique heldActive heldMigrated

/-- What routing a message at a node adds to the channel of a transaction. -/
theorem OneHolder.resumeCh_routeMessage {s : System P} (one : OneHolder s) (node : Int) (msg : Message P)
    (id : TransactionID) : ((s.routeMessage node msg).txns id).resumeCh = (s.txns id).resumeCh ++
      if s.resumes node msg id then [.message msg] else [] := by
  have localDistinct : ((s.matchingTxns node msg).map fun other => other).Nodup := by
    rw [List.map_id']
    exact (one.active_nodup node).sublist List.filter_sublist
  have locals := resumeCh_foldl (resumeCh_resumeLocal node msg) _ s localDistinct
  rw [List.map_id'] at locals
  have sameMigrated : ((s.matchingTxns node msg).foldl (System.resumeLocal node msg) s).matchingMigrated node msg =
      s.matchingMigrated node msg := by
    simp only [System.matchingMigrated,migratedTxns_resumeLocals]
  have migratedDistinct : ((s.matchingMigrated node msg).map MigratedTxn.channels).Nodup := by
    have keys : (s.matchingMigrated node msg).map MigratedTxn.channels =
        (s.matchingMigrated node msg).map MigratedTxn.txnID := by
      refine List.map_congr_left (fun mtxn isMatch => ?_)
      exact one.own_channels (List.mem_of_mem_filter isMatch)
    rw [keys]
    exact (one.migrated_nodup node).sublist (List.filter_sublist.map _)
  have migrated := resumeCh_foldl (resumeCh_resumeMigrated node msg) (s.matchingMigrated node msg)
    ((s.matchingTxns node msg).foldl (System.resumeLocal node msg) s) migratedDistinct
  unfold System.routeMessage
  simp only [sameMigrated,migrated,locals]
  have any_iff : (s.matchingMigrated node msg).any (fun mtxn => decide (mtxn.channels = id)) = true ↔
      id ∈ (s.matchingMigrated node msg).map MigratedTxn.channels := by
    simp
  simp only [System.resumes,Bool.and_eq_true,Bool.or_eq_true,decide_eq_true_eq,any_iff]
  by_cases here : id ∈ s.matchingTxns node msg
  · simp [here,one.matching_apart here]
  · have noLocal : ¬(id ∈ s.matchingTxns node msg ∧ (s.txns id).resumeCh.length < yieldCapacity) := fun both => here both.1
    rw [if_neg noLocal,List.append_nil]
    simp only [here,false_or]
    congr 1
    exact if_congr and_comm rfl rfl

/-! ### Waits -/

/-- The payload of the message carries the address, which `addrOf` reads from
    the payloads of the protocol. -/
def Message.Carries (addrOf : P → Option String) (msg : Message P) (addr : String) : Prop :=
  match msg.payload with
  | .value p => addrOf p = some addr
  | _ => False

/-- The transaction is registered at the node with the wait, where it started or
    where it migrated to. -/
def Waits (s : System P) (node : Int) (id : TransactionID) (wait : WaitForMessage) : Prop :=
  (id ∈ (s.managers node).activeTxns ∧ (s.txns id).waiting = some wait) ∨
    ∃ mtxn ∈ (s.managers node).migratedTxns, mtxn.channels = id ∧ mtxn.waiting = some wait

/-- Under way or migrated elsewhere, a transaction has no wait at the node. -/
theorem Waits.heldBy {s : System P} (one : OneHolder s) {node : Int} {id : TransactionID} {wait : WaitForMessage}
    (waits : Waits s node id wait) : HeldBy s id (.active node) ∨ HeldBy s id (.migrated node) := by
  rcases waits with ⟨active,_⟩ | ⟨mtxn,entry,rfl,_⟩
  · exact .inl active
  · have channels := one.own_channels entry
    exact .inr (channels ▸ List.mem_map_of_mem entry)

theorem Waits.unique {s : System P} (one : OneHolder s) {node : Int} {id : TransactionID} {wait wait' : WaitForMessage}
    (waits : Waits s node id wait) (waits' : Waits s node id wait') : wait = wait' := by
  rcases waits with ⟨active,waiting⟩ | ⟨mtxn,entry,rfl,waiting⟩
  · rcases waits' with ⟨_,waiting'⟩ | ⟨mtxn,entry,rfl,_⟩
    · exact Option.some.inj (waiting.symm.trans waiting')
    · have heldMigrated : HeldBy s mtxn.channels (.migrated node) := one.own_channels entry ▸ List.mem_map_of_mem entry
      have heldActive : HeldBy s mtxn.channels (.active node) := active
      cases one.unique heldActive heldMigrated
  · rcases waits' with ⟨active,_⟩ | ⟨mtxn',entry',same_channels,waiting'⟩
    · have heldMigrated : HeldBy s mtxn.channels (.migrated node) := one.own_channels entry ▸ List.mem_map_of_mem entry
      have heldActive : HeldBy s mtxn.channels (.active node) := active
      cases one.unique heldActive heldMigrated
    · have ids : mtxn'.txnID = mtxn.txnID := by rw [← one.own_channels entry,← one.own_channels entry',same_channels]
      obtain rfl := List.inj_on_of_nodup_map (one.migrated_nodup node) entry' entry ids
      exact Option.some.inj (waiting.symm.trans waiting')

/-- Routing resumes the transactions that wait for such a message and have room. -/
theorem resumes_iff {s : System P} {node : Int} {msg : Message P} {id : TransactionID} :
    s.resumes node msg id = true ↔ (s.txns id).resumeCh.length < yieldCapacity ∧
      ∃ wait, Waits s node id wait ∧ matchesWait msg wait = true := by
  simp only [System.resumes,Bool.and_eq_true,Bool.or_eq_true,decide_eq_true_eq,List.any_eq_true,System.matchingTxns,
    System.matchingMigrated,List.mem_filter,Option.any_eq_true]
  refine and_congr_right (fun _ => ⟨?_,?_⟩)
  · rintro (⟨active,wait,waiting,fits⟩ | ⟨mtxn,⟨entry,wait,waiting,fits⟩,channels⟩)
    · exact ⟨wait,.inl ⟨active,waiting⟩,fits⟩
    · exact ⟨wait,.inr ⟨mtxn,entry,channels,waiting⟩,fits⟩
  · rintro ⟨wait,⟨active,waiting⟩ | ⟨mtxn,entry,channels,waiting⟩,fits⟩
    · exact .inl ⟨active,wait,waiting,fits⟩
    · exact .inr ⟨mtxn,⟨entry,wait,waiting,fits⟩,channels⟩

/-! ### Messages and their own transactions -/

/-- The message that the Tick of the node routes next. -/
def NextMessage (s : System P) (node : Int) (msg : Message P) : Prop :=
  ∃ rest, (s.managers node).tick = .routing (msg :: rest)

/-- The step put something on the transaction's resume channel. -/
def Resumed (s s' : System P) (id : TransactionID) : Prop := (s'.txns id).resumeCh ≠ (s.txns id).resumeCh

/-- In the step that handles the message, no transaction is resumed but the one
    whose id it carries, and with the address that this one waits for. -/
structure ReachesOwn (addrOf : P → Option String) (node : Int) (msg : Message P) (s s' : System P) : Prop where
  own : ∀ {id}, Resumed s s' id → id = msg.transactionID
  addressed : ∀ {id wait}, Resumed s s' id → Waits s node id wait → wait.addr ≠ "" → msg.Carries addrOf wait.addr
  once : ∀ {id id'}, Resumed s s' id → Resumed s s' id' → id = id'

/-- No message that takes a transaction to another node. -/
def Message.IsResponse (msg : Message P) : Prop := msg.isMigration = false ∧ msg.type ≠ msgTypeMigrationRequest

/-- Of the waits at the node that fit the message by its type and its nodes,
    there is none but that of its own transaction, for the address it carries. -/
def OnlyOwnWaits (addrOf : P → Option String) (node : Int) (msg : Message P) (s : System P) : Prop :=
  ∀ {id wait}, Waits s node id wait → matchesWait msg wait = true → (s.txns id).resumeCh.length < yieldCapacity →
    id = msg.transactionID ∧ (wait.addr ≠ "" → msg.Carries addrOf wait.addr)

theorem resumeCh_setTick (s : System P) (node : Int) (tick : TickPhase P) (id : TransactionID) :
    ((s.setTick node tick).txns id).resumeCh = (s.txns id).resumeCh := rfl

theorem resumes_setTick (s : System P) (node : Int) (tick : TickPhase P) (place : Int) (msg : Message P)
    (id : TransactionID) : (s.setTick node tick).resumes place msg id = s.resumes place msg id := by
  have active : ((s.setTick node tick).managers place).activeTxns = (s.managers place).activeTxns := by
    simp only [System.setTick,managers_setManager]
    split
    · next here => rw [here]
    · rfl
  have migrated : ((s.setTick node tick).managers place).migratedTxns = (s.managers place).migratedTxns := by
    simp only [System.setTick,managers_setManager]
    split
    · next here => rw [here]
    · rfl
  simp only [System.resumes,System.matchingTxns,System.matchingMigrated,active,migrated]
  rfl

theorem txns_route (s : System P) (node : Int) (msg : Message P) : (s.route node msg).txns = (s.routeMessage node msg).txns := by
  unfold System.route
  dsimp only
  split <;> rfl

variable [DecidableEq P]

/-- What the step that routes a response adds to the channel of a transaction. -/
theorem OneHolder.resumeCh_step {s s' : System P} (one : OneHolder s) {node : Int} {msg : Message P}
    (next : NextMessage s node msg) (response : msg.IsResponse) (stepped : s.step (.routeNext node) = some s')
    (id : TransactionID) : (s'.txns id).resumeCh = (s.txns id).resumeCh ++
      if s.resumes node msg id then [.message msg] else [] := by
  obtain ⟨rest,at_routing⟩ := next
  simp only [System.step,System.routeNext,at_routing,response.1,Bool.false_eq_true,if_false,response.2,
    Option.some.injEq] at stepped
  subst stepped
  have ticked := one.setTick_routing node rest
  rw [txns_route,ticked.resumeCh_routeMessage,resumes_setTick,resumeCh_setTick]

/-- Routing a response resumes the transactions with a wait for it. -/
theorem OneHolder.resumed_iff {s s' : System P} (one : OneHolder s) {node : Int} {msg : Message P}
    (next : NextMessage s node msg) (response : msg.IsResponse) (stepped : s.step (.routeNext node) = some s')
    {id : TransactionID} : Resumed s s' id ↔ s.resumes node msg id = true := by
  unfold Resumed
  rw [one.resumeCh_step next response stepped]
  split <;> simp [*]

/-- A migration request resumes only the transaction that is under way in it. -/
theorem OneHolder.resumed_request {s s' : System P} (one : OneHolder s) {node : Int} {msg : Message P}
    (next : NextMessage s node msg) (request : ¬ msg.IsResponse) (stepped : s.step (.routeNext node) = some s')
    {id : TransactionID} (resumed : Resumed s s' id) : id = msg.transactionID ∧ HeldBy s id .underWay := by
  obtain ⟨rest,at_routing⟩ := next
  simp only [System.step,System.routeNext,at_routing] at stepped
  by_cases migration : msg.isMigration = true
  · simp only [migration,if_true,Option.ite_none_right_eq_some,Option.some.injEq] at stepped
    obtain ⟨⟨member,_⟩,rfl⟩ := stepped
    have underWay : msg ∈ s.migrations := member
    simp only [Resumed,System.handleMigrationRequest,one.migrations_shape msg underWay,resumeCh_pushResume,
      resumeCh_setManager] at resumed
    have here : id = msg.transactionID := by
      by_contra different
      exact resumed (by simp [different]; rfl)
    exact ⟨here,here ▸ List.mem_map_of_mem underWay⟩
  · have ordinary : msg.isMigration = false := Bool.eq_false_iff.mpr migration
    have kind : msg.type = msgTypeMigrationRequest := by
      by_contra other
      exact request ⟨ordinary,other⟩
    simp only [ordinary,Bool.false_eq_true,if_false,kind,if_true,Option.some.injEq] at stepped
    subst stepped
    refine absurd ?_ resumed
    unfold System.handleMigrationRequest
    split
    · next payload => simp [Message.isMigration,payload] at ordinary
    · rfl

/-- The step that handles a message reaches its own transaction alone exactly
    when no other wait fits it. -/
theorem OneHolder.reachesOwn_iff {s s' : System P} (one : OneHolder s) (addrOf : P → Option String) {node : Int}
    {msg : Message P} (next : NextMessage s node msg) (stepped : s.step (.routeNext node) = some s') :
    ReachesOwn addrOf node msg s s' ↔ (msg.IsResponse → OnlyOwnWaits addrOf node msg s) := by
  constructor
  · intro reaches response id wait waits fits room
    have resumed := (one.resumed_iff next response stepped).mpr (resumes_iff.mpr ⟨room,wait,waits,fits⟩)
    exact ⟨reaches.own resumed,reaches.addressed resumed waits⟩
  · intro only
    by_cases response : msg.IsResponse
    · have owned : ∀ {id}, Resumed s s' id → ∃ wait, Waits s node id wait ∧ id = msg.transactionID ∧
          (wait.addr ≠ "" → msg.Carries addrOf wait.addr) := by
        intro id resumed
        obtain ⟨room,wait,waits,fits⟩ := resumes_iff.mp ((one.resumed_iff next response stepped).mp resumed)
        exact ⟨wait,waits,only response waits fits room⟩
      constructor
      · intro id resumed
        exact (owned resumed).choose_spec.2.1
      · intro id wait resumed waits
        obtain ⟨wait',waits',_,carried⟩ := owned resumed
        rw [waits.unique one waits']
        exact carried
      · intro id id' resumed resumed'
        exact (owned resumed).choose_spec.2.1.trans (owned resumed').choose_spec.2.1.symm
    · -- a migration request resumes the transaction that is under way in it
      have owned : ∀ {id}, Resumed s s' id → id = msg.transactionID ∧ HeldBy s id .underWay :=
        one.resumed_request next response stepped
      constructor
      · exact fun resumed => (owned resumed).1
      · intro id wait resumed waits
        have underWay := (owned resumed).2
        rcases waits.heldBy one with here | here
        · cases one.unique here underWay
        · cases one.unique here underWay
      · intro id id' resumed resumed'
        exact (owned resumed).1.trans (owned resumed').1.symm

/-- Responses reach their own transactions throughout a run exactly when, at
    each response that a Tick comes to, no wait of another transaction or for
    another address fits it. -/
theorem responses_reach_own_iff (addrOf : P → Option String) (actions : List (Action P)) :
    (∀ {s s' node msg}, (s,.routeNext node,s') ∈ trace System.step System.initial actions →
        NextMessage s node msg → ReachesOwn addrOf node msg s s') ↔
      ∀ {s s' node msg}, (s,.routeNext node,s') ∈ trace System.step System.initial actions →
        NextMessage s node msg → msg.IsResponse → OnlyOwnWaits addrOf node msg s := by
  constructor
  · intro reaches s s' node msg taken next
    obtain ⟨reached,stepped⟩ := trace_reachable .refl taken
    exact ((oneHolder_of_reaches reached).reachesOwn_iff addrOf next stepped).mp (reaches taken next)
  · intro only s s' node msg taken next
    obtain ⟨reached,stepped⟩ := trace_reachable .refl taken
    exact ((oneHolder_of_reaches reached).reachesOwn_iff addrOf next stepped).mpr (only taken next)

/-- Two transactions of a node wait for a response of the same type, for different
    addresses, when the response of the first arrives. -/
def twoWaits : List (Action String) :=
  [.start 0,.start 0,
    .yield ⟨0,1⟩ { type := .waitForMessage, waitFor := some { type := 101, addr := "A" } },
    .yield ⟨0,2⟩ { type := .waitForMessage, waitFor := some { type := 101, addr := "B" } },
    .tickBegin 0 [],.snapshot 0 [⟨0,1⟩,⟨0,2⟩],.processNext 0,.processNext 0,.snapshotMigrated 0 [],.tickEnd 0,
    .tickBegin 0 [⟨⟨0,1⟩,101,1,0,.value "A"⟩]]

/-- The response of the first transaction resumes the second as well. -/
theorem response_reaches_other : ¬ ∀ {s s' : System String} {node : Int} {msg : Message String},
    (s,.routeNext node,s') ∈ trace System.step System.initial (twoWaits ++ [.routeNext 0]) →
      NextMessage s node msg → ReachesOwn some node msg s s' := by
  intro reaches
  let s := (runActions System.step (fun _ _ => True) twoWaits System.initial).get (by decide +kernel)
  let s' := (s.step (.routeNext 0)).get (by decide +kernel)
  have ran : runActions System.step (fun _ _ => True) twoWaits System.initial = some s := (Option.some_get _).symm
  have stepped : s.step (.routeNext 0) = some s' := (Option.some_get _).symm
  have next : NextMessage s 0 ⟨⟨0,1⟩,101,1,0,.value "A"⟩ := ⟨[],rfl⟩
  have resumed : Resumed s s' ⟨0,2⟩ := by
    unfold Resumed
    decide +kernel
  exact absurd ((reaches (mem_trace_of_run stepped ran) next).own resumed) (by decide)

end FlowSim.Transaction
