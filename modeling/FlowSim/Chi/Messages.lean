import FlowSim.Chi.Continuous

/-!
What a step can do. A transaction moves, and sends messages of its own; or a message is
delivered, which at most resumes transactions that wait or changes a snooped cache. So a
transaction that is not at its home node yet has no snoops and no answers under way.
-/
namespace FlowSim.Chi
open FlowSim.Cache FlowSim.Directory FlowSim.Transaction FlowSim.Lib
set_option linter.unusedSimpArgs false

/-- A snoop, or an answer that a transaction can wait for. -/
def isAwaited (type : Int) : Bool := isSnoop type || type = opcodeSnpResp || type = opcodeSnpRespData

/-- The transaction that takes the action; none for a delivery. -/
def Action.actor : Action → Option TransactionID
  | .start id _ _ => some id
  | .arriveHome id _ _ => some id
  | .register id => some id
  | .deliver _ => none
  | .resume id _ => some id
  | .arriveRequester id _ => some id
  | .fail id => some id

/-- The transaction has ended. -/
def Txn.AtRest (txn : Txn) : Prop := (∃ data, txn.place = .returned data) ∨ txn.place = .failed

/-- All other transactions have ended. -/
def Alone (s : System) (id : TransactionID) : Prop := ∀ other txn, other ≠ id → s.txns other = some txn → txn.AtRest

def concerns (id : TransactionID) (msg : CHIMessage) : Bool := msg.transactionID = id && isAwaited msg.type

/-- The snoops of the transaction that have not been answered, and the answers under way. -/
def System.outstanding (s : System) (id : TransactionID) : Nat := s.network.countP (concerns id)

/-- The line of an address in the cache of a node, and its state. -/
def System.line (s : System) (node : Int) (addr : UInt64) : Option CacheLine := lineIn (s.caches node) addr

def System.lineState (s : System) (node : Int) (addr : UInt64) : Cache.State := (s.line node addr).elim .invalid CacheLine.state

/-- No caches hold lines, the directories are empty and nothing has been started. -/
structure System.Initial (s : System) : Prop where
  caches : ∀ node cache, s.caches node = some cache → cache.lines = ∅
  directories : ∀ node dir, s.directories node = some dir → dir.entries = ∅
  txns : ∀ id, s.txns id = none
  network : s.network = []

section
variable {cfg : Config} {s s' : System} {id : TransactionID} {txn : Txn}

theorem not_concerns_of_ne {msg : CHIMessage} (other : msg.transactionID ≠ id) : concerns id msg = false := by
  simp [concerns,other]

theorem isSnoop_snoop (request : Request) : isSnoop request.snoop = true := by cases request <;> rfl

theorem concerns_snpMsg (cfg : Config) (id : TransactionID) (txn : Txn) (sharerID : Int) :
    concerns id (snpMsg cfg id txn sharerID) = true := by
  rw [concerns,snpMsg,isAwaited,isSnoop_snoop,Bool.true_or,Bool.true_or,Bool.and_true]
  exact decide_eq_true rfl

theorem unconcerned_compMsg (cfg : Config) (id other : TransactionID) (txn : Txn) (data : Option (List UInt8)) :
    concerns other (compMsg cfg id txn data) = false := by
  have unawaited : isAwaited (compMsg cfg id txn data).type = false := by
    unfold compMsg
    split <;> rfl
  rw [concerns,unawaited,Bool.and_false]

theorem unconcerned_reqMsg (cfg : Config) (id other : TransactionID) (txn : Txn) :
    concerns other (reqMsg cfg id txn) = false := by
  have unawaited : isAwaited txn.request.opcode = false := by cases txn.request <;> rfl
  rw [concerns,reqMsg,unawaited,Bool.and_false]

theorem System.lineState_of_cache {node : Int} {cache : FullyAssociativeCache} (isCache : s.caches node = some cache)
    (addr : UInt64) : s.lineState node addr = cache.getState addr := by
  rw [System.lineState,System.line,isCache]
  rfl

theorem txns_setTxn (s : System) (id other : TransactionID) (txn : Txn) (place : Place) :
    (s.setTxn id txn place).txns other = if other = id then some { txn with place } else s.txns other := by
  unfold System.setTxn
  exact Function.update_apply ..

/-- Messages of one transaction do not concern another. -/
theorem outstanding_of_append {extra : List CHIMessage} (network : s'.network = s.network ++ extra)
    (unconcerned : ∀ msg ∈ extra, concerns id msg = false) : s'.outstanding id = s.outstanding id := by
  have none_more : extra.countP (concerns id) = 0 := List.countP_eq_zero.mpr fun msg member => by simp [unconcerned msg member]
  rw [System.outstanding,network,List.countP_append,none_more]
  rfl

variable (id) in
theorem outstanding_erase {msg : CHIMessage} (under_way : msg ∈ s.network) :
    (s.network.erase msg).countP (concerns id) + (if concerns id msg then 1 else 0) = s.outstanding id := by
  have perm := (List.perm_cons_erase under_way).countP_eq (concerns id)
  rw [List.countP_cons] at perm
  exact perm.symm

/-- As many responses are to come as snoops have been sent. -/
theorem outstanding_snoops (targets : List Int) (network : s'.network = s.network ++ targets.map (snpMsg cfg id txn)) :
    s'.outstanding id = s.outstanding id + targets.length := by
  have counted : (targets.map (snpMsg cfg id txn)).countP (concerns id) = targets.length := by
    rw [List.countP_map]
    exact List.countP_eq_length.mpr fun sharerID _ => concerns_snpMsg cfg id txn sharerID
  rw [System.outstanding,network,List.countP_append,counted]
  rfl

/-! ### Moves -/

/-- A transaction has moved and has sent messages of its own: a new one its request, any other
    what a transaction sends from the home node. -/
structure Moved (s : System) (id : TransactionID) (txn : Txn) (place : Place) (s' : System) : Prop where
  started : s.txns id = some txn ∨ s.txns id = none
  txns : s'.txns = Function.update s.txns id (some { txn with place })
  network : ∃ extra : List CHIMessage, s'.network = s.network ++ extra ∧ (∀ msg ∈ extra, msg.transactionID = id) ∧
    (place = .toHome → s.txns id = none ∧ ∀ msg ∈ extra, concerns id msg = false)

theorem moved_of_same {place : Place} (isTxn : s.txns id = some txn) (later : place ≠ .toHome)
    (network : s'.network = s.network) (txns : s'.txns = Function.update s.txns id (some { txn with place })) :
    Moved s id txn place s' :=
  ⟨.inl isTxn,txns,[],network.trans (List.append_nil _).symm,fun _ member => absurd member List.not_mem_nil,
    fun here => absurd here later⟩

theorem moved_send {place : Place} (isTxn : s.txns id = some txn) (later : place ≠ .toHome) {extra : List CHIMessage}
    (own : ∀ msg ∈ extra, msg.transactionID = id) (network : s'.network = s.network ++ extra)
    (txns : s'.txns = Function.update s.txns id (some { txn with place })) : Moved s id txn place s' :=
  ⟨.inl isTxn,txns,extra,network,own,fun here => absurd here later⟩

section
variable {dir : FullyAssociativeDirectory} {victim : UInt64} {data : Option (List UInt8)}

theorem moved_finish {add : Bool} (isTxn : s.txns id = some txn) (finished : s.finish cfg id txn dir victim data add = some s') :
    ∃ place, place ≠ .toHome ∧ s'.caches = s.caches ∧ Moved s id txn place s' := by
  have granted : ∀ data dir, Moved s id txn (.toRequester data) (s.grant cfg id txn data dir) := by
    intro data dir
    refine moved_send isTxn Place.noConfusion (fun msg member => ?_) rfl rfl
    rw [List.mem_singleton.mp member]
    unfold compMsg
    split <;> rfl
  unfold System.finish at finished
  split at finished <;>
  · obtain ⟨dir',-,rfl⟩ := Option.map_eq_some_iff.mp finished
    exact ⟨_,Place.noConfusion,rfl,granted _ dir'⟩

theorem moved_snoops {place : Place} (isTxn : s.txns id = some txn) (later : place ≠ .toHome) (targets : List Int) :
    Moved s id txn place ((s.send (targets.map (snpMsg cfg id txn))).setTxn id txn place) := by
  refine moved_send isTxn later (fun msg member => ?_) rfl rfl
  obtain ⟨sharerID,-,rfl⟩ := List.mem_map.mp member
  rfl

theorem moved_arriveHome {accepted : Nat} (isTxn : s.txns id = some txn)
    (arrived : s.arriveHome cfg id txn accepted victim = some s') :
    ∃ place, place ≠ .toHome ∧ s'.caches = s.caches ∧ Moved s id txn place s' := by
  have failed : Moved s id txn .failed (s.setTxn id txn .failed) := moved_of_same isTxn Place.noConfusion rfl rfl
  unfold System.arriveHome at arrived
  split at arrived
  · obtain rfl := Option.some.inj arrived
    exact ⟨_,Place.noConfusion,rfl,failed⟩
  · split at arrived
    · split at arrived
      · split at arrived
        · obtain rfl := Option.some.inj arrived
          exact ⟨_,Place.noConfusion,rfl,failed⟩
        · obtain rfl := Option.some.inj arrived
          exact ⟨_,Place.noConfusion,rfl,moved_snoops isTxn Place.noConfusion _⟩
      · exact moved_finish isTxn arrived
    · dsimp only at arrived
      split at arrived
      · obtain ⟨-,sent⟩ := Option.ite_none_right_eq_some.mp arrived
        obtain rfl := Option.some.inj sent
        exact ⟨_,Place.noConfusion,rfl,moved_snoops isTxn Place.noConfusion _⟩
      · split at arrived
        · exact moved_finish isTxn arrived
        · obtain rfl := Option.some.inj arrived
          exact ⟨_,Place.noConfusion,rfl,moved_snoops isTxn Place.noConfusion _⟩

theorem moved_resume {wait : Wait} {msg : CHIMessage} (isTxn : s.txns id = some txn)
    (resumed : s.resume cfg id txn wait msg victim = some s') :
    ∃ place, place ≠ .toHome ∧ s'.caches = s.caches ∧ Moved s id txn place s' := by
  unfold System.resume at resumed
  split at resumed
  · dsimp only at resumed
    split at resumed
    · exact moved_finish isTxn resumed
    · obtain rfl := Option.some.inj resumed
      exact ⟨_,Place.noConfusion,rfl,moved_of_same isTxn Place.noConfusion rfl rfl⟩
  · cases resumed

theorem moved_arriveRequester (isTxn : s.txns id = some txn) (arrived : s.arriveRequester id txn data victim = some s') :
    ∃ place, place ≠ .toHome ∧ Moved s id txn place s' := by
  unfold System.arriveRequester at arrived
  split at arrived
  · obtain rfl := Option.some.inj arrived
    exact ⟨_,Place.noConfusion,moved_of_same isTxn Place.noConfusion rfl rfl⟩
  · obtain ⟨filled,-,rest⟩ := Option.bind_eq_some_iff.mp arrived
    obtain ⟨installed,-,rest⟩ := Option.bind_eq_some_iff.mp rest
    obtain rfl := Option.some.inj rest
    exact ⟨_,Place.noConfusion,moved_of_same isTxn Place.noConfusion rfl rfl⟩

variable (cfg) in
theorem moved_start (new : s.txns id = none) (request : Request) (addr : UInt64) :
    ∃ place, Moved s id ⟨request,addr,.toHome⟩ place (s.start cfg id request addr) := by
  unfold System.start
  dsimp only
  split
  · exact ⟨_,.inr new,rfl,[],(List.append_nil _).symm,fun _ member => absurd member List.not_mem_nil,
      fun here => by cases here⟩
  · refine ⟨_,.inr new,rfl,[reqMsg cfg id ⟨request,addr,.toHome⟩],rfl,fun msg member => ?_,
      fun _ => ⟨new,fun msg member => ?_⟩⟩
    · rw [List.mem_singleton.mp member]
      rfl
    · rw [List.mem_singleton.mp member]
      exact unconcerned_reqMsg ..

end

/-- What a step does: it delivers a message, or moves one transaction. -/
theorem step_cases {action : Action} (stepped : step cfg s action = some s') :
    (∃ msg, action = .deliver msg ∧ msg ∈ s.network ∧ s' = { s with network := s.network.erase msg }.receive cfg msg) ∨
    ∃ id txn place, action.actor = some id ∧ Moved s id txn place s' := by
  cases action with
  | start id request addr =>
    obtain ⟨new,started⟩ := Option.ite_none_right_eq_some.mp stepped
    obtain rfl := Option.some.inj started
    obtain ⟨place,moved⟩ := moved_start cfg new request addr
    exact .inr ⟨id,_,place,rfl,moved⟩
  | arriveHome id accepted victim =>
    obtain ⟨txn,isTxn,arrived⟩ := Option.bind_eq_some_iff.mp stepped
    split at arrived
    · obtain ⟨place,-,-,moved⟩ := moved_arriveHome isTxn arrived
      exact .inr ⟨id,txn,place,rfl,moved⟩
    · cases arrived
  | register id =>
    obtain ⟨txn,isTxn,registered⟩ := Option.bind_eq_some_iff.mp stepped
    split at registered
    · obtain ⟨-,registered⟩ := Option.ite_none_right_eq_some.mp registered
      obtain rfl := Option.some.inj registered
      exact .inr ⟨id,txn,_,rfl,moved_of_same isTxn Place.noConfusion rfl rfl⟩
    · cases registered
  | deliver msg =>
    obtain ⟨under_way,delivered⟩ := Option.ite_none_right_eq_some.mp stepped
    exact .inl ⟨msg,rfl,under_way,(Option.some.inj delivered).symm⟩
  | resume id victim =>
    obtain ⟨txn,isTxn,resumed⟩ := Option.bind_eq_some_iff.mp stepped
    split at resumed
    · split at resumed
      · obtain ⟨place,-,-,moved⟩ := moved_resume isTxn resumed
        exact .inr ⟨id,txn,place,rfl,moved⟩
      · cases resumed
    · cases resumed
  | arriveRequester id victim =>
    obtain ⟨txn,isTxn,arrived⟩ := Option.bind_eq_some_iff.mp stepped
    split at arrived
    · obtain ⟨place,-,moved⟩ := moved_arriveRequester isTxn arrived
      exact .inr ⟨id,txn,place,rfl,moved⟩
    · cases arrived
  | fail id =>
    obtain ⟨txn,isTxn,failed⟩ := Option.bind_eq_some_iff.mp stepped
    split at failed
    · cases failed
    · cases failed
    · obtain rfl := Option.some.inj failed
      exact .inr ⟨id,txn,_,rfl,moved_of_same isTxn Place.noConfusion rfl rfl⟩

/-! ### Deliveries -/

theorem hear_cases (msg : CHIMessage) (txn : Txn) : txn.hear cfg msg = txn ∨ ∃ wait, txn.place = .waiting wait ∧
    wait.phase = .registered ∧ msg.type = txn.request.waitFor.type ∧
      txn.hear cfg msg = { txn with place := .waiting { wait with phase := .resumed msg } } := by
  unfold Txn.hear
  split
  · next wait waiting =>
    split_ifs with hears
    · right
      rw [Txn.hears,waiting] at hears
      obtain ⟨⟨registered,-⟩,matches_⟩ : (wait.phase = .registered ∧ _) ∧ _ := by simpa using hears
      refine ⟨wait,waiting,registered,?_,rfl⟩
      unfold matchesWait at matches_
      split at matches_
      · cases matches_
      · next same => exact not_not.mp same
    · exact .inl rfl
  · exact .inl rfl

/-- What the delivery of a snoop does: the line of its target loses, and one answer is sent. -/
structure Answered (s : System) (msg : CHIMessage) (addr : UInt64) (s' : System) : Prop where
  txns : s'.txns = s.txns
  directories : s'.directories = s.directories
  network : ∃ resp : CHIMessage, s'.network = s.network.erase msg ++ [resp] ∧ resp.transactionID = msg.transactionID ∧
    isSnoop resp.type = false ∧ (resp.type = opcodeSnpRespData → ∀ payload, resp.payload = .value payload →
      ∀ line, s.line msg.targetNodeID addr = some line → line.state ≠ .invalid → payload.data = line.data)
  here : s'.line msg.targetNodeID addr =
    (s.line msg.targetNodeID addr).map fun line => { line with state := snoopedState msg.type line.state }
  elsewhere : ∀ node x, node ≠ msg.targetNodeID ∨ x ≠ addr → s'.line node x = s.line node x

theorem answered_of_snooped {msg : CHIMessage} {payload : CHIPayload} {handler : SnoopHandler}
    {next : Cache.State → Cache.State}
    (snooped : ∀ useDMT node cache, Snooped next cache (handler useDMT node cache msg payload).2 payload.addr msg
      (handler useDMT node cache msg payload).1) (next_eq : ∀ state, next state = snoopedState msg.type state) :
    Answered s msg payload.addr ({ s with network := s.network.erase msg }.answerSnoop cfg msg payload handler) := by
  have spec := snooped (cfg.useDMT msg.targetNodeID) msg.targetNodeID (s.caches msg.targetNodeID)
  unfold System.answerSnoop
  dsimp only
  generalize handler (cfg.useDMT msg.targetNodeID) msg.targetNodeID (s.caches msg.targetNodeID) msg payload = answer at *
  have lines : ∀ node x, ((({ s with network := s.network.erase msg } : System).setCache msg.targetNodeID answer.2).send
      [answer.1]).line node x = if node = msg.targetNodeID then lineIn answer.2 x else s.line node x := by
    intro node x
    show lineIn (Function.update s.caches msg.targetNodeID answer.2 node) x = _
    rw [Function.update_apply]
    split_ifs <;> rfl
  refine ⟨rfl,rfl,⟨answer.1,rfl,spec.transactionID,spec.response,spec.given⟩,?_,fun node x elsewhere => ?_⟩
  · rw [lines,if_pos rfl,spec.here]
    simp only [next_eq]
    rfl
  · rw [lines]
    split_ifs with target
    · rw [spec.others x (elsewhere.resolve_left fun different => different target),target]
      rfl
    · rfl

/-- An answer takes the place of the snoop. -/
theorem Answered.outstanding_le {msg : CHIMessage} {addr : UInt64} (answered : Answered s msg addr s')
    (under_way : msg ∈ s.network) (snoop : isSnoop msg.type = true) (id : TransactionID) :
    s'.outstanding id ≤ s.outstanding id := by
  obtain ⟨resp,network,transactionID,-⟩ := answered.network
  have erased := outstanding_erase id under_way
  rw [System.outstanding,network,List.countP_append,List.countP_singleton]
  by_cases own : msg.transactionID = id
  · have concerned : concerns id msg = true := by
      rw [concerns,isAwaited,snoop,decide_eq_true own]
      rfl
    rw [if_pos concerned] at erased
    split_ifs <;> omega
  · have unconcerned : concerns id resp = false := not_concerns_of_ne (by rw [transactionID]; exact own)
    rw [unconcerned]
    simp only [Bool.false_eq_true,↓reduceIte]
    omega

/-- The delivery of any other message: the transactions that wait for it are resumed. -/
structure Heard (cfg : Config) (s : System) (msg : CHIMessage) (s' : System) : Prop where
  response : isSnoop msg.type = false ∨ ∀ payload, msg.payload ≠ .value payload
  caches : s'.caches = s.caches
  directories : s'.directories = s.directories
  network : s'.network = s.network.erase msg
  txns : ∀ id, s'.txns id = s.txns id ∨ s'.txns id = (s.txns id).map (Txn.hear cfg msg)

/-- A snoop is still under way after the delivery of something else. -/
theorem Heard.snpMsg_mem {msg : CHIMessage} {node : Int} (heard : Heard cfg s msg s')
    (member : snpMsg cfg id txn node ∈ s.network) : snpMsg cfg id txn node ∈ s'.network := by
  rw [heard.network]
  refine (List.mem_erase_of_ne ?_).mpr member
  rintro rfl
  rcases heard.response with other | other
  · cases (isSnoop_snoop txn.request).symm.trans other
  · exact other _ rfl

theorem Heard.outstanding_le {msg : CHIMessage} (heard : Heard cfg s msg s') (under_way : msg ∈ s.network) :
    s'.outstanding id ≤ s.outstanding id := by
  have erased := outstanding_erase id under_way
  rw [System.outstanding,heard.network]
  omega

/-- An answer that is heard is under way no more. -/
theorem Heard.outstanding_answered {msg : CHIMessage} {request : Request} (heard : Heard cfg s msg s')
    (under_way : msg ∈ s.network) (type : msg.type = request.waitFor.type) :
    s'.outstanding id + (if msg.transactionID = id then 1 else 0) = s.outstanding id := by
  have awaited : isAwaited msg.type = true := by
    rw [type]
    cases request <;> rfl
  have erased := outstanding_erase id under_way
  rw [concerns,awaited,Bool.and_true] at erased
  simp only [decide_eq_true_iff] at erased
  rwa [System.outstanding,heard.network]

variable (cfg s) in
theorem receive_cases (msg : CHIMessage) :
    (isSnoop msg.type = true ∧ ∃ payload, msg.payload = .value payload ∧
      Answered s msg payload.addr ({ s with network := s.network.erase msg }.receive cfg msg)) ∨
    Heard cfg s msg ({ s with network := s.network.erase msg }.receive cfg msg) := by
  unfold System.receive
  split
  · next payload isPayload =>
    split_ifs with shared unique
    · refine .inl ⟨by rw [shared]; rfl,payload,isPayload,?_⟩
      refine answered_of_snooped (fun _ _ _ => snpSharedFwd_spec) fun state => ?_
      rw [snoopedState,if_pos shared]
    · refine .inl ⟨by rw [unique]; rfl,payload,isPayload,?_⟩
      refine answered_of_snooped (fun _ _ _ => snpUniqueFwd_spec) fun state => ?_
      rw [snoopedState,if_neg shared]
    · refine .inr ⟨.inl ?_,rfl,rfl,rfl,fun _ => .inr rfl⟩
      rw [isSnoop,decide_eq_false shared,decide_eq_false unique]
      rfl
  · next other => exact .inr ⟨.inr fun payload isPayload => other payload isPayload,rfl,rfl,rfl,fun _ => .inl rfl⟩

/-! ### New transactions -/

/-- A transaction that has not come to its home node has no snoops and no answers under way. -/
def Fresh (s : System) : Prop :=
  ∀ id, (∀ txn, s.txns id = some txn → txn.place = .toHome) → s.outstanding id = 0

theorem fresh_initial (initial : s.Initial) : Fresh s := fun _ _ => by
  rw [System.outstanding,initial.network,List.countP_nil]

theorem Moved.fresh {place : Place} (fresh : Fresh s) (moved : Moved s id txn place s') : Fresh s' := by
  obtain ⟨extra,network,own,first⟩ := moved.network
  intro other toHome
  by_cases same : other = id
  · subst same
    obtain ⟨new,unconcerned⟩ := first (toHome { txn with place } (by rw [moved.txns,Function.update_self]))
    rw [outstanding_of_append network unconcerned]
    exact fresh other fun txn' isTxn => by cases new.symm.trans isTxn
  · have unconcerned : ∀ msg ∈ extra, concerns other msg = false := fun msg member =>
      not_concerns_of_ne fun isOther => same (isOther.symm.trans (own msg member))
    rw [outstanding_of_append network unconcerned]
    refine fresh other fun txn' isTxn => toHome txn' ?_
    rw [moved.txns,Function.update_of_ne same,isTxn]

theorem fresh_step {action : Action} (fresh : Fresh s) (stepped : step cfg s action = some s') : Fresh s' := by
  rcases step_cases stepped with ⟨msg,-,under_way,rfl⟩ | ⟨id,txn,place,-,moved⟩
  · intro id toHome
    rcases receive_cases cfg s msg with ⟨snoop,payload,-,answered⟩ | heard
    · rw [answered.txns] at toHome
      have none_out := fresh id toHome
      have fewer := answered.outstanding_le under_way snoop id
      omega
    · have none_out : s.outstanding id = 0 := by
        refine fresh id fun txn was => ?_
        rcases heard.txns id with same | hears
        · exact toHome txn (same.trans was)
        · rw [was] at hears
          have here := toHome _ hears
          rcases hear_cases msg txn with kept | ⟨wait,-,-,-,resumed⟩
          · rwa [kept] at here
          · rw [resumed] at here
            cases here
      have erased := outstanding_erase id under_way
      rw [System.outstanding,heard.network]
      omega
  · exact moved.fresh fresh

/-! ### Transactions on their own -/

theorem Txn.AtRest.not_waiting (rest : txn.AtRest) (wait : Wait) : txn.place ≠ .waiting wait := by
  intro waiting
  rcases rest with ⟨data,returned⟩ | failed
  · cases returned.symm.trans waiting
  · cases failed.symm.trans waiting

/-- Messages do not wake a transaction that has ended. -/
theorem hear_of_atRest (msg : CHIMessage) (rest : txn.AtRest) : txn.hear cfg msg = txn := by
  rcases hear_cases msg txn with same | ⟨wait,waiting,-⟩
  · exact same
  · exact absurd waiting (rest.not_waiting wait)

theorem Alone.step {action : Action} (alone : Alone s id) (mine : ∀ other, action.actor = some other → other = id)
    (stepped : step cfg s action = some s') : Alone s' id := by
  intro other txn' different isTxn
  rcases step_cases stepped with ⟨msg,-,-,rfl⟩ | ⟨mover,txn,place,actor,moved⟩
  · rcases receive_cases cfg s msg with ⟨-,payload,-,answered⟩ | heard
    · exact alone other txn' different (answered.txns ▸ isTxn)
    · rcases heard.txns other with same | hears
      · exact alone other txn' different (same ▸ isTxn)
      · obtain ⟨txn,was,rfl⟩ := Option.map_eq_some_iff.mp (hears ▸ isTxn)
        have rest := alone other txn different was
        rwa [hear_of_atRest msg rest]
  · obtain rfl := mine mover actor
    rw [moved.txns,Function.update_of_ne different] at isTxn
    exact alone other txn' different isTxn

/-- Once a transaction has ended, too, any other is alone. -/
theorem Alone.next (alone : Alone s id) (rest : ∀ txn, s.txns id = some txn → txn.AtRest) (other : TransactionID) :
    Alone s other := by
  intro third txn _ isTxn
  by_cases same : third = id
  · subst same
    exact rest txn isTxn
  · exact alone third txn same isTxn

end

end FlowSim.Chi
