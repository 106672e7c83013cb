import FlowSim.Chi.SingleWriter

/-!
What becomes of modified data. A reader of a line that another requester, its owner, has in
Modified state goes through the home node, which snoops the owner. As long as no snoop
invalidates the owner's line and the reader hears of its own snoops alone, the owner keeps
the data, and they are what the reader comes back with (`modified_data_kept`).
-/
namespace FlowSim.Chi
open FlowSim.Cache FlowSim.Directory FlowSim.Transaction FlowSim.Lib
set_option linter.unusedSimpArgs false

namespace System

/-- The node has a valid copy of the line, with such data. -/
def Has (s : System) (node : Int) (addr : UInt64) (data : Option (List UInt8)) : Prop :=
  ∃ line, s.line node addr = some line ∧ line.state ≠ .invalid ∧ line.data = data

/-- Such data are in a message under way that a transaction still waits for. -/
def Awaited (cfg : Config) (s : System) (data : Option (List UInt8)) : Prop :=
  ∃ msg ∈ s.network, (∃ payload, msg.payload = .value payload ∧ payload.data = data) ∧
    ∃ id txn wait, s.txns id = some txn ∧ txn.place = .waiting wait ∧ (∀ got, wait.phase ≠ .resumed got) ∧
      cfg.home txn.addr = msg.targetNodeID ∧ matchesWait msg txn.request.waitFor = true

/-- The data that the node's line had when it was in Modified state for the last time. -/
def modifiedData (s : System) (node : Int) (addr : UInt64) (last : Option (List UInt8)) : Option (List UInt8) :=
  ((s.line node addr).filter fun line => line.state = .modified).elim last CacheLine.data

end System

/-- A step, with the owner's modified data kept in view. -/
def watchedStep (cfg : Config) (owner : Int) (addr : UInt64) (s : System × Option (List UInt8)) (action : Action) :
    Option (System × Option (List UInt8)) :=
  (step cfg s.1 action).map fun s' => (s',s'.modifiedData owner addr s.2)

/-- Modified data are not lost to a reader's transaction: it completes with them installed, or
    fails and the owner has them; and when the owner's line is Modified no more, they are in a
    cache, in a message that a transaction waits for or in the memory. -/
structure DataKept (cfg : Config) (id : TransactionID) (owner : Int) (addr : UInt64) (s : System)
    (data : Option (List UInt8)) : Prop where
  completes : ∀ victim s', step cfg s (.arriveRequester id victim) = some s' →
    (s'.txns id).map Txn.place = some (.returned data) ∧ (s.caches id.nodeID ≠ none → s'.Has id.nodeID addr data)
  fails : (s.txns id).map Txn.place = some .failed → s.Has owner addr data
  kept : s.lineState owner addr ≠ .modified →
    (∃ node, s.Has node addr data) ∨ s.Awaited cfg data ∨ data = some (loadDataFromMemory addr)

/-! ### The condition -/

/-- The line that a message is about. -/
def CHIMessage.line (msg : CHIMessage) : Option UInt64 :=
  match msg.payload with
  | .value payload => some payload.addr
  | _ => none

/-- The conditions on a step. The home node knows the owner when the reader arrives, and a
    reader for a shared copy finds the record Modified; the reader is resumed by answers to its
    own snoops; no snoop for the only copy is handled at the owner; and the owner neither
    evicts the line nor installs it anew, unless it writes a line that is Modified still. -/
def Undisturbed (cfg : Config) (id : TransactionID) (owner : Int) (addr : UInt64) (s : System) : Action → Prop
  | .arriveHome mover _ _ => mover = id → ∀ txn ∈ s.txns id, ∀ dir ∈ s.directories (cfg.home addr),
      owner ∈ dir.getSharers addr ∧
        (txn.request = .readShared → dir.getState addr = .modified ∧ (dir.getSharers addr).head? = some owner)
  | .resume mover _ => mover = id → ∀ txn ∈ s.txns id, ∀ msg ∈ txn.answer, msg.transactionID = id
  | .deliver msg => msg.type = opcodeSnpUniqueFwd → msg.targetNodeID = owner → msg.line ≠ some addr
  | .arriveRequester mover victim => mover.nodeID = owner → ∀ txn ∈ s.txns mover,
      if txn.addr = addr then txn.request.installs = .modified ∧ s.lineState owner addr = .modified else victim ≠ addr
  | _ => True

instance (cfg : Config) (id : TransactionID) (owner : Int) (addr : UInt64) (s : System) :
    (action : Action) → Decidable (Undisturbed cfg id owner addr s action)
  | .arriveHome _ _ _ => inferInstanceAs (Decidable (_ → ∀ txn ∈ _, ∀ dir ∈ _, _ ∧ (_ → _)))
  | .resume _ _ => inferInstanceAs (Decidable (_ → ∀ txn ∈ _, ∀ msg ∈ _, _))
  | .deliver _ => inferInstanceAs (Decidable (_ → _ → _))
  | .arriveRequester _ _ => inferInstanceAs (Decidable (_ → ∀ txn ∈ _, ite _ (_ ∧ _) (_ ≠ _)))
  | .start _ _ _ => inferInstanceAs (Decidable True)
  | .register _ => inferInstanceAs (Decidable True)
  | .fail _ => inferInstanceAs (Decidable True)

/-! ### The owner's line -/

/-- What a step makes of the owner's line: nothing, a Modified line with other data, or a line
    that has been shared. -/
inductive LineKept (line : CacheLine) : CacheLine → Prop
  | same : LineKept line line
  | written {line' : CacheLine} (before : line.state = .modified) (after : line'.state = .modified) : LineKept line line'
  | shared : LineKept line { line with state := downgraded line.state }

section
variable {cfg : Config} {s s' : System} {id : TransactionID} {txn : Txn} {owner : Int} {addr : UInt64}
  {data : Option (List UInt8)} {line line' : CacheLine}

theorem downgraded_cases (state : Cache.State) :
    downgraded state ≠ .modified ∧ (state ≠ .invalid → downgraded state ≠ .invalid) := by
  cases state <;> decide

theorem lineState_of_line (found : s.line owner addr = some line) : s.lineState owner addr = line.state := by
  rw [System.lineState,found]
  rfl

theorem modifiedData_of_line (found : s.line owner addr = some line) (last : Option (List UInt8)) :
    s.modifiedData owner addr last = if line.state = .modified then line.data else last := by
  rw [System.modifiedData,found,Option.filter_some]
  by_cases modified : line.state = .modified
  · rw [if_pos modified,if_pos (decide_eq_true modified)]
    rfl
  · rw [if_neg modified,if_neg (fun is => modified (of_decide_eq_true is))]
    rfl

/-- A line that is Modified no more stays so, and its data stay the same. -/
structure Settled (s s' : System) (owner : Int) (addr : UInt64) (data data' : Option (List UInt8)) : Prop where
  shared : s.lineState owner addr ≠ .modified → s'.lineState owner addr ≠ .modified
  data : s'.lineState owner addr ≠ .modified → data' = data

/-- The owner still has its data. -/
theorem LineKept.has (kept : LineKept line line') (found : s.line owner addr = some line) (valid : line.state ≠ .invalid)
    (found' : s'.line owner addr = some line') :
    s'.Has owner addr (s'.modifiedData owner addr line.data) ∧
      Settled s s' owner addr line.data (s'.modifiedData owner addr line.data) := by
  rw [modifiedData_of_line found']
  cases kept with
  | same =>
    rw [ite_self]
    refine ⟨⟨line,found',valid,rfl⟩,fun shared => ?_,fun _ => rfl⟩
    rwa [lineState_of_line found',← lineState_of_line found]
  | written before after =>
    rw [if_pos after]
    have modified := (lineState_of_line found).trans before
    refine ⟨⟨line',found',?_,rfl⟩,fun shared => absurd modified shared,fun shared => ?_⟩
    · rw [after]
      decide
    · exact absurd ((lineState_of_line found').trans after) shared
  | shared =>
    obtain ⟨notModified,valid'⟩ := downgraded_cases line.state
    rw [if_neg notModified]
    refine ⟨⟨_,found',valid' valid,rfl⟩,fun _ => ?_,fun _ => rfl⟩
    rwa [lineState_of_line found']

theorem line_of_caches (same : s'.caches = s.caches) (node : Int) (addr : UInt64) : s'.line node addr = s.line node addr := by
  rw [System.line,same]
  rfl

theorem line_of_cache {node : Int} {cache : FullyAssociativeCache} (isCache : s.caches node = some cache) :
    s.line node addr = cache.lines.lookup addr := by
  rw [System.line,isCache]
  rfl

/-- A new transaction may write the line of its requester. -/
theorem line_start (request : Request) (x : UInt64) (found : s.line owner addr = some line) :
    ∃ line', (s.start cfg id request x).line owner addr = some line' ∧ LineKept line line' := by
  unfold System.start
  dsimp only
  split
  · next result cache' served =>
    obtain ⟨cache,isCache,served⟩ := Option.bind_eq_some_iff.mp served
    by_cases here : owner = id.nodeID
    · subst here
      rw [line_of_cache isCache] at found
      have after : ∀ {line'}, cache'.lines.lookup addr = some line' → ((s.setCache id.nodeID (some cache')).setTxn id
          ⟨request,x,.toHome⟩ (.returned result)).line id.nodeID addr = some line' :=
        fun there => (line_of_cache (Function.update_self ..)).trans there
      rcases servedLocally_cases served with rfl | ⟨old,new,isOld,before,written,rfl⟩
      · exact ⟨line,after found,.same⟩
      · by_cases same : addr = x
        · subst same
          obtain rfl := Option.some.inj (isOld.symm.trans found)
          exact ⟨new,after (AList.lookup_insert ..),.written before written⟩
        · exact ⟨line,after ((AList.lookup_insert_ne same).trans found),.same⟩
    · refine ⟨line,?_,.same⟩
      show lineIn (Function.update s.caches id.nodeID (some cache') owner) addr = _
      rw [Function.update_of_ne here]
      exact found
  · exact ⟨line,found,.same⟩

/-- What is installed at the owner is another line, or a write of its Modified line. -/
theorem line_arriveRequester {back : Option (List UInt8)} {victim : UInt64}
    (careful : id.nodeID = owner →
      if txn.addr = addr then txn.request.installs = .modified ∧ s.lineState owner addr = .modified else victim ≠ addr)
    (arrived : s.arriveRequester id txn back victim = some s') (found : s.line owner addr = some line) :
    ∃ line', s'.line owner addr = some line' ∧ LineKept line line' := by
  unfold System.arriveRequester at arrived
  split at arrived
  · obtain rfl := Option.some.inj arrived
    exact ⟨line,found,.same⟩
  · next cache isCache =>
    obtain ⟨filled,fills,rest⟩ := Option.bind_eq_some_iff.mp arrived
    obtain ⟨installed,installs,rest⟩ := Option.bind_eq_some_iff.mp rest
    obtain rfl := Option.some.inj rest
    obtain ⟨⟨new,isNew,state,-⟩,others⟩ := FullyAssociativeCache.install_spec fills installs
    by_cases here : owner = id.nodeID
    · subst here
      have after : ∀ {line'}, installed.lines.lookup addr = some line' → ((s.setCache id.nodeID (some installed)).setTxn
          id txn (.returned (txn.request.result back))).line id.nodeID addr = some line' :=
        fun there => (line_of_cache (Function.update_self ..)).trans there
      by_cases same : txn.addr = addr
      · subst same
        obtain ⟨writes,modified⟩ := (if_pos rfl).mp (careful rfl)
        rw [lineState_of_line found] at modified
        exact ⟨new,after isNew,.written modified (state.trans writes)⟩
      · have spared : victim ≠ addr := (if_neg same).mp (careful rfl)
        rcases others addr (Ne.symm same) with kept | ⟨gone,-⟩
        · exact ⟨line,after (kept.trans ((line_of_cache isCache).symm.trans found)),.same⟩
        · exact absurd gone.symm spared
    · refine ⟨line,?_,.same⟩
      show lineIn (Function.update s.caches id.nodeID (some installed) owner) addr = _
      rw [Function.update_of_ne here]
      exact found

/-- A snoop that is handled at the owner shares the line. -/
theorem line_deliver {msg : CHIMessage}
    (careful : msg.type = opcodeSnpUniqueFwd → msg.targetNodeID = owner → msg.line ≠ some addr)
    (found : s.line owner addr = some line) :
    ∃ line', ({ s with network := s.network.erase msg }.receive cfg msg).line owner addr = some line' ∧
      LineKept line line' := by
  rcases receive_cases cfg s msg with ⟨snoop,payload,isPayload,answered⟩ | heard
  · by_cases elsewhere : owner ≠ msg.targetNodeID ∨ addr ≠ payload.addr
    · exact ⟨line,(answered.elsewhere owner addr elsewhere).trans found,.same⟩
    · obtain ⟨here,this_line⟩ := not_or.mp elsewhere
      obtain rfl := not_not.mp here
      obtain rfl := not_not.mp this_line
      have about : msg.line = some payload.addr := by rw [CHIMessage.line,isPayload]
      have shared : msg.type = opcodeSnpSharedFwd := by
        by_contra other
        rw [isSnoop,decide_eq_false other,Bool.false_or,decide_eq_true_iff] at snoop
        exact careful snoop rfl about
      refine ⟨{ line with state := downgraded line.state },?_,.shared⟩
      rw [answered.here,found,Option.map_some,snoopedState,if_pos shared]
  · exact ⟨line,(line_of_caches heard.caches owner addr).trans found,.same⟩

/-- An undisturbed step leaves the line at its owner. -/
theorem line_step {action : Action} (undisturbed : Undisturbed cfg id owner addr s action)
    (stepped : step cfg s action = some s') (found : s.line owner addr = some line) :
    ∃ line', s'.line owner addr = some line' ∧ LineKept line line' := by
  have unchanged : s'.caches = s.caches → ∃ line', s'.line owner addr = some line' ∧ LineKept line line' :=
    fun same => ⟨line,(line_of_caches same owner addr).trans found,.same⟩
  cases action with
  | start mover request x =>
    obtain ⟨-,started⟩ := Option.ite_none_right_eq_some.mp stepped
    obtain rfl := Option.some.inj started
    exact line_start request x found
  | arriveHome mover accepted victim =>
    obtain ⟨txn,isTxn,arrived⟩ := Option.bind_eq_some_iff.mp stepped
    split at arrived
    · obtain ⟨-,-,same,-⟩ := moved_arriveHome isTxn arrived
      exact unchanged same
    · cases arrived
  | register mover =>
    obtain ⟨txn,-,registered⟩ := Option.bind_eq_some_iff.mp stepped
    split at registered
    · obtain ⟨-,registered⟩ := Option.ite_none_right_eq_some.mp registered
      obtain rfl := Option.some.inj registered
      exact unchanged rfl
    · cases registered
  | deliver msg =>
    obtain ⟨-,delivered⟩ := Option.ite_none_right_eq_some.mp stepped
    obtain rfl := Option.some.inj delivered
    exact line_deliver undisturbed found
  | resume mover victim =>
    obtain ⟨txn,isTxn,resumed⟩ := Option.bind_eq_some_iff.mp stepped
    split at resumed
    · split at resumed
      · obtain ⟨-,-,same,-⟩ := moved_resume isTxn resumed
        exact unchanged same
      · cases resumed
    · cases resumed
  | arriveRequester mover victim =>
    obtain ⟨txn,isTxn,arrived⟩ := Option.bind_eq_some_iff.mp stepped
    split at arrived
    · exact line_arriveRequester (fun here => undisturbed here txn isTxn) arrived found
    · cases arrived
  | fail mover =>
    obtain ⟨txn,-,failed⟩ := Option.bind_eq_some_iff.mp stepped
    split at failed
    · cases failed
    · cases failed
    · obtain rfl := Option.some.inj failed
      exact unchanged rfl

/-- After an undisturbed step the owner still has its data. -/
theorem System.Has.step {action : Action} (has : s.Has owner addr data) (undisturbed : Undisturbed cfg id owner addr s action)
    (stepped : step cfg s action = some s') : s'.Has owner addr (s'.modifiedData owner addr data) ∧
      Settled s s' owner addr data (s'.modifiedData owner addr data) := by
  obtain ⟨line,found,valid,rfl⟩ := has
  obtain ⟨line',found',kept⟩ := line_step undisturbed stepped found
  exact kept.has found valid found'

/-! ### The reader -/

/-- The message carries data that the owner has shared. -/
def Carries (s : System) (owner : Int) (addr : UInt64) (data : Option (List UInt8)) (msg : CHIMessage) : Prop :=
  s.lineState owner addr ≠ .modified ∧ ∀ payload, msg.payload = .value payload → payload.data = data

/-- A reader for a shared copy snoops the owner, and the data it hears of are the owner's. -/
structure SharedOk (cfg : Config) (s : System) (id : TransactionID) (owner : Int) (txn : Txn) (data : Option (List UInt8)) :
    Prop where
  snoops : ∀ msg ∈ s.network, msg.transactionID = id → isSnoop msg.type = true → msg = snpMsg cfg id txn owner
  answers : ∀ msg ∈ s.network, msg.transactionID = id → msg.type = opcodeSnpRespData → Carries s owner txn.addr data msg
  resumed : ∀ wait msg, txn.place = .waiting wait → wait.phase = .resumed msg → msg.transactionID = id →
    Carries s owner txn.addr data msg
  back : ∀ result, txn.place = .toRequester result → s.lineState owner txn.addr ≠ .modified ∧ result = data

/-- A reader for the only copy waits in vain: the owner's answer is still to come. -/
structure UniqueOk (cfg : Config) (s : System) (id : TransactionID) (owner : Int) (txn : Txn) : Prop where
  waits : ∀ wait, txn.place = .waiting wait →
    s.outstanding id + wait.own id ≤ wait.remaining ∧ snpMsg cfg id txn owner ∈ s.network
  back : ∀ result, txn.place ≠ .toRequester result

/-- The reader has nothing but what the owner has given it. -/
def ReaderOk (cfg : Config) (s : System) (id : TransactionID) (owner : Int) (txn : Txn) (data : Option (List UInt8)) : Prop :=
  txn.request = .readShared ∧ SharedOk cfg s id owner txn data ∨ txn.request = .readUnique ∧ UniqueOk cfg s id owner txn

/-- The owner has its data, and the reader nothing else. -/
structure Holding (cfg : Config) (id : TransactionID) (owner : Int) (addr : UInt64) (s : System)
    (data : Option (List UInt8)) : Prop where
  fresh : Fresh s
  held : s.Has owner addr data
  reader : ∃ txn, s.txns id = some txn ∧ txn.addr = addr ∧ ReaderOk cfg s id owner txn data

section
variable {data' : Option (List UInt8)}

theorem Carries.settled {msg : CHIMessage} (settled : Settled s s' owner addr data data')
    (carries : Carries s owner addr data msg) : Carries s' owner addr data' msg := by
  refine ⟨settled.shared carries.1,fun payload isPayload => ?_⟩
  rw [settled.data (settled.shared carries.1)]
  exact carries.2 payload isPayload

/-- A step that sends no snoops and no answers for the reader but snoops of the owner. -/
theorem SharedOk.move (ok : SharedOk cfg s id owner txn data) {place : Place}
    (settled : Settled s s' owner txn.addr data data')
    (network : ∀ msg ∈ s'.network, concerns id msg = true → msg ∈ s.network ∨ msg = snpMsg cfg id txn owner)
    (resumed : ∀ wait msg, place = .waiting wait → wait.phase = .resumed msg → msg.transactionID = id →
      Carries s owner txn.addr data msg)
    (back : ∀ result, place = .toRequester result → s.lineState owner txn.addr ≠ .modified ∧ result = data) :
    SharedOk cfg s' id owner { txn with place } data' where
  snoops msg member own snoop := by
    have concerned : concerns id msg = true := by
      rw [concerns,isAwaited,snoop,decide_eq_true own]
      rfl
    exact (network msg member concerned).elim (fun was => ok.snoops msg was own snoop) fun this_one => this_one
  answers msg member own type := by
    have concerned : concerns id msg = true := by
      rw [concerns,isAwaited,type,decide_eq_true own]
      rfl
    rcases network msg member concerned with was | rfl
    · exact (ok.answers msg was own type).settled settled
    · exact absurd ((isSnoop_snoop txn.request).symm.trans (congrArg isSnoop type)) (by decide)
  resumed wait msg waiting heard own := (resumed wait msg waiting heard own).settled settled
  back result here := by
    obtain ⟨shared,same⟩ := back result here
    exact ⟨settled.shared shared,same.trans (settled.data (settled.shared shared)).symm⟩

/-- What others do keeps the reader as it is. -/
theorem SharedOk.stay (ok : SharedOk cfg s id owner txn data) (settled : Settled s s' owner txn.addr data data')
    (network : ∀ msg ∈ s'.network, concerns id msg = true → msg ∈ s.network) : SharedOk cfg s' id owner txn data' :=
  ok.move settled (fun msg member concerned => .inl (network msg member concerned)) ok.resumed ok.back

theorem UniqueOk.stay (ok : UniqueOk cfg s id owner txn) (fewer : s'.outstanding id ≤ s.outstanding id)
    (stays : snpMsg cfg id txn owner ∈ s.network → snpMsg cfg id txn owner ∈ s'.network) :
    UniqueOk cfg s' id owner txn := by
  refine ⟨fun wait waiting => ?_,ok.back⟩
  obtain ⟨counted,snooped⟩ := ok.waits wait waiting
  exact ⟨(Nat.add_le_add_right fewer _).trans counted,stays snooped⟩

/-- The reader comes to its end, without a message. -/
theorem ReaderOk.rest (ok : ReaderOk cfg s id owner txn data) (settled : Settled s s' owner txn.addr data data')
    {place : Place} (notWaiting : ∀ wait, place ≠ .waiting wait) (notBack : ∀ result, place ≠ .toRequester result)
    (network : txn.request = .readShared → s'.network = s.network) : ReaderOk cfg s' id owner { txn with place } data' := by
  rcases ok with ⟨isShared,ok⟩ | ⟨isUnique,-⟩
  · refine .inl ⟨isShared,ok.move settled (fun msg member _ => .inl (network isShared ▸ member)) ?_ ?_⟩
    · exact fun wait _ waiting => absurd waiting (notWaiting wait)
    · exact fun result back => absurd back (notBack result)
  · exact .inr ⟨isUnique,fun wait waiting => absurd waiting (notWaiting wait),notBack⟩

/-- A move of another transaction. -/
theorem ReaderOk.other {mover : TransactionID} {txn' : Txn} {place : Place} (ok : ReaderOk cfg s id owner txn data)
    (settled : Settled s s' owner txn.addr data data') (moved : Moved s mover txn' place s') (different : mover ≠ id) :
    ReaderOk cfg s' id owner txn data' := by
  obtain ⟨extra,network,own,-⟩ := moved.network
  have unconcerned : ∀ msg ∈ extra, concerns id msg = false := fun msg member =>
    not_concerns_of_ne fun isId => different ((own msg member).symm.trans isId)
  rcases ok with ⟨isShared,ok⟩ | ⟨isUnique,ok⟩
  · refine .inl ⟨isShared,ok.stay settled fun msg member concerned => ?_⟩
    rw [network] at member
    refine (List.mem_append.mp member).resolve_right fun sent => ?_
    cases (unconcerned msg sent).symm.trans concerned
  · refine .inr ⟨isUnique,ok.stay (le_of_eq (outstanding_of_append network unconcerned)) fun member => ?_⟩
    rw [network]
    exact List.mem_append_left _ member

/-- The delivery of a snoop. Only the owner is snooped for a reader of a shared copy, and a
    snoop for the only copy does not get through to it. -/
theorem ReaderOk.answer {msg : CHIMessage} {payload : CHIPayload} (ok : ReaderOk cfg s id owner txn data)
    (under_way : msg ∈ s.network) (snoop : isSnoop msg.type = true) (isPayload : msg.payload = .value payload)
    (held : s.Has owner txn.addr data) (undisturbed : Undisturbed cfg id owner txn.addr s (.deliver msg))
    (settled : Settled s s' owner txn.addr data data') (answered : Answered s msg payload.addr s') :
    ReaderOk cfg s' id owner txn data' := by
  obtain ⟨resp,network,transactionID,response,given⟩ := answered.network
  rcases ok with ⟨isShared,ok⟩ | ⟨isUnique,ok⟩
  · have before : ∀ {m}, m ∈ s'.network → m ∈ s.network ∨ m = resp := by
      intro m member
      rw [network] at member
      exact (List.mem_append.mp member).imp List.mem_of_mem_erase List.mem_singleton.mp
    refine .inl ⟨isShared,fun m member own isSnp => ?_,fun m member own type => ?_,fun wait m waiting resumed own => ?_,
      fun result back => ?_⟩
    · rcases before member with was | rfl
      · exact ok.snoops m was own isSnp
      · cases response.symm.trans isSnp
    · rcases before member with was | rfl
      · exact (ok.answers m was own type).settled settled
      · have this_one := ok.snoops msg under_way (transactionID.symm.trans own) snoop
        have target : msg.targetNodeID = owner := by rw [this_one,snpMsg]
        have line : payload.addr = txn.addr := by
          rw [this_one] at isPayload
          rw [← Payload.value.inj isPayload]
          rfl
        have state := answered.lineState_eq
        rw [target,line] at state
        have shared : s'.lineState owner txn.addr ≠ .modified := by
          rw [state]
          exact (snoopedState_not_owner ..).2
        refine ⟨shared,fun p isP => ?_⟩
        obtain ⟨old,found,valid,isData⟩ := held
        rw [settled.data shared,← isData]
        rw [target,line] at given
        exact given type p isP old found valid
    · exact (ok.resumed wait m waiting resumed own).settled settled
    · obtain ⟨shared,same⟩ := ok.back result back
      exact ⟨settled.shared shared,same.trans (settled.data (settled.shared shared)).symm⟩
  · refine .inr ⟨isUnique,ok.stay (answered.outstanding_le under_way snoop id) fun member => ?_⟩
    rw [network]
    refine List.mem_append_left _ ((List.mem_erase_of_ne ?_).mpr member)
    rintro rfl
    exact undisturbed (by rw [snpMsg,isUnique]; rfl) rfl rfl

/-- The delivery of an answer, which may resume the reader. -/
theorem ReaderOk.hear {msg : CHIMessage} (ok : ReaderOk cfg s id owner txn data) (isTxn : s.txns id = some txn)
    (under_way : msg ∈ s.network) (settled : Settled s s' owner txn.addr data data') (heard : Heard cfg s msg s') :
    ∃ txn', s'.txns id = some txn' ∧ txn'.addr = txn.addr ∧ ReaderOk cfg s' id owner txn' data' := by
  have before : ∀ {m}, m ∈ s'.network → m ∈ s.network := by
    intro m member
    rw [heard.network] at member
    exact List.mem_of_mem_erase member
  have asleep : ReaderOk cfg s' id owner txn data' := by
    rcases ok with ⟨isShared,ok⟩ | ⟨isUnique,ok⟩
    · exact .inl ⟨isShared,ok.stay settled fun m member _ => before member⟩
    · exact .inr ⟨isUnique,ok.stay (heard.outstanding_le under_way) heard.snpMsg_mem⟩
  rcases heard.txns id with same | hears
  · exact ⟨txn,same.trans isTxn,rfl,asleep⟩
  rw [isTxn,Option.map_some] at hears
  rcases hear_cases msg txn with kept | ⟨wait,waiting,registered,type,resumed⟩
  · exact ⟨txn,hears.trans (congrArg some kept),rfl,asleep⟩
  refine ⟨_,hears.trans (congrArg some resumed),rfl,?_⟩
  rcases ok with ⟨isShared,ok⟩ | ⟨isUnique,ok⟩
  · refine .inl ⟨isShared,ok.move settled (fun m member _ => .inl (before member)) (fun wait' m here answered own => ?_) ?_⟩
    · obtain rfl := Place.waiting.inj here
      obtain rfl := WaitPhase.resumed.inj answered
      rw [isShared] at type
      exact ok.answers msg under_way own type
    · exact fun result back => Place.noConfusion back
  · refine .inr ⟨isUnique,fun wait' here => ?_,fun result => Place.noConfusion⟩
    obtain rfl := Place.waiting.inj here
    obtain ⟨counted,snooped⟩ := ok.waits wait waiting
    exact ⟨(heard.outstanding_answered under_way type).trans_le ((Nat.le_add_right _ _).trans counted),
      heard.snpMsg_mem snooped⟩

end

/-! ### The reader's steps -/

section
variable {data' : Option (List UInt8)}

theorem finish_readShared {dir : FullyAssociativeDirectory} {victim : UInt64} {result : Option (List UInt8)} {add : Bool}
    (isShared : txn.request = .readShared) (finished : s.finish cfg id txn dir victim result add = some s') :
    ∃ dir', s' = s.grant cfg id txn result dir' := by
  unfold System.finish at finished
  rw [isShared] at finished
  obtain ⟨dir',-,same⟩ := Option.map_eq_some_iff.mp finished
  exact ⟨dir',same.symm⟩

/-- The reader arrives at the home node and snoops the owner. -/
theorem ReaderOk.arriveHome {accepted : Nat} {victim : UInt64} (ok : ReaderOk cfg s id owner txn data)
    (apart : id.nodeID ≠ owner) (fresh : s.outstanding id = 0) (settled : Settled s s' owner txn.addr data data')
    (known : ∀ dir ∈ s.directories (cfg.home txn.addr), owner ∈ dir.getSharers txn.addr ∧
      (txn.request = .readShared → dir.getState txn.addr = .modified ∧ (dir.getSharers txn.addr).head? = some owner))
    (arrived : s.arriveHome cfg id txn accepted victim = some s') :
    ∃ place, s'.txns id = some { txn with place } ∧ ReaderOk cfg s' id owner { txn with place } data' := by
  unfold System.arriveHome at arrived
  split at arrived
  · obtain rfl := Option.some.inj arrived
    refine ⟨.failed,Function.update_self ..,?_⟩
    exact ok.rest settled (fun _ => Place.noConfusion) (fun _ => Place.noConfusion) fun _ => rfl
  · next dir isDir =>
    obtain ⟨member,shares⟩ := known dir isDir
    rcases ok with ⟨isShared,ok⟩ | ⟨isUnique,ok⟩
    · obtain ⟨modified,first⟩ := shares isShared
      rw [if_pos isShared,if_pos modified] at arrived
      split at arrived
      · next none_ => cases first.symm.trans (congrArg List.head? none_)
      · next ownerID rest sharers =>
        obtain rfl : ownerID = owner := Option.some.inj ((congrArg List.head? sharers).symm.trans first)
        obtain rfl := Option.some.inj arrived
        refine ⟨_,Function.update_self ..,.inl ⟨isShared,ok.move settled (fun msg sent _ => ?_) ?_ ?_⟩⟩
        · exact (List.mem_append.mp sent).imp_right List.mem_singleton.mp
        · intro wait msg waiting resumed
          obtain rfl := Place.waiting.inj waiting
          cases resumed
        · exact fun result => Place.noConfusion
    · have unique : txn.request ≠ .readShared := by
        rw [isUnique]
        exact Request.noConfusion
      have targeted : owner ∈ others id.nodeID (dir.getSharers txn.addr) := mem_others.mpr ⟨member,Ne.symm apart⟩
      rw [if_neg unique] at arrived
      dsimp only at arrived
      split at arrived
      · obtain ⟨-,sent⟩ := Option.ite_none_right_eq_some.mp arrived
        obtain rfl := Option.some.inj sent
        exact ⟨_,Function.update_self ..,.inr ⟨isUnique,fun wait => Place.noConfusion,fun result => Place.noConfusion⟩⟩
      · rw [if_neg (List.ne_nil_of_mem targeted)] at arrived
        obtain rfl := Option.some.inj arrived
        refine ⟨_,Function.update_self ..,.inr ⟨isUnique,fun wait waiting => ⟨?_,?_⟩,fun result => Place.noConfusion⟩⟩
        · obtain rfl := Place.waiting.inj waiting
          rw [outstanding_snoops _ rfl,fresh,Nat.zero_add]
          exact Nat.le_refl _
        · exact List.mem_append_right _ (List.mem_map_of_mem targeted)

/-- The reader is resumed: a reader for a shared copy has the owner's data, one for the only
    copy waits on. -/
theorem ReaderOk.resume {wait : Wait} {msg : CHIMessage} {victim : UInt64} (ok : ReaderOk cfg s id owner txn data)
    (settled : Settled s s' owner txn.addr data data') (waiting : txn.place = .waiting wait)
    (answered : wait.phase = .resumed msg) (own : msg.transactionID = id)
    (resumed : s.resume cfg id txn wait msg victim = some s') :
    ∃ place, s'.txns id = some { txn with place } ∧ ReaderOk cfg s' id owner { txn with place } data' := by
  unfold System.resume at resumed
  split at resumed
  · next payload dir isPayload isDir =>
    dsimp only at resumed
    rcases ok with ⟨isShared,ok⟩ | ⟨isUnique,ok⟩
    · rw [if_pos (.inl isShared)] at resumed
      obtain ⟨dir',rfl⟩ := finish_readShared isShared resumed
      obtain ⟨shared,carried⟩ := ok.resumed wait msg waiting answered own
      refine ⟨_,Function.update_self ..,.inl ⟨isShared,?_⟩⟩
      refine ok.move settled (fun m sent concerned => ?_) ?_ fun result back => ?_
      · refine .inl ((List.mem_append.mp sent).resolve_right fun isComp => ?_)
        rw [List.mem_singleton.mp isComp] at concerned
        cases (unconcerned_compMsg ..).symm.trans concerned
      · exact fun wait' m => Place.noConfusion
      · rw [← Place.toRequester.inj back,isShared]
        exact ⟨shared,carried payload isPayload⟩
    · obtain ⟨counted,snooped⟩ := ok.waits wait waiting
      have unanswered : 0 < s.outstanding id := List.countP_pos_iff.mpr ⟨_,snooped,concerns_snpMsg ..⟩
      have heard : wait.own id = 1 := by
        unfold Wait.own
        rw [answered]
        exact if_pos own
      have goes_on : ¬ (txn.request = .readShared ∨ wait.remaining = 1) := by
        rw [isUnique]
        rintro (shared | last)
        · cases shared
        · omega
      rw [if_neg goes_on] at resumed
      obtain rfl := Option.some.inj resumed
      refine ⟨_,Function.update_self ..,.inr ⟨isUnique,fun wait' here => ⟨?_,snooped⟩,fun _ => Place.noConfusion⟩⟩
      obtain rfl := Place.waiting.inj here
      show s.outstanding id + 0 ≤ wait.remaining - 1
      omega
  · cases resumed

/-- The wait of the reader is registered. -/
theorem ReaderOk.register {wait : Wait} (ok : ReaderOk cfg s id owner txn data) (waiting : txn.place = .waiting wait)
    (queued : wait.phase = .queued) {place : Place} (is_place : place = .waiting { wait with phase := .registered })
    (settled : Settled s (s.setTxn id txn place) owner txn.addr data data') :
    ReaderOk cfg (s.setTxn id txn place) id owner { txn with place } data' := by
  subst is_place
  rcases ok with ⟨isShared,ok⟩ | ⟨isUnique,ok⟩
  · refine .inl ⟨isShared,ok.move settled (fun msg member _ => .inl member) ?_ fun result => Place.noConfusion⟩
    intro wait' msg here resumed
    obtain rfl := Place.waiting.inj here
    cases resumed
  · refine .inr ⟨isUnique,fun wait' here => ?_,fun result => Place.noConfusion⟩
    obtain rfl := Place.waiting.inj here
    obtain ⟨counted,snooped⟩ := ok.waits wait waiting
    rw [Wait.own,queued] at counted
    exact ⟨counted,snooped⟩

/-- Back at the requester, the data is returned and installed. -/
theorem arriveRequester_spec {result : Option (List UInt8)} {victim : UInt64}
    (arrived : s.arriveRequester id txn result victim = some s') :
    s'.txns id = some { txn with place := .returned (txn.request.result result) } ∧ s'.network = s.network ∧
      (s.caches id.nodeID ≠ none → ∃ line, s'.line id.nodeID txn.addr = some line ∧ line.state = txn.request.installs ∧
        line.data = result) := by
  unfold System.arriveRequester at arrived
  split at arrived
  · next absent =>
    obtain rfl := Option.some.inj arrived
    exact ⟨Function.update_self ..,rfl,fun there => absurd absent there⟩
  · next cache isCache =>
    obtain ⟨filled,fills,rest⟩ := Option.bind_eq_some_iff.mp arrived
    obtain ⟨installed,installs,rest⟩ := Option.bind_eq_some_iff.mp rest
    obtain rfl := Option.some.inj rest
    obtain ⟨⟨line,found,state,isData⟩,-⟩ := FullyAssociativeCache.install_spec fills installs
    exact ⟨Function.update_self ..,rfl,fun _ => ⟨line,(line_of_cache (Function.update_self ..)).trans found,state,isData⟩⟩

/-- An undisturbed step of any kind. -/
theorem Holding.step {action : Action} (holding : Holding cfg id owner addr s data) (apart : id.nodeID ≠ owner)
    (undisturbed : Undisturbed cfg id owner addr s action) (stepped : step cfg s action = some s') :
    Holding cfg id owner addr s' (s'.modifiedData owner addr data) := by
  obtain ⟨held,settled⟩ := holding.held.step undisturbed stepped
  have fresh := fresh_step holding.fresh stepped
  obtain ⟨txn,isTxn,rfl,ok⟩ := holding.reader
  have later : ∀ {place}, s'.txns id = some { txn with place } →
      ReaderOk cfg s' id owner { txn with place } (s'.modifiedData owner txn.addr data) →
      Holding cfg id owner txn.addr s' (s'.modifiedData owner txn.addr data) :=
    fun isTxn' ok' => ⟨fresh,held,_,isTxn',rfl,ok'⟩
  rcases step_cases stepped with ⟨msg,rfl,under_way,rfl⟩ | ⟨mover,txn',place,actor,moved⟩
  · rcases receive_cases cfg s msg with ⟨snoop,payload,isPayload,answered⟩ | heard
    · refine ⟨fresh,held,txn,?_,rfl,ok.answer under_way snoop isPayload holding.held undisturbed settled answered⟩
      rw [answered.txns,isTxn]
    · obtain ⟨txn',isTxn',line,ok'⟩ := ok.hear isTxn under_way settled heard
      exact ⟨fresh,held,txn',isTxn',line,ok'⟩
  by_cases own : mover = id
  · subst own
    cases action with
    | start other request x =>
      obtain rfl := Option.some.inj actor
      obtain ⟨new,-⟩ := Option.ite_none_right_eq_some.mp stepped
      cases new.symm.trans isTxn
    | arriveHome other accepted victim =>
      obtain rfl := Option.some.inj actor
      obtain ⟨txn'',isTxn'',arrived⟩ := Option.bind_eq_some_iff.mp stepped
      obtain rfl := Option.some.inj (isTxn.symm.trans isTxn'')
      split at arrived
      · next toHome =>
        have unsent : s.outstanding other = 0 := holding.fresh other fun t isT => by
          rw [← Option.some.inj (isTxn.symm.trans isT),toHome]
        obtain ⟨place',isTxn',ok'⟩ := ok.arriveHome apart unsent settled (undisturbed rfl txn isTxn) arrived
        exact later isTxn' ok'
      · cases arrived
    | register other =>
      obtain rfl := Option.some.inj actor
      obtain ⟨txn'',isTxn'',registered⟩ := Option.bind_eq_some_iff.mp stepped
      obtain rfl := Option.some.inj (isTxn.symm.trans isTxn'')
      split at registered
      · next wait waiting =>
        obtain ⟨queued,registered⟩ := Option.ite_none_right_eq_some.mp registered
        obtain rfl := Option.some.inj registered
        exact later (Function.update_self ..) (ok.register waiting queued rfl settled)
      · cases registered
    | deliver msg => cases actor
    | resume other victim =>
      obtain rfl := Option.some.inj actor
      obtain ⟨txn'',isTxn'',resumed⟩ := Option.bind_eq_some_iff.mp stepped
      obtain rfl := Option.some.inj (isTxn.symm.trans isTxn'')
      split at resumed
      · next wait waiting =>
        split at resumed
        · next msg answered =>
          have own := undisturbed rfl txn isTxn msg (answer_of_resumed waiting answered)
          obtain ⟨place',isTxn',ok'⟩ := ok.resume settled waiting answered own resumed
          exact later isTxn' ok'
        · cases resumed
      · cases resumed
    | arriveRequester other victim =>
      obtain rfl := Option.some.inj actor
      obtain ⟨txn'',isTxn'',arrived⟩ := Option.bind_eq_some_iff.mp stepped
      obtain rfl := Option.some.inj (isTxn.symm.trans isTxn'')
      split at arrived
      · next result back =>
        obtain ⟨isTxn',network,-⟩ := arriveRequester_spec arrived
        exact later isTxn' (ok.rest settled (fun _ => Place.noConfusion) (fun _ => Place.noConfusion) fun _ => network)
      · cases arrived
    | fail other =>
      obtain rfl := Option.some.inj actor
      obtain ⟨txn'',isTxn'',failed⟩ := Option.bind_eq_some_iff.mp stepped
      obtain rfl := Option.some.inj (isTxn.symm.trans isTxn'')
      split at failed
      · cases failed
      · cases failed
      · obtain rfl := Option.some.inj failed
        refine later (Function.update_self ..) (ok.rest settled (fun _ => Place.noConfusion) (fun _ => Place.noConfusion) ?_)
        exact fun _ => rfl
  · refine ⟨fresh,held,txn,?_,rfl,ok.other settled moved own⟩
    rw [moved.txns,Function.update_of_ne (Ne.symm own),isTxn]

end

/-! ### Runs -/

/-- In every state that undisturbed steps lead to, the owner has its data and the reader
    returns with nothing else. -/
theorem Holding.dataKept (holding : Holding cfg id owner addr s data) : DataKept cfg id owner addr s data := by
  obtain ⟨txn,isTxn,rfl,ok⟩ := holding.reader
  refine ⟨fun victim s' stepped => ?_,fun _ => holding.held,fun _ => .inl ⟨owner,holding.held⟩⟩
  obtain ⟨txn',isTxn',arrived⟩ := Option.bind_eq_some_iff.mp stepped
  obtain rfl := Option.some.inj (isTxn.symm.trans isTxn')
  split at arrived
  · next result back =>
    obtain ⟨isTxn',-,installed⟩ := arriveRequester_spec arrived
    rcases ok with ⟨isShared,ok⟩ | ⟨-,ok⟩
    · obtain ⟨-,rfl⟩ := ok.back result back
      rw [isShared] at isTxn' installed
      refine ⟨by rw [isTxn']; rfl,fun there => ?_⟩
      obtain ⟨line,found,state,isData⟩ := installed there
      refine ⟨line,found,?_,isData⟩
      rw [state]
      decide
    · exact absurd back (ok.back result)
  · cases arrived

/-- A reader whose own cache will not do, on its way to the home node. -/
theorem holding_start {request : Request} (fresh : Fresh s) (new : s.txns id = none)
    (reader : ∀ new, request ≠ .writeUnique new) (found : s.line owner addr = some line) (modified : line.state = .modified)
    (unserved : ∀ cache, s.caches id.nodeID = some cache → request.servedLocally cache addr = none) :
    Holding cfg id owner addr (s.start cfg id request addr) line.data := by
  have fresh' : Fresh (s.start cfg id request addr) := by
    obtain ⟨place,moved⟩ := moved_start cfg new request addr
    exact moved.fresh fresh
  have sent : s.start cfg id request addr =
      (s.send [reqMsg cfg id ⟨request,addr,.toHome⟩]).setTxn id ⟨request,addr,.toHome⟩ .toHome := by
    have unserved' : (s.caches id.nodeID).bind (fun cache => request.servedLocally cache addr) = none :=
      Option.bind_eq_none_iff.mpr unserved
    unfold System.start
    dsimp only
    rw [unserved']
  rw [sent] at fresh' ⊢
  have isTxn := Function.update_self id (some (Txn.mk request addr .toHome)) s.txns
  have silent := fresh' id fun txn isTxn' => by rw [← Option.some.inj (isTxn.symm.trans isTxn')]
  have unconcerned := List.countP_eq_zero.mp silent
  refine ⟨fresh',⟨line,found,by rw [modified]; decide,rfl⟩,_,isTxn,rfl,?_⟩
  cases request with
  | readShared =>
    refine .inl ⟨rfl,fun msg member own snoop => ?_,fun msg member own type => ?_,fun wait msg => Place.noConfusion,
      fun result => Place.noConfusion⟩
    · refine absurd ?_ (unconcerned msg member)
      rw [concerns,isAwaited,snoop,decide_eq_true own]
      rfl
    · refine absurd ?_ (unconcerned msg member)
      rw [concerns,isAwaited,type,decide_eq_true own]
      rfl
  | readUnique => exact .inr ⟨rfl,fun wait => Place.noConfusion,fun result => Place.noConfusion⟩
  | writeUnique new => exact absurd rfl (reader new)

end

/-- A reader of a line that another requester has in Modified state does not lose the data,
    as long as every step is undisturbed. -/
theorem modified_data_kept (cfg : Config) (s₀ s : System) (id : TransactionID) (request : Request) (owner : Int)
    (addr : UInt64) (line : CacheLine) (t : System × Option (List UInt8)) (initial : s₀.Initial)
    (reached : Reachable (step cfg) s₀ s) (new : s.txns id = none) (reader : ∀ data, request ≠ .writeUnique data)
    (apart : id.nodeID ≠ owner) (found : s.line owner addr = some line) (modified : line.state = .modified)
    (unserved : ∀ cache, s.caches id.nodeID = some cache → request.servedLocally cache addr = none)
    (run : Reaches (watchedStep cfg owner addr) (fun s => Undisturbed cfg id owner addr s.1)
      (s.start cfg id request addr,line.data) t) : DataKept cfg id owner addr t.1 t.2 := by
  have fresh : Fresh s := reached.invariant (fresh_initial initial) fun _ fresh _ stepped => fresh_step fresh stepped
  have holding : Holding cfg id owner addr t.1 t.2 := by
    refine run.invariant (P := fun t => Holding cfg id owner addr t.1 t.2)
      (holding_start fresh new reader found modified unserved) fun {s s' action} holding undisturbed stepped => ?_
    obtain ⟨next,isNext,rfl⟩ := Option.map_eq_some_iff.mp stepped
    exact holding.step apart undisturbed isNext
  exact holding.dataKept

/-! ### A writer and a reader -/

def writtenLine : CacheLine := { addr := 0, state := .modified, data := some [7] }

/-- Node 1 writes line 0. -/
def writerRun : List Action :=
  [.start ⟨1,1⟩ (.writeUnique (some [7])) 0,.arriveHome ⟨1,1⟩ 0 0,.arriveRequester ⟨1,1⟩ 0]

def snoopOfWriter (request : Request) : CHIMessage := snpMsg oneHome ⟨2,1⟩ ⟨request,0,.toHome⟩ 1

def answerOfWriter (request : Request) : CHIMessage :=
  sendSnpRespData false 1 (snoopOfWriter request) (newCHIPayload request.snoop 0) (some [7])

/-- A reader at node 2 comes to the home node, and the owner answers the snoop. -/
def snoopedRun (request : Request) : List Action :=
  [.arriveHome ⟨2,1⟩ 1 0,.register ⟨2,1⟩,.deliver (snoopOfWriter request),.deliver (answerOfWriter request)]

/-- A reader for a shared copy gets what the writer has written. -/
theorem modified_data_read : ∃ s t s', Reachable (step oneHome) twoRequesters s ∧ s.lineState 1 0 = .modified ∧
    Reaches (watchedStep oneHome 1 0) (fun s => Undisturbed oneHome ⟨2,1⟩ 1 0 s.1)
      (s.start oneHome ⟨2,1⟩ .readShared 0,some [7]) t ∧
    step oneHome t.1 (.arriveRequester ⟨2,1⟩ 0) = some s' ∧ s'.Has 2 0 (some [7]) := by
  have written : (runActions (step oneHome) (fun _ _ => True) writerRun twoRequesters).map (fun s =>
      (s.line 1 0,(s.txns ⟨2,1⟩).isNone,((s.caches 2).bind fun cache => Request.readShared.servedLocally cache 0).isNone)) =
      some (some writtenLine,true,true) := by decide +kernel
  have read : ((runActions (step oneHome) (fun _ _ => True) writerRun twoRequesters).bind fun s =>
      runActions (watchedStep oneHome 1 0) (fun s => Undisturbed oneHome ⟨2,1⟩ 1 0 s.1)
        (snoopedRun .readShared ++ [.resume ⟨2,1⟩ 0]) (s.start oneHome ⟨2,1⟩ .readShared 0,some [7])).map (fun t =>
      (t.2,(t.1.caches 2).isSome,(step oneHome t.1 (.arriveRequester ⟨2,1⟩ 0)).isSome)) =
      some (some [7],true,true) := by decide +kernel
  obtain ⟨t,both,at_end⟩ := Option.map_eq_some_iff.mp read
  obtain ⟨s,ran,reader⟩ := Option.bind_eq_some_iff.mp both
  rw [ran,Option.map_some] at written
  obtain ⟨found,rest⟩ := Prod.mk.inj (Option.some.inj written)
  obtain ⟨new,unserved⟩ := Prod.mk.inj rest
  obtain ⟨data,rest⟩ := Prod.mk.inj at_end
  obtain ⟨cached,arrives⟩ := Prod.mk.inj rest
  obtain ⟨s',arrived⟩ := Option.isSome_iff_exists.mp arrives
  have reached : Reachable (step oneHome) twoRequesters s := reaches_runActions _ ran
  have run := reaches_runActions _ reader
  have kept := modified_data_kept oneHome twoRequesters s ⟨2,1⟩ .readShared 1 0 writtenLine t initial_twoRequesters
    reached (Option.isNone_iff_eq_none.mp new) (fun _ => Request.noConfusion) (by decide) found rfl
    (Option.bind_eq_none_iff.mp (Option.isNone_iff_eq_none.mp unserved)) run
  obtain ⟨-,installed⟩ := kept.completes 0 s' arrived
  refine ⟨s,t,s',reached,lineState_of_line found,run,arrived,?_⟩
  rw [data] at installed
  refine installed fun absent => ?_
  rw [absent] at cached
  cases cached

/-- A reader for the only copy does not wait for the answer that the data is in, and fails
    when the owner's copy is gone. -/
theorem modified_data_lost : ∃ s t, Reachable (step oneHome) twoRequesters s ∧ s.txns ⟨2,1⟩ = none ∧
    s.Has 1 0 (some [7]) ∧ s.lineState 1 0 = .modified ∧
    Reaches (watchedStep oneHome 1 0) (fun _ _ => True) (s.start oneHome ⟨2,1⟩ .readUnique 0,some [7]) t ∧
    t.1.lineState 1 0 = .invalid ∧ t.1.lineState 2 0 = .invalid ∧ ¬ DataKept oneHome ⟨2,1⟩ 1 0 t.1 t.2 := by
  have written : (runActions (step oneHome) (fun _ _ => True) writerRun twoRequesters).map (fun s =>
      (s.line 1 0,(s.txns ⟨2,1⟩).isNone)) = some (some writtenLine,true) := by decide +kernel
  have lost : ((runActions (step oneHome) (fun _ _ => True) writerRun twoRequesters).bind fun s =>
      runActions (watchedStep oneHome 1 0) (fun _ _ => True) (snoopedRun .readUnique ++ [.fail ⟨2,1⟩])
        (s.start oneHome ⟨2,1⟩ .readUnique 0,some [7])).map (fun t =>
      ((t.1.txns ⟨2,1⟩).map Txn.place,t.1.lineState 1 0,t.1.lineState 2 0)) =
      some (some .failed,.invalid,.invalid) := by decide +kernel
  obtain ⟨t,both,at_end⟩ := Option.map_eq_some_iff.mp lost
  obtain ⟨s,ran,reader⟩ := Option.bind_eq_some_iff.mp both
  rw [ran,Option.map_some] at written
  obtain ⟨found,new⟩ := Prod.mk.inj (Option.some.inj written)
  obtain ⟨failed,rest⟩ := Prod.mk.inj at_end
  obtain ⟨gone,neverThere⟩ := Prod.mk.inj rest
  refine ⟨s,t,reaches_runActions _ ran,Option.isNone_iff_eq_none.mp new,⟨writtenLine,found,by decide,rfl⟩,
    lineState_of_line found,reaches_runActions _ reader,gone,neverThere,fun kept => ?_⟩
  obtain ⟨left,isLeft,valid,-⟩ := kept.fails failed
  exact valid ((lineState_of_line isLeft).symm.trans gone)

end FlowSim.Chi
