import FlowSim.Chi.Messages

/-!
One writer or many readers. A requester holds a line when its cache has a valid copy or a
grant of it is on its way back. As long as the home node records all holders, snoops all
that are in the way and hears of all of them before it grants, no owner has company
(`owner_is_alone`).
-/
namespace FlowSim.Chi
open FlowSim.Cache FlowSim.Directory FlowSim.Transaction FlowSim.Lib
set_option linter.unusedSimpArgs false

/-- The transaction is on its way back with the line. -/
def Txn.Granted (txn : Txn) : Prop := ∃ data, txn.place = .toRequester data

namespace System

/-- When a cache has a line in Exclusive or Modified state, no other has it in a valid one. -/
def SingleWriter (s : System) : Prop :=
  ∀ node other addr, node ≠ other → s.lineState node addr = .exclusive ∨ s.lineState node addr = .modified →
    s.lineState other addr = .invalid

/-- The home node's record of a line. -/
def entry (cfg : Config) (s : System) (addr : UInt64) : Option DirectoryEntry :=
  (s.directories (cfg.home addr)).bind fun dir => dir.find addr

def sharers (cfg : Config) (s : System) (addr : UInt64) : List Int := (s.entry cfg addr).elim [] DirectoryEntry.sharers

def recordedState (cfg : Config) (s : System) (addr : UInt64) : Directory.State :=
  (s.entry cfg addr).elim .notPresent DirectoryEntry.state

/-- The node has the line, or has been granted it. -/
def Holds (s : System) (node : Int) (addr : UInt64) : Prop :=
  s.lineState node addr ≠ .invalid ∨
    ∃ id txn, s.txns id = some txn ∧ id.nodeID = node ∧ txn.addr = addr ∧ txn.Granted

/-- The node has the only copy of the line, or has been granted it. -/
def Owns (s : System) (node : Int) (addr : UInt64) : Prop :=
  (s.lineState node addr = .exclusive ∨ s.lineState node addr = .modified) ∨
    ∃ id txn, s.txns id = some txn ∧ id.nodeID = node ∧ txn.addr = addr ∧ txn.Granted ∧ txn.request ≠ .readShared

end System

/-! ### The condition -/

/-- No other transaction on the line waits at the home node, unless both are reads for a
    shared copy. -/
def AloneOnLine (s : System) (id : TransactionID) (txn : Txn) : Prop :=
  ∀ other txn' wait, other ≠ id → s.txns other = some txn' → txn'.addr = txn.addr → txn'.place = .waiting wait →
    txn.request = .readShared ∧ txn'.request = .readShared

/-- A record that the directory gives up is of a line that nobody holds and no transaction
    waits for. -/
def GivesUpUnheld (cfg : Config) (s : System) (addr victim : UInt64) : Prop :=
  ∀ dir, s.directories (cfg.home addr) = some dir → dir.find addr = none → dir.Full →
    (∀ node, ¬ s.Holds node victim) ∧
      ∀ id txn wait, s.txns id = some txn → txn.addr = victim → txn.place ≠ .waiting wait

/-- The conditions on a step. The home node changes the record of a line while no other
    transaction on it waits, gives up no record of a held line, and lets a reader in on an
    Exclusive record only when there is no owner; a transaction is resumed by answers to its
    own snoops; and a snoop does not overtake a grant to its target. -/
def Careful (cfg : Config) (s : System) : Action → Prop
  | .arriveHome id _ victim => ∀ txn, s.txns id = some txn →
      (txn.request = .readShared → s.recordedState cfg txn.addr ≠ .modified →
        AloneOnLine s id txn ∧ GivesUpUnheld cfg s txn.addr victim ∧
          (s.recordedState cfg txn.addr = .exclusive → ∀ node, ¬ s.Owns node txn.addr)) ∧
      (txn.request ≠ .readShared → others id.nodeID (s.sharers cfg txn.addr) = [] →
        AloneOnLine s id txn ∧ GivesUpUnheld cfg s txn.addr victim)
  | .resume id victim => ∀ txn wait msg, s.txns id = some txn → txn.place = .waiting wait → wait.phase = .resumed msg →
      msg.transactionID = id ∧
        (wait.remaining = 1 → AloneOnLine s id txn ∧ GivesUpUnheld cfg s txn.addr victim)
  | .deliver msg => isSnoop msg.type → ∀ txn wait, s.txns msg.transactionID = some txn → txn.place = .waiting wait →
      ∀ other txn', s.txns other = some txn' → other.nodeID = msg.targetNodeID → txn'.addr = txn.addr → ¬ txn'.Granted
  | _ => True

/-! ### The invariant -/

/-- Whether the wait has been answered with an answer of its own. -/
def Wait.own (wait : Wait) (id : TransactionID) : Nat :=
  match wait.phase with
  | .resumed msg => if msg.transactionID = id then 1 else 0
  | _ => 0

/-- The node has what the transaction cannot share its line with. -/
def System.Conflicts (s : System) (id : TransactionID) (txn : Txn) (node : Int) : Prop :=
  if txn.request = .readShared then s.Owns node txn.addr else node ≠ id.nodeID ∧ s.Holds node txn.addr

/-- What is known while a transaction waits: there is a response to come for every one of its
    snoops, and a snoop of its is on its way to whoever is in its way. -/
structure WaitOk (cfg : Config) (s : System) (id : TransactionID) (txn : Txn) (wait : Wait) : Prop where
  counted : s.outstanding id + wait.own id ≤ wait.remaining
  reader : txn.request = .readShared →
    wait.remaining = 1 ∧ (id.nodeID ∈ wait.sharers → id.nodeID ∈ s.sharers cfg txn.addr)
  snooped : ∀ node, s.Conflicts id txn node → snpMsg cfg id txn node ∈ s.network

/-- The directory records all who hold a line, and owners alone. -/
structure Coherent (cfg : Config) (s : System) : Prop where
  recorded : ∀ {node addr}, s.Holds node addr → node ∈ s.sharers cfg addr
  owned : ∀ {node addr}, s.Owns node addr → s.sharers cfg addr = [node] ∧
    (s.recordedState cfg addr = .exclusive ∨ s.recordedState cfg addr = .modified)
  waits : ∀ {id txn wait}, s.txns id = some txn → txn.place = .waiting wait → WaitOk cfg s id txn wait

section
variable {cfg : Config} {s s' : System} {id : TransactionID} {txn : Txn}

theorem invalid_not_owner : Cache.State.invalid ≠ .exclusive ∧ Cache.State.invalid ≠ .modified := by decide

theorem shared_not_owner : Cache.State.shared ≠ .exclusive ∧ Cache.State.shared ≠ .modified := by decide

theorem System.Owns.holds {node : Int} {addr : UInt64} (owns : s.Owns node addr) : s.Holds node addr := by
  rcases owns with own | ⟨id,txn,isTxn,here,line,granted,-⟩
  · left
    intro invalid
    rw [invalid] at own
    exact own.elim invalid_not_owner.1 invalid_not_owner.2
  · exact .inr ⟨id,txn,isTxn,here,line,granted⟩

theorem Coherent.single_owner (coherent : Coherent cfg s) : s.SingleWriter := by
  intro node other addr different owner
  by_contra valid
  have alone := (coherent.owned (.inl owner)).1
  have known : other ∈ s.sharers cfg addr := coherent.recorded (.inl valid)
  rw [alone] at known
  exact different (List.mem_singleton.mp known).symm

/-! ### Steps of a transaction -/

/-- A wait goes on when others send messages, as long as nothing gets in its way. -/
theorem WaitOk.mono {wait : Wait} (ok : WaitOk cfg s id txn wait) {extra : List CHIMessage}
    (network : s'.network = s.network ++ extra) (unconcerned : ∀ msg ∈ extra, concerns id msg = false)
    (known : id.nodeID ∈ s.sharers cfg txn.addr → id.nodeID ∈ s'.sharers cfg txn.addr)
    (conflicts : ∀ node, s'.Conflicts id txn node → s.Conflicts id txn node) : WaitOk cfg s' id txn wait where
  counted := by
    rw [outstanding_of_append network unconcerned]
    exact ok.counted
  reader isReader := (ok.reader isReader).imp_right fun was member => known (was member)
  snooped node conflict := by
    rw [network]
    exact List.mem_append_left _ (ok.snooped node (conflicts node conflict))

theorem conflicts_of_imp (holds : ∀ node addr, s'.Holds node addr → s.Holds node addr)
    (owns : ∀ node addr, s'.Owns node addr → s.Owns node addr) (node : Int) (conflict : s'.Conflicts id txn node) :
    s.Conflicts id txn node := by
  unfold System.Conflicts at conflict ⊢
  split_ifs at conflict ⊢
  · exact owns _ _ conflict
  · exact conflict.imp_right (holds _ _)

/-- A step after which nobody holds more, and the directories say what they said. -/
structure Quiet (s s' : System) : Prop where
  holds : ∀ node addr, s'.Holds node addr → s.Holds node addr
  owns : ∀ node addr, s'.Owns node addr → s.Owns node addr
  directories : s'.directories = s.directories

theorem Quiet.entry (quiet : Quiet s s') (addr : UInt64) : s'.entry cfg addr = s.entry cfg addr := by
  rw [System.entry,quiet.directories]
  rfl

/-- After a quiet step only the messages and the waits remain to be looked at. -/
theorem Coherent.of_quiet (coherent : Coherent cfg s) (quiet : Quiet s s')
    (waits : ∀ {id txn wait}, s'.txns id = some txn → txn.place = .waiting wait → WaitOk cfg s' id txn wait) :
    Coherent cfg s' where
  recorded holds := by
    rw [System.sharers,quiet.entry]
    exact coherent.recorded (quiet.holds _ _ holds)
  owned owns := by
    rw [System.sharers,System.recordedState,quiet.entry]
    exact coherent.owned (quiet.owns _ _ owns)
  waits := waits

/-- A transaction has moved, without a new grant: others hold what they held, and what its
    requester has besides has been granted to it before. -/
theorem quiet_move {place : Place} (txns : s'.txns = Function.update s.txns id (some { txn with place }))
    (ungranted : ∀ data, place ≠ .toRequester data) (directories : s'.directories = s.directories)
    (lines : ∀ node addr, s'.lineState node addr = s.lineState node addr ∨ s'.lineState node addr = .invalid ∨
      node = id.nodeID ∧ addr = txn.addr ∧ s'.lineState node addr = txn.request.installs ∧ s.txns id = some txn ∧
        txn.Granted) : Quiet s s' := by
  have granted : ∀ {other : TransactionID} {txn' : Txn}, s'.txns other = some txn' → txn'.Granted →
      s.txns other = some txn' := by
    rintro other txn' isTxn ⟨data,back⟩
    rw [txns,Function.update_apply] at isTxn
    split_ifs at isTxn
    · obtain rfl := Option.some.inj isTxn
      exact absurd back (ungranted data)
    · exact isTxn
  refine ⟨fun node addr => ?_,fun node addr => ?_,directories⟩
  · rintro (valid | ⟨other,txn',isTxn,here,line,isGranted⟩)
    · rcases lines node addr with same | gone | ⟨rfl,rfl,-,isTxn,isGranted⟩
      · exact .inl (same ▸ valid)
      · exact absurd gone valid
      · exact .inr ⟨id,txn,isTxn,rfl,rfl,isGranted⟩
    · exact .inr ⟨other,txn',granted isTxn isGranted,here,line,isGranted⟩
  · rintro (owner | ⟨other,txn',isTxn,here,line,isGranted,unique⟩)
    · rcases lines node addr with same | gone | ⟨rfl,rfl,installed,isTxn,isGranted⟩
      · exact .inl (same ▸ owner)
      · rw [gone] at owner
        exact owner.elim (absurd · invalid_not_owner.1) (absurd · invalid_not_owner.2)
      · refine .inr ⟨id,txn,isTxn,rfl,rfl,isGranted,fun reader => ?_⟩
        rw [installed,reader] at owner
        exact owner.elim (absurd · shared_not_owner.1) (absurd · shared_not_owner.2)
    · exact .inr ⟨other,txn',granted isTxn isGranted,here,line,isGranted,unique⟩

theorem WaitOk.place {wait : Wait} (ok : WaitOk cfg s id txn wait) (place : Place) : WaitOk cfg s id { txn with place } wait :=
  ⟨ok.counted,ok.reader,ok.snooped⟩

/-- What a quiet move leaves to be shown: the transaction's own messages and wait. -/
theorem Coherent.move (coherent : Coherent cfg s) {place : Place} (extra : List CHIMessage) (quiet : Quiet s s')
    (txns : s'.txns = Function.update s.txns id (some { txn with place })) (network : s'.network = s.network ++ extra)
    (own : ∀ msg ∈ extra, msg.transactionID = id)
    (waits : ∀ wait, place = .waiting wait → WaitOk cfg s' id txn wait) : Coherent cfg s' := by
  have unconcerned : ∀ {other}, other ≠ id → ∀ msg ∈ extra, concerns other msg = false := fun different msg member =>
    not_concerns_of_ne fun same => different (same.symm.trans (own msg member))
  refine coherent.of_quiet quiet fun {other txn' wait} isTxn waiting => ?_
  rw [txns,Function.update_apply] at isTxn
  split_ifs at isTxn with same
  · subst same
    obtain rfl := Option.some.inj isTxn
    exact (waits wait waiting).place place
  · refine (coherent.waits isTxn waiting).mono network (unconcerned same) (fun member => ?_)
      (conflicts_of_imp quiet.holds quiet.owns)
    rwa [System.sharers,quiet.entry]

/-- A transaction that ends or starts, and leaves the caches alone. -/
theorem Coherent.set (coherent : Coherent cfg s) {place : Place} (idle : place = .failed ∨ place = .toHome)
    {extra : List CHIMessage} (own : ∀ msg ∈ extra, msg.transactionID = id) :
    Coherent cfg ((s.send extra).setTxn id txn place) := by
  refine coherent.move extra (quiet_move rfl (fun data back => ?_) rfl fun _ _ => .inl rfl) rfl rfl own fun wait waiting => ?_
  · rcases idle with rfl | rfl <;> cases back
  · rcases idle with rfl | rfl <;> cases waiting

theorem Coherent.fail (coherent : Coherent cfg s) : Coherent cfg (s.setTxn id txn .failed) := by
  have nothing_sent : s.send [] = s := by
    unfold System.send
    rw [List.append_nil]
  have failed : Coherent cfg ((s.send []).setTxn id txn .failed) :=
    coherent.set (.inl rfl) fun msg member => absurd member List.not_mem_nil
  rwa [nothing_sent] at failed

/-- A wait that goes on, with fewer responses to come or in another phase. -/
theorem Coherent.goOn {wait later : Wait} (coherent : Coherent cfg s) (isTxn : s.txns id = some txn)
    (waiting : txn.place = .waiting wait) (counted : s.outstanding id + later.own id ≤ later.remaining)
    (reader : txn.request = .readShared → later.remaining = 1 ∧ later.sharers = wait.sharers) :
    Coherent cfg (s.setTxn id txn (.waiting later)) := by
  have ok := coherent.waits isTxn waiting
  have quiet : Quiet s (s.setTxn id txn (.waiting later)) :=
    quiet_move rfl (fun _ back => by cases back) rfl fun _ _ => .inl rfl
  refine coherent.move [] quiet rfl (List.append_nil _).symm (fun msg member => absurd member List.not_mem_nil)
    fun wait' here => ?_
  obtain rfl := Place.waiting.inj here
  refine ⟨counted,fun isReader => ?_,fun node conflict => ?_⟩
  · obtain ⟨one,same⟩ := reader isReader
    rw [same]
    exact ⟨one,(ok.reader isReader).2⟩
  · exact ok.snooped node (conflicts_of_imp quiet.holds quiet.owns node conflict)

/-- A cache that serves its requester stays as it is, or its Modified line is written. -/
theorem servedLocally_cases {request : Request} {cache cache' : FullyAssociativeCache} {addr : UInt64}
    {data : Option (List UInt8)} (served : request.servedLocally cache addr = some (data,cache')) :
    cache' = cache ∨ ∃ line line', cache.lines.lookup addr = some line ∧ line.state = .modified ∧
      line'.state = .modified ∧ cache' = cache.putLine addr line' := by
  unfold Request.servedLocally at served
  split at served
  · obtain ⟨-,same⟩ := Option.ite_none_right_eq_some.mp served
    exact .inl (Prod.mk.inj (Option.some.inj same)).2.symm
  · obtain ⟨-,same⟩ := Option.ite_none_right_eq_some.mp served
    exact .inl (Prod.mk.inj (Option.some.inj same)).2.symm
  · obtain ⟨⟨present,modified⟩,written⟩ := Option.ite_none_right_eq_some.mp served
    obtain ⟨cache'',set,same⟩ := Option.map_eq_some_iff.mp written
    obtain ⟨-,rfl⟩ := Prod.mk.inj same
    unfold FullyAssociativeCache.setData at set
    split at set
    · next absent =>
      rw [FullyAssociativeCache.isPresent,absent] at present
      cases present
    · next line found =>
      obtain rfl := Option.some.inj set
      have state : line.state = .modified := by
        rw [FullyAssociativeCache.getState,found] at modified
        exact modified
      refine .inr ⟨line,_,found,state,?_,rfl⟩
      dsimp only
      rw [state,ite_self]

/-- A cache that serves its requester keeps the states of its lines. -/
theorem getState_servedLocally {request : Request} {cache cache' : FullyAssociativeCache} {addr x : UInt64}
    {data : Option (List UInt8)} (served : request.servedLocally cache addr = some (data,cache')) :
    cache'.getState x = cache.getState x := by
  rcases servedLocally_cases served with rfl | ⟨line,line',found,before,after,rfl⟩
  · rfl
  · rw [FullyAssociativeCache.getState_putLine]
    split_ifs with here
    · rw [here,FullyAssociativeCache.getState,found,after]
      exact before.symm
    · rfl

theorem Coherent.start (coherent : Coherent cfg s) (id : TransactionID) (request : Request) (addr : UInt64) :
    Coherent cfg (s.start cfg id request addr) := by
  unfold System.start
  dsimp only
  split
  · next data cache served =>
    obtain ⟨cache',isCache,served⟩ := Option.bind_eq_some_iff.mp served
    have lines : ∀ node addr, ((s.setCache id.nodeID (some cache)).setTxn id ⟨request,addr,.toHome⟩
        (.returned data)).lineState node addr = s.lineState node addr := by
      intro node addr'
      by_cases same : node = id.nodeID
      · subst same
        rw [System.lineState_of_cache isCache,System.lineState_of_cache (Function.update_self ..)]
        exact getState_servedLocally served
      · show (lineIn (Function.update s.caches id.nodeID (some cache) node) addr').elim _ _ = _
        rw [Function.update_of_ne same]
        rfl
    refine coherent.move [] (quiet_move rfl (fun _ back => ?_) rfl fun node addr' => .inl (lines node addr')) rfl
      (List.append_nil _).symm (fun msg member => absurd member List.not_mem_nil) fun wait waiting => ?_
    · cases back
    · cases waiting
  · refine coherent.set (.inr rfl) fun msg member => ?_
    rw [List.mem_singleton.mp member]
    rfl

/-! ### At the home node -/

theorem sharers_of_directory {dir : FullyAssociativeDirectory} {addr : UInt64}
    (isDir : s.directories (cfg.home addr) = some dir) :
    s.sharers cfg addr = dir.getSharers addr ∧ s.recordedState cfg addr = dir.getState addr := by
  rw [System.sharers,System.recordedState,System.entry,isDir]
  exact ⟨rfl,rfl⟩

theorem mem_others {rnNodeID node : Int} {sharers : List Int} :
    node ∈ others rnNodeID sharers ↔ node ∈ sharers ∧ node ≠ rnNodeID := by
  rw [others,List.mem_filter,decide_eq_true_iff]

/-- All that are in the way are snooped. -/
theorem Coherent.await (coherent : Coherent cfg s) (fresh : s.outstanding id = 0) {targets : List Int}
    (all : ∀ node, s.Conflicts id txn node → node ∈ targets)
    (one : txn.request = .readShared → targets.length = 1) :
    Coherent cfg (s.await cfg id txn (s.sharers cfg txn.addr) targets) := by
  have quiet : Quiet s (s.await cfg id txn (s.sharers cfg txn.addr) targets) :=
    quiet_move rfl (fun _ back => by cases back) rfl fun _ _ => .inl rfl
  refine coherent.move (targets.map (snpMsg cfg id txn)) quiet rfl rfl (fun msg member => ?_) fun wait waiting => ?_
  · obtain ⟨sharerID,-,rfl⟩ := List.mem_map.mp member
    rfl
  · obtain rfl := Place.waiting.inj waiting
    refine ⟨?_,fun reader => ⟨one reader,fun member => ?_⟩,fun node conflict => ?_⟩
    · rw [outstanding_snoops targets rfl,fresh,Nat.zero_add]
      exact Nat.le_refl _
    · rw [System.sharers,quiet.entry]
      exact member
    · refine List.mem_append_right _ (List.mem_map_of_mem (all node ?_))
      exact conflicts_of_imp quiet.holds quiet.owns node conflict

/-- What a grant records, and when it may: a reader joins the sharers when there is no owner,
    and a single holder is recorded when nobody else holds the line. -/
structure Grants (s : System) (cfg : Config) (id : TransactionID) (txn : Txn) (entry : DirectoryEntry) : Prop where
  mine : id.nodeID ∈ entry.sharers
  reader : txn.request = .readShared →
    (∀ node, ¬ s.Owns node txn.addr) ∧ ∀ node ∈ s.sharers cfg txn.addr, node ∈ entry.sharers
  unique : txn.request ≠ .readShared → (∀ node ≠ id.nodeID, ¬ s.Holds node txn.addr) ∧ entry.sharers = [id.nodeID] ∧
    (entry.state = .exclusive ∨ entry.state = .modified)

section
variable {dir dir' : FullyAssociativeDirectory} {entry : DirectoryEntry} {victim : UInt64} {data : Option (List UInt8)}

variable (id data) in
theorem entry_grant (isDir : s.directories (cfg.home txn.addr) = some dir) (recorded : Rerecorded dir victim txn.addr entry dir')
    (unheld : GivesUpUnheld cfg s txn.addr victim) :
    (s.grant cfg id txn data dir').entry cfg txn.addr = some entry ∧
      ∀ addr ≠ txn.addr, (s.grant cfg id txn data dir').entry cfg addr = s.entry cfg addr ∨
        (∀ node, ¬ s.Holds node addr) ∧
          ∀ id txn wait, s.txns id = some txn → txn.addr = addr → txn.place ≠ .waiting wait := by
  have directories : ∀ addr, (s.grant cfg id txn data dir').entry cfg addr =
      (Function.update s.directories (cfg.home txn.addr) (some dir') (cfg.home addr)).bind fun dir => dir.find addr :=
    fun _ => rfl
  refine ⟨?_,fun addr other => ?_⟩
  · rw [directories,Function.update_self]
    exact recorded.here
  · rw [directories]
    by_cases same : cfg.home addr = cfg.home txn.addr
    · rw [same,Function.update_self]
      rcases recorded.others addr other with kept | ⟨rfl,absent,full⟩
      · left
        rw [System.entry,same,isDir]
        exact kept
      · exact .inr (unheld dir isDir absent full)
    · left
      rw [Function.update_of_ne same]
      rfl

theorem holds_grant {node : Int} {addr : UInt64} (holds : (s.grant cfg id txn data dir').Holds node addr) :
    node = id.nodeID ∧ addr = txn.addr ∨ s.Holds node addr := by
  rcases holds with valid | ⟨other,txn',isTxn,here,line,granted⟩
  · exact .inr (.inl valid)
  · rw [System.grant,txns_setTxn] at isTxn
    split_ifs at isTxn with same
    · obtain rfl := Option.some.inj isTxn
      exact .inl ⟨by rw [← here,same],line.symm⟩
    · exact .inr (.inr ⟨other,txn',isTxn,here,line,granted⟩)

theorem owns_grant {node : Int} {addr : UInt64} (owns : (s.grant cfg id txn data dir').Owns node addr) :
    node = id.nodeID ∧ addr = txn.addr ∧ txn.request ≠ .readShared ∨ s.Owns node addr := by
  rcases owns with owner | ⟨other,txn',isTxn,here,line,granted,unique⟩
  · exact .inr (.inl owner)
  · rw [System.grant,txns_setTxn] at isTxn
    split_ifs at isTxn with same
    · obtain rfl := Option.some.inj isTxn
      exact .inl ⟨by rw [← here,same],line.symm,unique⟩
    · exact .inr (.inr ⟨other,txn',isTxn,here,line,granted,unique⟩)

theorem Coherent.grant (coherent : Coherent cfg s) (isDir : s.directories (cfg.home txn.addr) = some dir)
    (recorded : Rerecorded dir victim txn.addr entry dir') (alone : AloneOnLine s id txn)
    (unheld : GivesUpUnheld cfg s txn.addr victim) (grants : Grants s cfg id txn entry) :
    Coherent cfg (s.grant cfg id txn data dir') := by
  obtain ⟨here,others⟩ := entry_grant id data isDir recorded unheld
  have unconcerned : ∀ other, ∀ msg ∈ [compMsg cfg id txn data], concerns other msg = false := by
    intro other msg member
    rw [List.mem_singleton.mp member]
    exact unconcerned_compMsg ..
  refine ⟨fun {node addr} holds => ?_,fun {node addr} owns => ?_,fun {other txn' wait} isTxn waiting => ?_⟩
  · by_cases same : addr = txn.addr
    · subst same
      rw [System.sharers,here]
      rcases holds_grant holds with ⟨rfl,-⟩ | before
      · exact grants.mine
      · by_cases reader : txn.request = .readShared
        · exact (grants.reader reader).2 node (coherent.recorded before)
        · by_cases me : node = id.nodeID
          · rw [me]
            exact grants.mine
          · exact absurd before ((grants.unique reader).1 node me)
    · have before := (holds_grant holds).resolve_left fun now => same now.2
      rcases others addr same with kept | ⟨free,-⟩
      · rw [System.sharers,kept]
        exact coherent.recorded before
      · exact absurd before (free node)
  · by_cases same : addr = txn.addr
    · subst same
      rw [System.sharers,System.recordedState,here]
      by_cases reader : txn.request = .readShared
      · rcases owns_grant owns with ⟨-,-,unique⟩ | before
        · exact absurd reader unique
        · exact absurd before ((grants.reader reader).1 node)
      · obtain ⟨nobody,only,state⟩ := grants.unique reader
        have me : node = id.nodeID := by
          by_contra different
          rcases owns_grant owns with ⟨now,-⟩ | before
          · exact different now
          · exact nobody node different before.holds
        rw [me]
        exact ⟨only,state⟩
    · have before := (owns_grant owns).resolve_left fun now => same now.2.1
      rcases others addr same with kept | ⟨free,-⟩
      · rw [System.sharers,System.recordedState,kept]
        exact coherent.owned before
      · exact absurd before.holds (free node)
  · rw [System.grant,txns_setTxn] at isTxn
    split_ifs at isTxn with same
    · obtain rfl := Option.some.inj isTxn
      cases waiting
    · by_cases line : txn'.addr = txn.addr
      · obtain ⟨reader,reader'⟩ := alone other txn' wait same isTxn line waiting
        refine (coherent.waits isTxn waiting).mono rfl (unconcerned other) (fun member => ?_)
          fun node conflict => ?_
        · rw [line] at member ⊢
          rw [System.sharers,here]
          exact (grants.reader reader).2 _ member
        · unfold System.Conflicts at conflict ⊢
          rw [if_pos reader'] at conflict ⊢
          rcases owns_grant conflict with ⟨-,-,unique⟩ | before
          · exact absurd reader unique
          · exact before
      · refine (coherent.waits isTxn waiting).mono rfl (unconcerned other) (fun member => ?_)
          fun node conflict => ?_
        · rcases others txn'.addr line with kept | ⟨-,unwaited⟩
          · rwa [System.sharers,kept]
          · exact absurd waiting (unwaited other txn' wait isTxn rfl)
        · unfold System.Conflicts at conflict ⊢
          split_ifs at conflict ⊢
          · exact (owns_grant conflict).resolve_left fun now => line now.2.1
          · exact conflict.imp_right fun holds => (holds_grant holds).resolve_left fun now => line now.2

theorem Coherent.finish {add : Bool} (coherent : Coherent cfg s) (isDir : s.directories (cfg.home txn.addr) = some dir)
    (finished : s.finish cfg id txn dir victim data add = some s') (alone : AloneOnLine s id txn)
    (unheld : GivesUpUnheld cfg s txn.addr victim) (clear : ∀ node, ¬ s.Conflicts id txn node)
    (mine : txn.request = .readShared → add = false → id.nodeID ∈ s.sharers cfg txn.addr) : Coherent cfg s' := by
  obtain ⟨sharers,-⟩ := sharers_of_directory isDir
  have unique : ∀ {state dir' data'}, txn.request ≠ .readShared → (state = .exclusive ∨ state = .modified) →
      recordUnique dir victim txn.addr id.nodeID state = some dir' → Coherent cfg (s.grant cfg id txn data' dir') := by
    intro state dir' data' writer owned recorded
    obtain ⟨entry,rerecorded,only,isState⟩ := recordUnique_spec recorded
    refine coherent.grant isDir rerecorded alone unheld
      ⟨?_,fun reader => absurd reader writer,fun _ => ⟨?_,only,isState ▸ owned⟩⟩
    · rw [only]
      exact List.mem_singleton_self _
    · intro node different holds
      have free := clear node
      rw [System.Conflicts,if_neg writer] at free
      exact free ⟨different,holds⟩
  unfold System.finish at finished
  split at finished
  · next reader =>
    obtain ⟨dir',recorded,rfl⟩ := Option.map_eq_some_iff.mp finished
    obtain ⟨entry,rerecorded,kept,added⟩ := recordShared_spec recorded
    refine coherent.grant isDir rerecorded alone unheld
      ⟨?_,fun _ => ⟨fun node => ?_,?_⟩,fun writer => absurd reader writer⟩
    · cases adds : add with
      | true => exact added adds
      | false =>
        refine kept id.nodeID ?_
        rw [← sharers]
        exact mine reader adds
    · have free := clear node
      rwa [System.Conflicts,if_pos reader] at free
    · rwa [sharers]
  · next reads =>
    obtain ⟨dir',recorded,rfl⟩ := Option.map_eq_some_iff.mp finished
    exact unique (by rw [reads]; exact Request.noConfusion) (.inl rfl) recorded
  · next new writes =>
    obtain ⟨dir',recorded,rfl⟩ := Option.map_eq_some_iff.mp finished
    exact unique (by rw [writes]; exact Request.noConfusion) (.inr rfl) recorded

/-- Where only the record of an owner stands in a reader's way. -/
theorem Coherent.conflicts (coherent : Coherent cfg s) {node : Int} (conflict : s.Conflicts id txn node) :
    if txn.request = .readShared then s.sharers cfg txn.addr = [node] ∧
      (s.recordedState cfg txn.addr = .exclusive ∨ s.recordedState cfg txn.addr = .modified)
    else node ∈ others id.nodeID (s.sharers cfg txn.addr) := by
  unfold System.Conflicts at conflict
  split_ifs at conflict ⊢
  · exact coherent.owned conflict
  · exact mem_others.mpr ⟨coherent.recorded conflict.2,conflict.1⟩

theorem Coherent.arriveHome {accepted : Nat} (coherent : Coherent cfg s) (fresh : s.outstanding id = 0)
    (isTxn : s.txns id = some txn) (careful : Careful cfg s (.arriveHome id accepted victim))
    (arrived : s.arriveHome cfg id txn accepted victim = some s') : Coherent cfg s' := by
  obtain ⟨reading,writing⟩ := careful txn isTxn
  unfold System.arriveHome at arrived
  split at arrived
  · obtain rfl := Option.some.inj arrived
    exact coherent.fail
  · next dir isDir =>
    obtain ⟨sharers,recordedState⟩ := sharers_of_directory isDir
    rw [← sharers,← recordedState] at arrived
    by_cases reader : txn.request = .readShared
    · rw [if_pos reader] at arrived
      by_cases modified : s.recordedState cfg txn.addr = .modified
      · rw [if_pos modified] at arrived
        split at arrived
        · obtain rfl := Option.some.inj arrived
          exact coherent.fail
        · next ownerID rest recorded =>
          obtain rfl := Option.some.inj arrived
          refine coherent.await fresh (fun node conflict => ?_) fun _ => rfl
          have owner := coherent.conflicts conflict
          rw [if_pos reader,recorded] at owner
          rw [(List.cons.inj owner.1).1]
          exact List.mem_singleton_self _
      · rw [if_neg modified] at arrived
        obtain ⟨alone,unheld,unowned⟩ := reading reader modified
        refine coherent.finish isDir arrived alone unheld (fun node conflict => ?_) fun _ adds => by cases adds
        have owner := coherent.conflicts conflict
        rw [if_pos reader] at owner
        rw [System.Conflicts,if_pos reader] at conflict
        exact unowned (owner.2.resolve_right modified) node conflict
    · rw [if_neg reader] at arrived
      dsimp only at arrived
      split at arrived
      · obtain ⟨-,sent⟩ := Option.ite_none_right_eq_some.mp arrived
        obtain rfl := Option.some.inj sent
        refine coherent.set (.inl rfl) fun msg member => ?_
        obtain ⟨sharerID,-,rfl⟩ := List.mem_map.mp member
        rfl
      · split at arrived
        · next none_left =>
          obtain ⟨alone,unheld⟩ := writing reader none_left
          refine coherent.finish isDir arrived alone unheld (fun node conflict => ?_) fun isReader => absurd isReader reader
          have sharer := coherent.conflicts conflict
          rw [if_neg reader,none_left] at sharer
          cases sharer
        · obtain rfl := Option.some.inj arrived
          refine coherent.await fresh (fun node conflict => ?_) fun isReader => absurd isReader reader
          have sharer := coherent.conflicts conflict
          rwa [if_neg reader] at sharer

theorem Coherent.resume {wait : Wait} {msg : CHIMessage} (coherent : Coherent cfg s) (isTxn : s.txns id = some txn)
    (waiting : txn.place = .waiting wait) (resumed : wait.phase = .resumed msg) (careful : Careful cfg s (.resume id victim))
    (answered : s.resume cfg id txn wait msg victim = some s') : Coherent cfg s' := by
  obtain ⟨own,last⟩ := careful txn wait msg isTxn waiting resumed
  have ok := coherent.waits isTxn waiting
  have one : wait.own id = 1 := by
    rw [Wait.own,resumed]
    exact if_pos own
  have counted := ok.counted
  rw [one] at counted
  unfold System.resume at answered
  split at answered
  · next payload dir _ isDir =>
    dsimp only at answered
    split_ifs at answered with finishing
    · have remaining : wait.remaining = 1 := finishing.elim (fun reader => (ok.reader reader).1) fun last => last
      obtain ⟨alone,unheld⟩ := last remaining
      refine coherent.finish isDir answered alone unheld (fun node conflict => ?_) fun reader known => ?_
      · have answered : s.outstanding id = 0 := by omega
        exact List.countP_eq_zero.mp answered _ (ok.snooped node conflict) (concerns_snpMsg ..)
      · exact (ok.reader reader).2 (by simpa using known)
    · obtain rfl := Option.some.inj answered
      refine coherent.goOn isTxn waiting ?_ fun reader => absurd (.inl reader) finishing
      show s.outstanding id + 0 ≤ wait.remaining - 1
      omega
  · cases answered

end

/-! ### Elsewhere -/

theorem Coherent.arriveRequester {data : Option (List UInt8)} {victim : UInt64} (coherent : Coherent cfg s)
    (isTxn : s.txns id = some txn) (back : txn.place = .toRequester data)
    (arrived : s.arriveRequester id txn data victim = some s') : Coherent cfg s' := by
  have ended : ∀ {caches : Int → Option FullyAssociativeCache} {result : Option (List UInt8)},
      (∀ node addr, { s with caches }.lineState node addr = s.lineState node addr ∨
        { s with caches }.lineState node addr = .invalid ∨
          node = id.nodeID ∧ addr = txn.addr ∧ { s with caches }.lineState node addr = txn.request.installs) →
      Coherent cfg ({ s with caches }.setTxn id txn (.returned result)) := by
    intro caches result lines
    refine coherent.move [] (quiet_move rfl (fun _ here => by cases here) rfl fun node addr => ?_) rfl (List.append_nil _).symm
      (fun msg member => absurd member List.not_mem_nil) fun wait here => by cases here
    exact (lines node addr).imp_right (Or.imp_right fun here => ⟨here.1,here.2.1,here.2.2,isTxn,data,back⟩)
  unfold System.arriveRequester at arrived
  split at arrived
  · obtain rfl := Option.some.inj arrived
    exact ended fun node addr => .inl rfl
  · next cache isCache =>
    obtain ⟨filled,fills,rest⟩ := Option.bind_eq_some_iff.mp arrived
    obtain ⟨installed,installs,rest⟩ := Option.bind_eq_some_iff.mp rest
    obtain rfl := Option.some.inj rest
    obtain ⟨⟨line,found,state,-⟩,others⟩ := FullyAssociativeCache.install_spec fills installs
    refine ended fun node addr => ?_
    by_cases here : node = id.nodeID
    · subst here
      rw [System.lineState_of_cache (Function.update_self ..),System.lineState_of_cache isCache]
      by_cases same : addr = txn.addr
      · subst same
        right; right
        refine ⟨rfl,rfl,?_⟩
        rw [FullyAssociativeCache.getState,found]
        exact state
      · exact (others addr same).getState.imp_right .inl
    · left
      show (lineIn (Function.update s.caches id.nodeID (some installed) node) addr).elim _ _ = _
      rw [Function.update_of_ne here]
      rfl

/-- A response takes away nothing and gives nothing; at most it resumes a wait. -/
theorem Coherent.hear {msg : CHIMessage} (coherent : Coherent cfg s) (under_way : msg ∈ s.network)
    (heard : Heard cfg s msg s') : Coherent cfg s' := by
  have before : ∀ {id : TransactionID} {txn' : Txn}, s'.txns id = some txn' → ∃ txn, s.txns id = some txn ∧
      (txn' = txn ∨ ∃ wait, txn.place = .waiting wait ∧ wait.phase = .registered ∧ msg.type = txn.request.waitFor.type ∧
        txn' = { txn with place := .waiting { wait with phase := .resumed msg } }) := by
    intro id txn' isTxn
    rcases heard.txns id with same | hears
    · exact ⟨txn',same ▸ isTxn,.inl rfl⟩
    · obtain ⟨txn,was,rfl⟩ := Option.map_eq_some_iff.mp (hears ▸ isTxn)
      exact ⟨txn,was,hear_cases msg txn⟩
  have granted : ∀ {id : TransactionID} {txn' : Txn}, s'.txns id = some txn' → txn'.Granted → s.txns id = some txn' := by
    rintro id txn' isTxn ⟨data,back⟩
    obtain ⟨txn,was,rfl | ⟨wait,-,-,-,rfl⟩⟩ := before isTxn
    · exact was
    · cases back
  have lines : ∀ node addr, s'.lineState node addr = s.lineState node addr := by
    intro node addr
    rw [System.lineState,System.line,heard.caches]
    rfl
  have quiet : Quiet s s' := by
    refine ⟨fun node addr => ?_,fun node addr => ?_,heard.directories⟩
    · rintro (valid | ⟨id,txn,isTxn,here,line,isGranted⟩)
      · exact .inl (lines node addr ▸ valid)
      · exact .inr ⟨id,txn,granted isTxn isGranted,here,line,isGranted⟩
    · rintro (owner | ⟨id,txn,isTxn,here,line,isGranted,unique⟩)
      · exact .inl (lines node addr ▸ owner)
      · exact .inr ⟨id,txn,granted isTxn isGranted,here,line,isGranted,unique⟩
  refine coherent.of_quiet quiet fun {id txn' wait'} isTxn waiting => ?_
  obtain ⟨txn,was,changed⟩ := before isTxn
  rcases changed with rfl | ⟨wait,was_waiting,registered,type,rfl⟩
  · have ok := coherent.waits was waiting
    refine ⟨(Nat.add_le_add_right (heard.outstanding_le under_way) _).trans ok.counted,fun reader => ?_,
      fun node conflict => heard.snpMsg_mem (ok.snooped node ?_)⟩
    · rw [System.sharers,quiet.entry]
      exact ok.reader reader
    · exact conflicts_of_imp quiet.holds quiet.owns node conflict
  · obtain rfl := Place.waiting.inj waiting
    have ok := coherent.waits was was_waiting
    refine ⟨?_,fun reader => ?_,fun node conflict => heard.snpMsg_mem (ok.snooped node ?_)⟩
    · exact (heard.outstanding_answered under_way type).trans_le ((Nat.le_add_right _ _).trans ok.counted)
    · rw [System.sharers,quiet.entry]
      exact ok.reader reader
    · exact conflicts_of_imp quiet.holds quiet.owns node conflict

/-- The state that the delivery of a snoop leaves at its target. -/
theorem Answered.lineState_eq {msg : CHIMessage} {addr : UInt64} (answered : Answered s msg addr s') :
    s'.lineState msg.targetNodeID addr = snoopedState msg.type (s.lineState msg.targetNodeID addr) := by
  rw [System.lineState,answered.here,System.lineState]
  rcases s.line msg.targetNodeID addr with _ | line
  · exact (snoopedState_invalid msg.type).symm
  · rfl

theorem Answered.quiet {msg : CHIMessage} {addr : UInt64} (answered : Answered s msg addr s') : Quiet s s' := by
  have lines : ∀ node x, s'.lineState node x = s.lineState node x ∨
      s'.lineState node x = snoopedState msg.type (s.lineState node x) := by
    intro node x
    by_cases elsewhere : node ≠ msg.targetNodeID ∨ x ≠ addr
    · left
      rw [System.lineState,answered.elsewhere node x elsewhere]
      rfl
    · obtain ⟨here,line⟩ := not_or.mp elsewhere
      obtain rfl := not_not.mp here
      obtain rfl := not_not.mp line
      exact .inr answered.lineState_eq
  refine ⟨fun node x => Or.imp (fun isValid => ?_) ?_,fun node x => Or.imp (fun owner => ?_) ?_,answered.directories⟩
  · rcases lines node x with same | snooped
    · exact same ▸ isValid
    · intro invalid
      rw [invalid,snoopedState_invalid] at snooped
      exact isValid snooped
  · rw [answered.txns]
    exact id
  · rcases lines node x with same | snooped
    · exact same ▸ owner
    · rw [snooped] at owner
      obtain ⟨notExclusive,notModified⟩ := snoopedState_not_owner msg.type (s.lineState node x)
      exact owner.elim (absurd · notExclusive) (absurd · notModified)
  · rw [answered.txns]
    exact id

theorem snoop_ne_shared {request : Request} (writer : request ≠ .readShared) : request.snoop ≠ opcodeSnpSharedFwd := by
  have apart : opcodeSnpUniqueFwd ≠ opcodeSnpSharedFwd := by decide
  cases request with
  | readShared => exact absurd rfl writer
  | readUnique => exact apart
  | writeUnique data => exact apart

/-- The target of a delivered snoop is in the way no more. -/
theorem Answered.clear {node : Int} (answered : Answered s (snpMsg cfg id txn node) txn.addr s')
    (ungranted : ∀ other txn', s.txns other = some txn' → other.nodeID = node → txn'.addr = txn.addr → ¬ txn'.Granted) :
    ¬ s'.Conflicts id txn node := by
  have state : s'.lineState node txn.addr = snoopedState txn.request.snoop (s.lineState node txn.addr) :=
    answered.lineState_eq
  unfold System.Conflicts
  split_ifs with reader
  · rintro (owner | ⟨other,txn',isTxn,here,line,granted,-⟩)
    · obtain ⟨notExclusive,notModified⟩ := snoopedState_not_owner txn.request.snoop (s.lineState node txn.addr)
      rw [state] at owner
      exact owner.elim notExclusive notModified
    · rw [answered.txns] at isTxn
      exact ungranted other txn' isTxn here line granted
  · rintro ⟨-,valid | ⟨other,txn',isTxn,here,line,granted⟩⟩
    · exact valid (state.trans (if_neg (snoop_ne_shared reader)))
    · rw [answered.txns] at isTxn
      exact ungranted other txn' isTxn here line granted

theorem Coherent.answer {msg : CHIMessage} {payload : CHIPayload} (coherent : Coherent cfg s) (under_way : msg ∈ s.network)
    (snoop : isSnoop msg.type = true) (isPayload : msg.payload = .value payload) (careful : Careful cfg s (.deliver msg))
    (answered : Answered s msg payload.addr s') : Coherent cfg s' := by
  have quiet := answered.quiet
  obtain ⟨resp,network,-⟩ := answered.network
  refine coherent.of_quiet quiet fun {id txn wait} isTxn waiting => ?_
  rw [answered.txns] at isTxn
  have ok := coherent.waits isTxn waiting
  have fewer := answered.outstanding_le under_way snoop id
  refine ⟨(Nat.add_le_add_right fewer _).trans ok.counted,fun reader => ?_,fun node conflict => ?_⟩
  · rw [System.sharers,quiet.entry]
    exact ok.reader reader
  · have member := ok.snooped node (conflicts_of_imp quiet.holds quiet.owns node conflict)
    rw [network]
    by_cases this_one : snpMsg cfg id txn node = msg
    · subst this_one
      have line : payload.addr = txn.addr := by
        rw [← Payload.value.inj isPayload]
        rfl
      rw [line] at answered
      exact absurd conflict (answered.clear (careful snoop txn wait isTxn waiting))
    · exact List.mem_append_left _ ((List.mem_erase_of_ne this_one).mpr member)

theorem Coherent.deliver {msg : CHIMessage} (coherent : Coherent cfg s) (under_way : msg ∈ s.network)
    (careful : Careful cfg s (.deliver msg)) : Coherent cfg ({ s with network := s.network.erase msg }.receive cfg msg) := by
  rcases receive_cases cfg s msg with ⟨snoop,payload,isPayload,answered⟩ | heard
  · exact coherent.answer under_way snoop isPayload careful answered
  · exact coherent.hear under_way heard

/-! ### Runs -/

/-- A careful step keeps the record straight. -/
theorem Coherent.step {action : Action} (coherent : Coherent cfg s) (fresh : Fresh s) (careful : Careful cfg s action)
    (stepped : step cfg s action = some s') : Coherent cfg s' := by
  cases action with
  | start id request addr =>
    obtain ⟨-,started⟩ := Option.ite_none_right_eq_some.mp stepped
    obtain rfl := Option.some.inj started
    exact coherent.start id request addr
  | arriveHome id accepted victim =>
    obtain ⟨txn,isTxn,arrived⟩ := Option.bind_eq_some_iff.mp stepped
    split at arrived
    · next toHome =>
      refine coherent.arriveHome (fresh id fun txn' isTxn' => ?_) isTxn careful arrived
      rw [← Option.some.inj (isTxn.symm.trans isTxn'),toHome]
    · cases arrived
  | register id =>
    obtain ⟨txn,isTxn,registered⟩ := Option.bind_eq_some_iff.mp stepped
    split at registered
    · next wait waiting =>
      obtain ⟨queued,registered⟩ := Option.ite_none_right_eq_some.mp registered
      obtain rfl := Option.some.inj registered
      have ok := coherent.waits isTxn waiting
      have counted := ok.counted
      rw [Wait.own,queued] at counted
      exact coherent.goOn isTxn waiting counted fun reader => ⟨(ok.reader reader).1,rfl⟩
    · cases registered
  | deliver msg =>
    obtain ⟨under_way,delivered⟩ := Option.ite_none_right_eq_some.mp stepped
    obtain rfl := Option.some.inj delivered
    exact coherent.deliver under_way careful
  | resume id victim =>
    obtain ⟨txn,isTxn,resumed⟩ := Option.bind_eq_some_iff.mp stepped
    split at resumed
    · next wait waiting =>
      split at resumed
      · next msg answered => exact coherent.resume isTxn waiting answered careful resumed
      · cases resumed
    · cases resumed
  | arriveRequester id victim =>
    obtain ⟨txn,isTxn,arrived⟩ := Option.bind_eq_some_iff.mp stepped
    split at arrived
    · next data back => exact coherent.arriveRequester isTxn back arrived
    · cases arrived
  | fail id =>
    obtain ⟨txn,isTxn,failed⟩ := Option.bind_eq_some_iff.mp stepped
    split at failed
    · cases failed
    · cases failed
    · obtain rfl := Option.some.inj failed
      exact coherent.fail

theorem coherent_initial (initial : s.Initial) : Coherent cfg s := by
  have none_valid : ∀ node addr, s.lineState node addr = .invalid := by
    intro node addr
    rcases cache : s.caches node with _ | c
    · rw [System.lineState,System.line,cache]
      rfl
    · rw [System.lineState_of_cache cache,FullyAssociativeCache.getState,initial.caches node c cache]
      rfl
  have none_held : ∀ node addr, ¬ s.Holds node addr := by
    rintro node addr (valid | ⟨id,txn,isTxn,-⟩)
    · exact valid (none_valid node addr)
    · cases (initial.txns id).symm.trans isTxn
  refine ⟨fun holds => absurd holds (none_held _ _),fun owns => absurd owns.holds (none_held _ _),fun isTxn => ?_⟩
  cases (initial.txns _).symm.trans isTxn

/-- As long as every step is careful, a requester that has a line in Exclusive or Modified
    state is the only one that has it. -/
theorem owner_is_alone (cfg : Config) (s₀ s : System) (initial : s₀.Initial)
    (reached : Reaches (step cfg) (Careful cfg) s₀ s) : s.SingleWriter := by
  have both : Coherent cfg s ∧ Fresh s := reached.invariant (P := fun s => Coherent cfg s ∧ Fresh s)
    ⟨coherent_initial initial,fresh_initial initial⟩ fun _ now careful stepped =>
      ⟨now.1.step now.2 careful stepped,fresh_step now.2 stepped⟩
  exact both.1.single_owner

/-! ### One transaction after the other -/

/-- The record of a line can be set without giving up another. -/
def HasRoom (cfg : Config) (s : System) (addr : UInt64) : Prop :=
  ∀ dir ∈ s.directories (cfg.home addr), (dir.find addr).isSome = true ∨ ¬ dir.Full

/-- The message that the transaction's wait has been answered with. -/
def Txn.answer (txn : Txn) : Option CHIMessage :=
  match txn.place with
  | .waiting { phase := .resumed msg, .. } => some msg
  | _ => none

theorem answer_of_resumed {wait : Wait} {msg : CHIMessage} (waiting : txn.place = .waiting wait)
    (resumed : wait.phase = .resumed msg) : txn.answer = some msg := by
  obtain ⟨sharers,remaining,data,phase⟩ := wait
  obtain rfl : phase = .resumed msg := resumed
  rw [Txn.answer,waiting]

/-- A step of the transaction alone: a reader does not find an Exclusive record, there is room
    in the directory, and the messages are the transaction's. -/
def Serial (cfg : Config) (id : TransactionID) (s : System) : Action → Prop
  | .arriveHome other _ _ => other = id ∧ ∀ txn ∈ s.txns id, HasRoom cfg s txn.addr ∧
      (txn.request = .readShared → s.recordedState cfg txn.addr ≠ .exclusive)
  | .resume other _ => other = id ∧ ∀ txn ∈ s.txns id, HasRoom cfg s txn.addr ∧
      ∀ msg ∈ txn.answer, msg.transactionID = id
  | .deliver msg => msg.transactionID = id
  | action => action.actor = some id

instance (addr : UInt64) : Decidable (HasRoom cfg s addr) := inferInstanceAs (Decidable (∀ dir ∈ _, _))

instance (id : TransactionID) : (action : Action) → Decidable (Serial cfg id s action)
  | .start _ _ _ => inferInstanceAs (Decidable (_ = _))
  | .arriveHome _ _ _ => inferInstanceAs (Decidable (_ ∧ ∀ txn ∈ _, _ ∧ (_ → _)))
  | .register _ => inferInstanceAs (Decidable (_ = _))
  | .deliver _ => inferInstanceAs (Decidable (_ = _))
  | .resume _ _ => inferInstanceAs (Decidable (_ ∧ ∀ txn ∈ _, _ ∧ ∀ msg ∈ _, _))
  | .arriveRequester _ _ => inferInstanceAs (Decidable (_ = _))
  | .fail _ => inferInstanceAs (Decidable (_ = _))

theorem Alone.aloneOnLine (alone : Alone s id) (txn : Txn) : AloneOnLine s id txn := by
  intro other txn' wait different isTxn _ waiting
  exact absurd waiting ((alone other txn' different isTxn).not_waiting wait)

theorem HasRoom.givesUpUnheld {addr : UInt64} (room : HasRoom cfg s addr) (victim : UInt64) :
    GivesUpUnheld cfg s addr victim := by
  intro dir isDir absent full
  rcases room dir isDir with found | free
  · rw [absent] at found
    cases found
  · exact absurd full free

/-- Transactions that run one after the other are careful. -/
theorem Serial.careful {action : Action} (serial : Serial cfg id s action) (alone : Alone s id) : Careful cfg s action := by
  cases action with
  | arriveHome other accepted victim =>
    obtain ⟨rfl,checked⟩ := serial
    intro txn isTxn
    obtain ⟨room,unowned⟩ := checked txn isTxn
    exact ⟨fun reader _ => ⟨alone.aloneOnLine txn,room.givesUpUnheld victim,fun owned => absurd owned (unowned reader)⟩,
      fun _ _ => ⟨alone.aloneOnLine txn,room.givesUpUnheld victim⟩⟩
  | resume other victim =>
    obtain ⟨rfl,checked⟩ := serial
    intro txn wait msg isTxn waiting resumed
    obtain ⟨room,own⟩ := checked txn isTxn
    exact ⟨own msg (answer_of_resumed waiting resumed),fun _ => ⟨alone.aloneOnLine txn,room.givesUpUnheld victim⟩⟩
  | deliver msg =>
    obtain rfl : msg.transactionID = id := serial
    rintro - txn wait isTxn waiting other txn' isTxn' - - ⟨data,granted⟩
    by_cases same : other = msg.transactionID
    · subst same
      rw [Option.some.inj (isTxn'.symm.trans isTxn),waiting] at granted
      cases granted
    · rcases alone other txn' same isTxn' with ⟨_,returned⟩ | failed
      · cases returned.symm.trans granted
      · cases failed.symm.trans granted
  | start other request addr => trivial
  | register other => trivial
  | arriveRequester other victim => trivial
  | fail other => trivial

theorem Serial.mine {action : Action} (serial : Serial cfg id s action) (other : TransactionID)
    (actor : action.actor = some other) : other = id := by
  cases action with
  | deliver msg => cases actor
  | arriveHome mover accepted victim => exact (Option.some.inj actor).symm.trans serial.1
  | resume mover victim => exact (Option.some.inj actor).symm.trans serial.1
  | start mover request addr => exact Option.some.inj (actor.symm.trans serial)
  | register mover => exact Option.some.inj (actor.symm.trans serial)
  | arriveRequester mover victim => exact Option.some.inj (actor.symm.trans serial)
  | fail mover => exact Option.some.inj (actor.symm.trans serial)

theorem reaches_of_serial (alone : Alone s id) (run : Reaches (step cfg) (Serial cfg id) s s') :
    Reaches (step cfg) (Careful cfg) s s' ∧ Alone s' id := by
  induction run with
  | refl => exact ⟨.refl,alone⟩
  | step _ action serial stepped ih =>
    exact ⟨ih.1.step action (serial.careful ih.2) stepped,ih.2.step serial.mine stepped⟩

end

/-! ### Runs of two requesters -/

/-- Two requesters without direct transfer, and their home node. -/
def oneHome : Config where
  home _ := 0
  useDMT _ := false

def twoRequesters : System where
  caches node := if node = 0 then none else some (.newFullyAssociativeCache 4)
  directories node := if node = 0 then some (.newFullyAssociativeDirectory 4) else none
  txns _ := none
  network := []

theorem initial_twoRequesters : twoRequesters.Initial := by
  refine ⟨fun node cache isCache => ?_,fun node dir isDir => ?_,fun _ => rfl,rfl⟩
  · obtain ⟨-,same⟩ := Option.ite_none_left_eq_some.mp isCache
    rw [← Option.some.inj same]
    rfl
  · obtain ⟨-,same⟩ := Option.ite_none_right_eq_some.mp isDir
    rw [← Option.some.inj same]
    rfl

def readerRun : List Action := [.start ⟨1,1⟩ .readShared 0,.arriveHome ⟨1,1⟩ 0 0,.arriveRequester ⟨1,1⟩ 0]

def snoopOfReader : CHIMessage := snpMsg oneHome ⟨2,1⟩ ⟨.readUnique,0,.toHome⟩ 1

def answerOfReader : CHIMessage := sendSnpRespNoData 1 snoopOfReader (newCHIPayload opcodeSnpUniqueFwd 0) 0

def snoopRun : List Action :=
  [.start ⟨2,1⟩ .readUnique 0,.arriveHome ⟨2,1⟩ 1 0,.register ⟨2,1⟩,.deliver snoopOfReader,.deliver answerOfReader,
    .resume ⟨2,1⟩ 0,.arriveRequester ⟨2,1⟩ 0]

/-- A reader's copy is invalidated before another requester has the line for itself. -/
theorem owner_is_alone_after_reader : ∃ s, Reaches (step oneHome) (Careful oneHome) twoRequesters s ∧
    s.lineState 1 0 = .invalid ∧ s.lineState 2 0 = .exclusive ∧ s.SingleWriter := by
  have places : (runActions (step oneHome) (Serial oneHome ⟨1,1⟩) readerRun twoRequesters).map
      (fun s => (s.txns ⟨1,1⟩).map Txn.place) = some (some (.returned (some (loadDataFromMemory 0)))) := by decide +kernel
  have states : ((runActions (step oneHome) (Serial oneHome ⟨1,1⟩) readerRun twoRequesters).bind
      (runActions (step oneHome) (Serial oneHome ⟨2,1⟩) snoopRun)).map (fun s => (s.lineState 1 0,s.lineState 2 0)) =
      some (.invalid,.exclusive) := by decide +kernel
  obtain ⟨s',both,lines⟩ := Option.map_eq_some_iff.mp states
  obtain ⟨s,first,second⟩ := Option.bind_eq_some_iff.mp both
  obtain ⟨careful,alone⟩ := reaches_of_serial (fun _ _ _ isTxn => by cases isTxn) (reaches_runActions readerRun first)
  have rest : ∀ txn, s.txns ⟨1,1⟩ = some txn → txn.AtRest := by
    intro txn isTxn
    rw [first,Option.map_some,isTxn] at places
    exact .inl ⟨_,Option.some.inj (Option.some.inj places)⟩
  have run := careful.trans (reaches_of_serial (alone.next rest ⟨2,1⟩) (reaches_runActions snoopRun second)).1
  obtain ⟨gone,owner⟩ := Prod.mk.inj lines
  exact ⟨s',run,gone,owner,owner_is_alone oneHome twoRequesters s' initial_twoRequesters run⟩

/-- A reader finds the record Exclusive, takes the data from the memory and snoops nobody. -/
theorem exclusive_beside_shared : ∃ s, Reachable (step oneHome) twoRequesters s ∧
    s.lineState 1 0 = .exclusive ∧ s.lineState 2 0 = .shared ∧ ¬ s.SingleWriter := by
  have states : (runActions (step oneHome) (fun _ _ => True)
      [.start ⟨1,1⟩ .readUnique 0,.arriveHome ⟨1,1⟩ 0 0,.arriveRequester ⟨1,1⟩ 0,.start ⟨2,1⟩ .readShared 0,
        .arriveHome ⟨2,1⟩ 0 0,.arriveRequester ⟨2,1⟩ 0] twoRequesters).map (fun s => (s.lineState 1 0,s.lineState 2 0)) =
      some (.exclusive,.shared) := by decide +kernel
  obtain ⟨s,ran,lines⟩ := Option.map_eq_some_iff.mp states
  obtain ⟨owner,reader⟩ := Prod.mk.inj lines
  refine ⟨s,reaches_runActions _ ran,owner,reader,fun single => ?_⟩
  have gone := single 1 2 0 (by decide) (.inl owner)
  cases reader.symm.trans gone

end FlowSim.Chi
