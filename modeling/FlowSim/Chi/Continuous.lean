import FlowSim.Chi.Snoops
import FlowSim.Chi.Records
import FlowSim.Transaction.Manager

/-!
The CHI transactions that migrate: from the requester to the home node of the address and
back. A transaction runs without a break from one point where it yields to the next, and
what other transactions and snoop handlers do comes in between. Messages are delivered in
any order; one that is no snoop resumes every transaction at the node whose wait it matches.
-/
namespace FlowSim.Chi
open FlowSim.Cache FlowSim.Directory FlowSim.Transaction FlowSim.Lib
set_option linter.unusedSimpArgs false

/-- The home node of each address, and the nodes with direct transfer. -/
structure Config where
  home : UInt64 → Int
  useDMT : Int → Bool

inductive Request where
  | readShared
  | readUnique
  | writeUnique (data : Option (List UInt8))
deriving DecidableEq, Repr

/-- How far a wait is: its command has not been handled yet, it is registered, or a message
    has come for it. -/
inductive WaitPhase where
  | queued
  | registered
  | resumed (msg : CHIMessage)
deriving DecidableEq, Repr

/-- A wait for snoop responses: the sharers that were read, the responses still to come, and
    the first data in those that have come. -/
structure Wait where
  sharers : List Int
  remaining : Nat
  data : Option (List UInt8)
  phase : WaitPhase
deriving DecidableEq, Repr

/-- Where a transaction is: on its way to the home node, waiting there, on its way back, or
    at its end. -/
inductive Place where
  | toHome
  | waiting (wait : Wait)
  | toRequester (data : Option (List UInt8))
  | returned (data : Option (List UInt8))
  | failed
deriving DecidableEq, Repr

structure Txn where
  request : Request
  addr : UInt64
  place : Place
deriving DecidableEq, Repr

/-- The caches and directories of the nodes, the transactions that have been started, and
    the messages that are under way. -/
structure System where
  caches : Int → Option FullyAssociativeCache
  directories : Int → Option FullyAssociativeDirectory
  txns : TransactionID → Option Txn
  network : List CHIMessage

namespace Request

/-- The response that the transaction waits for. -/
def waitFor : Request → WaitForMessage
  | .readShared => { type := opcodeSnpRespData }
  | .readUnique => { type := opcodeSnpResp }
  | .writeUnique _ => { type := opcodeSnpResp }

def opcode : Request → Int
  | .readShared => opcodeReadShared
  | .readUnique => opcodeReadUnique
  | .writeUnique _ => opcodeReadUnique

/-- The state in which the requester installs the line. -/
def installs : Request → Cache.State
  | .readShared => .shared
  | .readUnique => .exclusive
  | .writeUnique _ => .modified

def snoop : Request → Int
  | .readShared => opcodeSnpSharedFwd
  | .readUnique => opcodeSnpUniqueFwd
  | .writeUnique _ => opcodeSnpUniqueFwd

/-- What the transaction returns besides an error: a writer nothing. -/
def result (request : Request) (data : Option (List UInt8)) : Option (List UInt8) :=
  match request with
  | .writeUnique _ => none
  | _ => data

/-- What the requester does when its cache has the line in a state that will do: its data
    is returned, or the new data is written. -/
def servedLocally (request : Request) (cache : FullyAssociativeCache) (addr : UInt64) :
    Option (Option (List UInt8) × FullyAssociativeCache) :=
  match request with
  | .readShared => if cache.isPresent addr ∧ cache.getState addr ≠ .invalid then some (cache.getData addr,cache) else none
  | .readUnique =>
    if cache.isPresent addr ∧ (cache.getState addr = .exclusive ∨ cache.getState addr = .modified) then
      some (cache.getData addr,cache)
    else none
  | .writeUnique data =>
    if cache.isPresent addr ∧ cache.getState addr = .modified then (cache.setData addr addr data).map fun cache => (none,cache)
    else none

end Request

/-- Whether the transaction waits at the node for such a message. -/
def Txn.hears (cfg : Config) (msg : CHIMessage) (txn : Txn) : Bool :=
  match txn.place with
  | .waiting wait => wait.phase = .registered && cfg.home txn.addr = msg.targetNodeID && matchesWait msg txn.request.waitFor
  | _ => false

/-- A transaction after a message has been routed. -/
def Txn.hear (cfg : Config) (msg : CHIMessage) (txn : Txn) : Txn :=
  match txn.place with
  | .waiting wait => if txn.hears cfg msg then { txn with place := .waiting { wait with phase := .resumed msg } } else txn
  | _ => txn

namespace System

def setTxn (s : System) (id : TransactionID) (txn : Txn) (place : Place) : System :=
  { s with txns := Function.update s.txns id (some { txn with place }) }

def send (s : System) (msgs : List CHIMessage) : System := { s with network := s.network ++ msgs }

def setCache (s : System) (node : Int) (cache : Option FullyAssociativeCache) : System :=
  { s with caches := Function.update s.caches node cache }

def setDirectory (s : System) (node : Int) (dir : FullyAssociativeDirectory) : System :=
  { s with directories := Function.update s.directories node (some dir) }

end System

/-! ### Messages of a transaction -/

section
variable (cfg : Config) (id : TransactionID) (txn : Txn)

def reqMsg : CHIMessage where
  transactionID := id
  type := txn.request.opcode
  sourceNodeID := id.nodeID
  targetNodeID := cfg.home txn.addr
  payload := .value { newCHIPayload txn.request.opcode txn.addr with
    returnNID := id.nodeID, returnTxnID := id.txnID
    data := match txn.request with
      | .writeUnique data => data
      | _ => none }

def snpMsg (sharerID : Int) : CHIMessage where
  transactionID := id
  type := txn.request.snoop
  sourceNodeID := cfg.home txn.addr
  targetNodeID := sharerID
  payload := .value { newCHIPayload txn.request.snoop txn.addr with returnNID := id.nodeID, returnTxnID := id.txnID }

/-- `CompData` to a reader, and `Comp` without data to a writer. -/
def compMsg (data : Option (List UInt8)) : CHIMessage :=
  match txn.request with
  | .writeUnique _ =>
    { transactionID := id, type := opcodeComp, sourceNodeID := cfg.home txn.addr, targetNodeID := id.nodeID,
      payload := .value (newCHIPayload opcodeComp txn.addr) }
  | _ =>
    { transactionID := id, type := opcodeCompData, sourceNodeID := cfg.home txn.addr, targetNodeID := id.nodeID,
      payload := .value { newCHIPayload opcodeCompData txn.addr with data } }

end

/-! ### The home node -/

/-- The end of the home node's part: it has recorded the requester, answers, and lets the
    transaction migrate back. -/
def System.grant (cfg : Config) (s : System) (id : TransactionID) (txn : Txn) (data : Option (List UInt8))
    (dir : FullyAssociativeDirectory) : System :=
  ((s.setDirectory (cfg.home txn.addr) dir).send [compMsg cfg id txn data]).setTxn id txn (.toRequester data)

/-- What follows the last response. A reader without data gets that of the memory. -/
def System.finish (cfg : Config) (s : System) (id : TransactionID) (txn : Txn) (dir : FullyAssociativeDirectory)
    (victim : UInt64) (data : Option (List UInt8)) (add : Bool) : Option System :=
  match txn.request with
  | .readShared => (recordShared dir victim txn.addr id.nodeID add).map fun dir => s.grant cfg id txn data dir
  | .readUnique =>
    (recordUnique dir victim txn.addr id.nodeID .exclusive).map fun dir =>
      s.grant cfg id txn (some (data.getD (loadDataFromMemory txn.addr))) dir
  | .writeUnique new =>
    (recordUnique dir victim txn.addr id.nodeID .modified).map fun dir => s.grant cfg id txn new dir

/-- The other sharers, which a transaction that wants the only copy snoops. -/
def others (rnNodeID : Int) (sharers : List Int) : List Int := sharers.filter fun sharerID => sharerID ≠ rnNodeID

/-- Sends snoops and waits for as many responses. -/
def System.await (cfg : Config) (s : System) (id : TransactionID) (txn : Txn) (sharers targets : List Int) : System :=
  (s.send (targets.map (snpMsg cfg id txn))).setTxn id txn
    (.waiting { sharers, remaining := targets.length, data := none, phase := .queued })

/-- The arrival at the home node. The yield channel may be full before all snoops are sent,
    when `accepted` of them went through. -/
def System.arriveHome (cfg : Config) (s : System) (id : TransactionID) (txn : Txn) (accepted : Nat) (victim : UInt64) :
    Option System :=
  match s.directories (cfg.home txn.addr) with
  | none => some (s.setTxn id txn .failed)
  | some dir =>
    if txn.request = .readShared then
      -- a directory is never in a state Owned
      if dir.getState txn.addr = .modified then
        match dir.getSharers txn.addr with
        | [] => some (s.setTxn id txn .failed)
        | ownerID :: _ => some (s.await cfg id txn (dir.getSharers txn.addr) [ownerID])
      else s.finish cfg id txn dir victim (some (loadDataFromMemory txn.addr)) true
    else
      let sharers := dir.getSharers txn.addr
      let targets := others id.nodeID sharers
      if accepted < targets.length then
        if yieldCapacity ≤ accepted then
          some ((s.send ((targets.take accepted).map (snpMsg cfg id txn))).setTxn id txn .failed)
        else none
      else if targets = [] then s.finish cfg id txn dir victim none true
      else some (s.await cfg id txn sharers targets)

/-- What a transaction does with the message that its wait was answered with. -/
def System.resume (cfg : Config) (s : System) (id : TransactionID) (txn : Txn) (wait : Wait) (msg : CHIMessage)
    (victim : UInt64) : Option System :=
  match msg.payload,s.directories (cfg.home txn.addr) with
  | .value payload,some dir =>
    let data := match txn.request with
      | .readShared => payload.data
      | .readUnique => wait.data.or payload.data
      | .writeUnique _ => none
    if txn.request = .readShared ∨ wait.remaining = 1 then
      s.finish cfg id txn dir victim data (id.nodeID ∉ wait.sharers)
    else some (s.setTxn id txn (.waiting { wait with remaining := wait.remaining - 1, data, phase := .queued }))
  | _,_ => none

/-! ### Nodes -/

/-- A new transaction: it ends at once when its requester's cache will do, else it sends its
    request and migrates. -/
def System.start (cfg : Config) (s : System) (id : TransactionID) (request : Request) (addr : UInt64) : System :=
  let txn : Txn := { request, addr, place := .toHome }
  match (s.caches id.nodeID).bind fun cache => request.servedLocally cache addr with
  | some (data,cache) => (s.setCache id.nodeID (some cache)).setTxn id txn (.returned data)
  | none => (s.send [reqMsg cfg id txn]).setTxn id txn .toHome

/-- Back at the requester: the line is installed if there is a cache, and the transaction
    ends. -/
def System.arriveRequester (s : System) (id : TransactionID) (txn : Txn) (data : Option (List UInt8)) (victim : UInt64) :
    Option System :=
  match s.caches id.nodeID with
  | none => some (s.setTxn id txn (.returned (txn.request.result data)))
  | some cache => do
    let cache ← cache.setData victim txn.addr data
    let cache ← cache.setState victim txn.addr txn.request.installs
    return (s.setCache id.nodeID (some cache)).setTxn id txn (.returned (txn.request.result data))

/-- A snooped node changes its cache and answers. -/
def System.answerSnoop (cfg : Config) (s : System) (msg : CHIMessage) (payload : CHIPayload)
    (handler : SnoopHandler) : System :=
  let node := msg.targetNodeID
  let answer := handler (cfg.useDMT node) node (s.caches node) msg payload
  (s.setCache node answer.2).send [answer.1]

/-- What the target of a message does with it: a snoop is answered, any other message resumes
    the transactions at the node that wait for such a message. -/
def System.receive (cfg : Config) (s : System) (msg : CHIMessage) : System :=
  match msg.payload with
  | .value payload =>
    if msg.type = opcodeSnpSharedFwd then s.answerSnoop cfg msg payload snpSharedFwdContinuous
    else if msg.type = opcodeSnpUniqueFwd then s.answerSnoop cfg msg payload snpUniqueFwdContinuous
    else { s with txns := fun id => (s.txns id).map (Txn.hear cfg msg) }
  | _ => s

/-- What can happen next. A migration may end as soon as it has begun, a message may be
    delivered once at any time, and a wait may be given up at any time. -/
inductive Action where
  | start (id : TransactionID) (request : Request) (addr : UInt64)
  | arriveHome (id : TransactionID) (accepted : Nat) (victim : UInt64)
  | register (id : TransactionID)
  | deliver (msg : CHIMessage)
  | resume (id : TransactionID) (victim : UInt64)
  | arriveRequester (id : TransactionID) (victim : UInt64)
  | fail (id : TransactionID)
deriving DecidableEq, Repr

/-- One action, if it can happen. -/
def step (cfg : Config) (s : System) : Action → Option System
  | .start id request addr => if s.txns id = none then some (s.start cfg id request addr) else none
  | .arriveHome id accepted victim =>
    (s.txns id).bind fun txn =>
      match txn.place with
      | .toHome => s.arriveHome cfg id txn accepted victim
      | _ => none
  | .register id =>
    (s.txns id).bind fun txn =>
      match txn.place with
      | .waiting wait =>
        if wait.phase = .queued then some (s.setTxn id txn (.waiting { wait with phase := .registered })) else none
      | _ => none
  | .deliver msg => if msg ∈ s.network then some ({ s with network := s.network.erase msg }.receive cfg msg) else none
  | .resume id victim =>
    (s.txns id).bind fun txn =>
      match txn.place with
      | .waiting wait =>
        match wait.phase with
        | .resumed msg => s.resume cfg id txn wait msg victim
        | _ => none
      | _ => none
  | .arriveRequester id victim =>
    (s.txns id).bind fun txn =>
      match txn.place with
      | .toRequester data => s.arriveRequester id txn data victim
      | _ => none
  | .fail id =>
    (s.txns id).bind fun txn =>
      match txn.place with
      | .returned _ => none
      | .failed => none
      | _ => some (s.setTxn id txn .failed)

end FlowSim.Chi
