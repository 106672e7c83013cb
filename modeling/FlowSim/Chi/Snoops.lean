import FlowSim.Cache.FullyAssociativeCache
import FlowSim.Transaction.Types

/-!
The messages of the CHI transactions, and how a node answers a snoop. A snooped node changes
its line first and answers afterwards: without data, with data to the home node, or with
data straight to the requester when direct transfer is on.
-/
namespace FlowSim.Chi
open FlowSim.Cache FlowSim.Transaction
set_option linter.unusedSimpArgs false

/-! ### Messages -/

def opcodeReadShared : Int := 0x00
def opcodeReadUnique : Int := 0x03
def opcodeComp : Int := 0x20
def opcodeSnpResp : Int := 0x24
def opcodeSnpRespDataFwded : Int := 0x26
def opcodeCompData : Int := 0x30
def opcodeSnpRespData : Int := 0x32
def opcodeSnpSharedFwd : Int := 0x40
def opcodeSnpUniqueFwd : Int := 0x41

/-- The error code and the extension fields of a payload are left out. -/
structure CHIPayload where
  addr : UInt64
  opcode : Int
  returnNID : Int
  returnTxnID : Int
  data : Option (List UInt8)
deriving DecidableEq, Repr

def newCHIPayload (opcode : Int) (addr : UInt64) : CHIPayload := { addr, opcode, returnNID := 0, returnTxnID := 0, data := none }

abbrev CHIMessage := Message CHIPayload

/-- The dummy data of the memory: 64 bytes that count on from the address. -/
def loadDataFromMemory (addr : UInt64) : List UInt8 := (List.range 64).map fun i => (addr + UInt64.ofNat i).toUInt8

/-! ### Snoop handlers -/

def sendSnpRespNoData (nodeID : Int) (snpMsg : CHIMessage) (payload : CHIPayload) (targetNodeID : Int) : CHIMessage where
  transactionID := snpMsg.transactionID
  type := opcodeSnpResp
  sourceNodeID := nodeID
  targetNodeID := targetNodeID
  payload := .value (newCHIPayload opcodeSnpResp payload.addr)

/-- The answer with data: to the requester when direct transfer is on and the requester is
    another node, else back to the home node. -/
def sendSnpRespData (useDMT : Bool) (snpedNodeID : Int) (snpMsg : CHIMessage) (payload : CHIPayload)
    (data : Option (List UInt8)) : CHIMessage :=
  let respPayload := { newCHIPayload opcodeSnpRespData payload.addr with data }
  if useDMT ∧ payload.returnNID ≠ snpedNodeID then
    { transactionID := snpMsg.transactionID, type := opcodeSnpRespDataFwded, sourceNodeID := snpedNodeID,
      targetNodeID := payload.returnNID,
      payload := .value { respPayload with returnNID := payload.returnNID, returnTxnID := payload.returnTxnID } }
  else
    { transactionID := snpMsg.transactionID, type := opcodeSnpRespData, sourceNodeID := snpedNodeID,
      targetNodeID := snpMsg.sourceNodeID, payload := .value respPayload }

/-- Dirty and clean exclusive lines are given away, shared ones are not. -/
def shouldProvideData : State → Bool
  | .modified => true
  | .owned => true
  | .exclusive => true
  | .shared => false
  | .invalid => false

/-- A snoop handler, by whether direct transfer is on, the snooped node, its cache, and the
    snoop with its payload. -/
abbrev SnoopHandler := Bool → Int → Option FullyAssociativeCache → CHIMessage → CHIPayload →
  CHIMessage × Option FullyAssociativeCache

/-- The answer to a snoop for a shared copy, and the cache then. -/
def snpSharedFwdContinuous (useDMT : Bool) (snpedNodeID : Int) (cache : Option FullyAssociativeCache) (snpMsg : CHIMessage)
    (payload : CHIPayload) : CHIMessage × Option FullyAssociativeCache :=
  match cache with
  | none => (sendSnpRespNoData snpedNodeID snpMsg payload snpMsg.sourceNodeID,none)
  | some cache =>
    match cache.lines.lookup payload.addr with
    | none => (sendSnpRespNoData snpedNodeID snpMsg payload snpMsg.sourceNodeID,some cache)
    | some line =>
      if shouldProvideData line.state then
        (sendSnpRespData useDMT snpedNodeID snpMsg payload (cache.getData payload.addr),
          some (cache.putLine payload.addr { line with state := .shared }))
      else (sendSnpRespNoData snpedNodeID snpMsg payload snpMsg.sourceNodeID,some cache)

/-- The answer to a snoop for the only copy, and the cache then: whatever its state, the
    line is invalid. -/
def snpUniqueFwdContinuous (useDMT : Bool) (snpedNodeID : Int) (cache : Option FullyAssociativeCache) (snpMsg : CHIMessage)
    (payload : CHIPayload) : CHIMessage × Option FullyAssociativeCache :=
  match cache with
  | none => (sendSnpRespNoData snpedNodeID snpMsg payload snpMsg.sourceNodeID,none)
  | some cache =>
    match cache.lines.lookup payload.addr with
    | none => (sendSnpRespNoData snpedNodeID snpMsg payload snpMsg.sourceNodeID,some cache)
    | some line =>
      (if shouldProvideData line.state then sendSnpRespData useDMT snpedNodeID snpMsg payload (cache.getData payload.addr)
        else sendSnpRespNoData snpedNodeID snpMsg payload snpMsg.sourceNodeID,
        some (cache.putLine payload.addr { line with state := .invalid }))

/-! ### What a snoop does -/

def isSnoop (type : Int) : Bool := type = opcodeSnpSharedFwd || type = opcodeSnpUniqueFwd

/-- The line of an address in a cache that a node may have. -/
def lineIn (cache : Option FullyAssociativeCache) (addr : UInt64) : Option CacheLine :=
  cache.bind fun cache => cache.lines.lookup addr

/-- The state that a snoop for a shared copy leaves. -/
def downgraded (state : Cache.State) : Cache.State := if shouldProvideData state then .shared else state

/-- The state that a snoop leaves. -/
def snoopedState (type : Int) (state : Cache.State) : Cache.State :=
  if type = opcodeSnpSharedFwd then downgraded state else .invalid

theorem snoopedState_invalid (type : Int) : snoopedState type .invalid = .invalid := by
  unfold snoopedState
  split_ifs <;> rfl

theorem snoopedState_not_owner (type : Int) (state : Cache.State) :
    snoopedState type state ≠ .exclusive ∧ snoopedState type state ≠ .modified := by
  unfold snoopedState
  split_ifs
  · cases state <;> decide
  · decide

/-- What a snoop does to the line of the address, and how the node answers: a valid line's data
    is what it gives away. -/
structure Snooped (next : Cache.State → Cache.State) (before after : Option FullyAssociativeCache) (addr : UInt64)
    (msg resp : CHIMessage) : Prop where
  transactionID : resp.transactionID = msg.transactionID
  response : isSnoop resp.type = false
  here : lineIn after addr = (lineIn before addr).map fun line => { line with state := next line.state }
  others : ∀ x ≠ addr, lineIn after x = lineIn before x
  given : resp.type = opcodeSnpRespData → ∀ payload, resp.payload = .value payload →
    ∀ line, lineIn before addr = some line → line.state ≠ .invalid → payload.data = line.data

section
variable {useDMT : Bool} {node : Int} {cache : Option FullyAssociativeCache} {msg : CHIMessage} {payload : CHIPayload}

theorem lineIn_putLine {c : FullyAssociativeCache} {addr x : UInt64} {line : CacheLine} :
    lineIn (some (c.putLine addr line)) x = if x = addr then some line else lineIn (some c) x := by
  split_ifs with same
  · subst same
    exact AList.lookup_insert ..
  · exact AList.lookup_insert_ne same

/-- A snoop of a line that is not there. -/
theorem snooped_absent (next : Cache.State → Cache.State) (absent : lineIn cache payload.addr = none) (homeNodeID : Int) :
    Snooped next cache cache payload.addr msg (sendSnpRespNoData node msg payload homeNodeID) where
  transactionID := rfl
  response := rfl
  here := by
    rw [absent]
    rfl
  others _ _ := rfl
  given _ _ _ line found := by
    rw [absent] at found
    cases found

variable (useDMT node) in
/-- A snoop of a line that is there. -/
theorem snooped_present {next : Cache.State → Cache.State} {c c' : FullyAssociativeCache} {line : CacheLine} {resp : CHIMessage}
    (found : c.lines.lookup payload.addr = some line)
    (after : ∀ x, lineIn (some c') x =
      if x = payload.addr then some { line with state := next line.state } else lineIn (some c) x)
    (answer : resp = sendSnpRespData useDMT node msg payload (c.getData payload.addr) ∨
      resp = sendSnpRespNoData node msg payload msg.sourceNodeID) :
    Snooped next (some c) (some c') payload.addr msg resp where
  transactionID := by
    rcases answer with rfl | rfl
    · unfold sendSnpRespData
      split_ifs <;> rfl
    · rfl
  response := by
    rcases answer with rfl | rfl
    · unfold sendSnpRespData
      split_ifs <;> rfl
    · rfl
  here := by
    have before : lineIn (some c) payload.addr = some line := found
    rw [after,if_pos rfl,before]
    rfl
  others x other := by rw [after,if_neg other]
  given type p isPayload line' found' valid := by
    have same : line' = line := Option.some.inj (found'.symm.trans found)
    subst same
    have data : c.getData payload.addr = line'.data := by
      unfold FullyAssociativeCache.getData
      rw [found,Option.filter_some,if_pos (decide_eq_true valid)]
      rfl
    rcases answer with rfl | rfl
    · unfold sendSnpRespData at isPayload
      split_ifs at isPayload with direct
      · rw [← Payload.value.inj isPayload]
        exact data
      · rw [← Payload.value.inj isPayload]
        exact data
    · cases type

theorem snpSharedFwd_spec : Snooped downgraded cache (snpSharedFwdContinuous useDMT node cache msg payload).2 payload.addr msg
    (snpSharedFwdContinuous useDMT node cache msg payload).1 := by
  rcases cache with _ | c
  · exact snooped_absent _ rfl _
  · unfold snpSharedFwdContinuous
    dsimp only
    rcases found : c.lines.lookup payload.addr with _ | line
    · have absent : lineIn (some c) payload.addr = none := found
      exact snooped_absent _ absent _
    · dsimp only
      split_ifs with provides
      · refine snooped_present useDMT node found (fun x => ?_) (.inl rfl)
        rw [lineIn_putLine,downgraded,if_pos provides]
      · refine snooped_present useDMT node found (fun x => ?_) (.inr rfl)
        split_ifs with same
        · rw [same,downgraded,if_neg provides]
          exact found
        · rfl

theorem snpUniqueFwd_spec : Snooped (fun _ => .invalid) cache (snpUniqueFwdContinuous useDMT node cache msg payload).2
    payload.addr msg (snpUniqueFwdContinuous useDMT node cache msg payload).1 := by
  rcases cache with _ | c
  · exact snooped_absent _ rfl _
  · unfold snpUniqueFwdContinuous
    dsimp only
    rcases found : c.lines.lookup payload.addr with _ | line
    · have absent : lineIn (some c) payload.addr = none := found
      exact snooped_absent _ absent _
    · refine snooped_present useDMT node found (fun x => lineIn_putLine) ?_
      dsimp only
      split_ifs
      · exact .inl rfl
      · exact .inr rfl

end

end FlowSim.Chi
