import Mathlib

/-!
The MESI controller of a shared cache: for each address, who holds the line and in
which state, and the messages that requests bring about.
-/
namespace FlowSim.Cache
set_option linter.unusedSimpArgs false

inductive MESIState where
  | invalid
  | shared
  | exclusive
  | modified
deriving DecidableEq, Repr

inductive CoherenceMessageType where
  | read
  | write
  | invalidate
  | invalidateAck
  | sharedRequest
  | sharedResponse
  | exclusiveGrant
  | dataFromMemory
  | writeback
deriving DecidableEq, Repr

structure CoherenceMessage where
  type : CoherenceMessageType
  address : UInt64
  data : UInt64 := 0
  requestorID : Int
  sharedCount : Nat := 0
deriving DecidableEq, Repr

/-- The holders of a line; the owner is -1 when there is none. -/
structure MESIEntry where
  state : MESIState
  sharers : List Int
  owner : Int
deriving DecidableEq, Repr

/-- The directory, by address. -/
structure MESIController where
  directory : UInt64 → Option MESIEntry

namespace MESIController

def newMESIController : MESIController := { directory := fun _ => none }

def newEntry : MESIEntry := { state := .invalid, sharers := [], owner := -1 }

def handleRead (entry : MESIEntry) (address : UInt64) (requestorID : Int) : List CoherenceMessage × MESIEntry :=
  match entry.state with
  | .invalid =>
    ([{ type := .exclusiveGrant, address, requestorID }],
      { state := .exclusive, owner := requestorID, sharers := [requestorID] })
  | .shared =>
    let sharers := if requestorID ∈ entry.sharers then entry.sharers else entry.sharers ++ [requestorID]
    ([{ type := .sharedResponse, address, requestorID, sharedCount := sharers.length }],{ entry with sharers })
  | .exclusive | .modified =>
    let sharers := [entry.owner,requestorID]
    ([{ type := .sharedRequest, address, requestorID := entry.owner },
      { type := .sharedResponse, address, requestorID, sharedCount := sharers.length }],
      { state := .shared, sharers, owner := -1 })

def handleWrite (entry : MESIEntry) (address : UInt64) (requestorID : Int) : List CoherenceMessage × MESIEntry :=
  ((entry.sharers.filter (fun sharerID => sharerID ≠ requestorID)).map
      (fun sharerID => { type := .invalidate, address, requestorID := sharerID }),
    { state := .modified, owner := requestorID, sharers := [requestorID] })

/-- Handles a read or a write of a core; the line gets an entry if it has none. -/
def handleRequest (mc : MESIController) (msg : CoherenceMessage) : List CoherenceMessage × MESIController :=
  let entry := (mc.directory msg.address).getD newEntry
  let (responses,entry) :=
    match msg.type with
    | .read => handleRead entry msg.address msg.requestorID
    | .write => handleWrite entry msg.address msg.requestorID
    | _ => ([],entry)
  (responses,{ mc with directory := Function.update mc.directory msg.address (some entry) })

end MESIController
end FlowSim.Cache
