import FlowSim.Packet

/-!
What transactions and their managers exchange: messages, the yield commands a
transaction function sends to its manager, and the values it is resumed with.
Of a message the model keeps what the managers read.
-/
namespace FlowSim.Transaction
set_option linter.unusedSimpArgs false

/-- The payload of a message: nothing, a value of the protocol, or the channels
    of a transaction that migrates, named by the transaction they were made for. -/
inductive Payload (P : Type) where
  | none
  | value (p : P)
  | migration (channels : TransactionID)
deriving DecidableEq, Repr

structure Message (P : Type) where
  transactionID : TransactionID
  type : Int
  sourceNodeID : Int
  targetNodeID : Int
  payload : Payload P
deriving DecidableEq, Repr

/-- The message type of migration requests. -/
def msgTypeMigrationRequest : Int := -1

/-- Whether a message carries the channels of a transaction. -/
def Message.isMigration {P : Type} (msg : Message P) : Bool :=
  match msg.payload with
  | .migration _ => true
  | _ => false

/-- What a transaction waits for: a type, and optionally an address (unless
    empty) and the nodes the message goes between. -/
structure WaitForMessage where
  type : Int
  addr : String := ""
  sourceID : Option Int := none
  targetID : Option Int := none
deriving DecidableEq, Repr

inductive YieldType where
  | waitForMessage
  | waitForTimeout
  | sendOnly
  | sendAndWait
  | complete
  | migrateTo
  | other (name : String)
deriving DecidableEq, Repr

/-- An operation to be executed by the node that handles the command. -/
structure CacheUpdateOperation where
  addr : String
  newState : String
  data : List UInt8
deriving DecidableEq, Repr

structure YieldCommand (P : Type) where
  type : YieldType
  waitFor : Option WaitForMessage := none
  sendQueue : List (Message P) := []
  operations : List CacheUpdateOperation := []
  migrateToNodeID : Int := 0
deriving DecidableEq, Repr

/-- What a waiting transaction is resumed with: a message, nothing, the node it
    has migrated to with the request that brought it there, or the result it gave
    itself when it completed. -/
inductive ResumeValue (P : Type) where
  | message (msg : Message P)
  | nil
  | migrationResult (nodeID : Int) (msg : Message P)
  | result
deriving DecidableEq, Repr

inductive TransactionState where
  | pending
  | inProgress
  | completed
  | failed
deriving DecidableEq, Repr

end FlowSim.Transaction
