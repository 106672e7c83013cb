import Mathlib

/-!
The packets that nodes exchange through links. The extension map of a packet is
not modelled: no function of the model reads it.
-/
namespace FlowSim

/-- The node that created a transaction and the transaction's number there. -/
structure TransactionID where
  nodeID : Int
  txnID : Int
deriving DecidableEq, Repr, Inhabited

/-- The node that created a message and the message's number there. -/
structure MessageID where
  nodeID : Int
  messageID : Int
deriving DecidableEq, Repr, Inhabited

/-- The unit that nodes exchange through links. -/
structure Packet where
  sourceID : Int
  targetID : Int
  transactionID : TransactionID := ⟨0,0⟩
  messageID : MessageID := ⟨0,0⟩
  sequence : Int := 0
  type : Int := 0
  addr : UInt64 := 0
  vAddr : UInt64 := 0
  data : UInt64 := 0
  instrID : UInt64 := 0
  op : Int := 0
  cycle : UInt64 := 0
deriving DecidableEq, Repr, Inhabited

/-- A packet with the cycle in which the receiving side is to see it. -/
structure PacketWithCycle where
  cycle : Nat
  packet : Packet
deriving DecidableEq, Repr, Inhabited

end FlowSim
