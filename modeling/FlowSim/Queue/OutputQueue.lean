import FlowSim.AheadPort.Port
import FlowSim.Lib.RingBuffer

/-!
Output queues: packets a node has injected wait in a ring buffer and are sent in
order, at most `outBandwidth` in a cycle.
-/
namespace FlowSim.Queue
open FlowSim.Lib FlowSim.AheadPort
set_option linter.unusedSimpArgs false

/-- An output queue. The hook that is told of sent packets is left out. -/
structure OutputQueue extends RingBuffer PacketWithCycle where
  outBandwidth : Nat
  outBandwidth_pos : 0 < outBandwidth

instance : DecidableEq OutputQueue := fun oq oq' =>
  decidable_of_iff (oq.toRingBuffer = oq'.toRingBuffer ∧ oq.outBandwidth = oq'.outBandwidth) (by
    cases oq
    cases oq'
    simp)

namespace OutputQueue

def newOutputQueue (capacity : Int) (outBandwidth : Nat) (pos : 0 < outBandwidth) : OutputQueue :=
  let capacity := if capacity ≤ 0 then 8 else capacity.toNat
  { RingBuffer.empty (List.replicate capacity default) with outBandwidth, outBandwidth_pos := pos }

/-- The packets waiting to be sent, oldest first. -/
def packets (oq : OutputQueue) : List Packet := oq.toRingBuffer.toList.map PacketWithCycle.packet

def length (oq : OutputQueue) : Nat := oq.count

def isFull (oq : OutputQueue) : Bool := decide (oq.capacity ≤ oq.count)

/-- Sends from the head until the cycle's bandwidth is used up, nothing is left,
    or the receiver is not ready. -/
def sendUpTo (cycle : Nat) : Nat → OutputQueue → Prog portInterface OutputQueue
  | 0, oq => return oq
  | left + 1, oq =>
    if some_left : 0 < oq.count then do
      let pkt := oq.front some_left
      if ← trySend cycle ⟨cycle,pkt.packet⟩ then
        sendUpTo cycle left { oq with toRingBuffer := oq.pop some_left }
      else return oq
    else return oq

def tick (oq : OutputQueue) (cycle : Nat) : Prog portInterface OutputQueue := do
  let oq ← sendUpTo cycle oq.outBandwidth oq
  markDone cycle
  return oq

/-- Writes the packets at the tail, one by one. -/
def append (cycle : Nat) : (pkts : List Packet) → (oq : OutputQueue) → oq.count + pkts.length ≤ oq.capacity → OutputQueue
  | [], oq, _ => oq
  | pkt :: rest, oq, room =>
    append cycle rest
      { oq with toRingBuffer := oq.push ⟨cycle,pkt⟩ (by simp at room; omega) }
      (by simp at room ⊢; omega)

/-- Injects all packets, or none when they do not all fit. -/
def injectPackets (oq : OutputQueue) (cycle : Nat) (pkts : List Packet) : Option String × OutputQueue :=
  if pkts.length = 0 then (none,oq)
  else if room : oq.count + pkts.length ≤ oq.capacity then (none,append cycle pkts oq room)
  else
    let count := oq.count
    let size := pkts.length
    let capacity := oq.capacity
    (some s!"OutputQueue: capacity exceeded ({count} + {size} > {capacity}), cannot inject {size} packets",oq)

/-! ### What the operations do to the waiting packets -/

theorem length_packets (oq : OutputQueue) : oq.packets.length = oq.count := by
  simp [packets,RingBuffer.length_toList]

theorem append_spec (cycle : Nat) : ∀ (pkts : List Packet) (oq : OutputQueue)
    (room : oq.count + pkts.length ≤ oq.capacity),
    (append cycle pkts oq room).packets = oq.packets ++ pkts ∧
      (append cycle pkts oq room).capacity = oq.capacity ∧
      (append cycle pkts oq room).outBandwidth = oq.outBandwidth
  | [], oq, _ => by simp [append]
  | pkt :: rest, oq, room => by
    obtain ⟨packets_eq,capacity_eq,bandwidth_eq⟩ := append_spec cycle rest
      { oq with toRingBuffer := oq.push ⟨cycle,pkt⟩ (by simp at room; omega) } (by simp at room ⊢; omega)
    refine ⟨?_,by rw [append,capacity_eq,RingBuffer.capacity_push],bandwidth_eq⟩
    rw [append,packets_eq]
    simp [packets,RingBuffer.toList_push]

/-- An injection that fits puts the packets behind those waiting. -/
theorem injectPackets_fits {oq : OutputQueue} {pkts : List Packet} (cycle : Nat)
    (room : oq.count + pkts.length ≤ oq.capacity) : (oq.injectPackets cycle pkts).2.packets = oq.packets ++ pkts := by
  unfold injectPackets
  split
  · next empty => simp [List.eq_nil_of_length_eq_zero empty]
  · exact (append_spec cycle pkts oq room).1

/-- An injection that does not fit changes nothing. -/
theorem injectPackets_full {oq : OutputQueue} {pkts : List Packet} (cycle : Nat)
    (full : ¬ oq.count + pkts.length ≤ oq.capacity) : (oq.injectPackets cycle pkts).2 = oq := by
  unfold injectPackets
  split <;> rfl

@[simp] theorem capacity_injectPackets (oq : OutputQueue) (cycle : Nat) (pkts : List Packet) :
    (oq.injectPackets cycle pkts).2.capacity = oq.capacity := by
  by_cases room : oq.count + pkts.length ≤ oq.capacity
  · unfold injectPackets
    split
    · rfl
    · exact (append_spec cycle pkts oq room).2.1
  · rw [injectPackets_full cycle room]

@[simp] theorem outBandwidth_injectPackets (oq : OutputQueue) (cycle : Nat) (pkts : List Packet) :
    (oq.injectPackets cycle pkts).2.outBandwidth = oq.outBandwidth := by
  by_cases room : oq.count + pkts.length ≤ oq.capacity
  · unfold injectPackets
    split
    · rfl
    · exact (append_spec cycle pkts oq room).2.2
  · rw [injectPackets_full cycle room]

end OutputQueue
end FlowSim.Queue
