import FlowSim.AheadPort.Sync
import FlowSim.Lib.Interleave

/-!
A port between two components: a bounded channel, the synchronisation state of
either end, and the packets the receiving end has taken from the channel for
cycles it has still to read. `Port.exec` gives the atomic steps of the port's
methods, `trySend` and `receive` the methods that take several.
-/
namespace FlowSim.AheadPort
open FlowSim.Lib
set_option linter.unusedSimpArgs false

/-- A port. The node ids and the counters that only profiling reads are left out. -/
structure Port where
  channel : List PacketWithCycle
  upstreamSync : ComponentSync
  downstreamSync : ComponentSync
  pendingPackets : Nat → List Packet

/-- The capacity of a port's channel. -/
def channelCapacity : Nat := 64

/-- The atomic operations of a port. `retrieve` is the part of `Receive` that
    runs under one lock: the final drain and the look-up of the cycle's packets.
    `send` is the channel send at the end of `TrySend`. -/
inductive PortOp where
  | drainChannel
  | waitDone (cycle : Nat)
  | retrieve (cycle : Nat)
  | updateReady (cycle : Nat) (ready : Bool)
  | isReady (cycle : Nat)
  | send (pkt : PacketWithCycle)
  | markDone (cycle : Nat)
deriving DecidableEq, Repr

abbrev PortOp.Resp : PortOp → Type
  | .retrieve _ => List Packet
  | .isReady _ => Bool
  | _ => Unit

/-- The operations of a port as an interface for programs. -/
abbrev portInterface : Interface := ⟨PortOp,PortOp.Resp⟩

namespace Port

def newPort : Port where
  channel := []
  upstreamSync := .newComponentSync
  downstreamSync := .newComponentSync
  pendingPackets := fun _ => []

/-- A packet taken from the channel joins those that wait for its cycle. -/
def store (p : Port) (pwc : PacketWithCycle) : Port :=
  { p with pendingPackets :=
      Function.update p.pendingPackets pwc.cycle (p.pendingPackets pwc.cycle ++ [pwc.packet]) }

/-- One atomic step of an operation. Draining takes the packets one by one and
    ends when it finds the channel empty; an update that panics never returns. -/
def exec (p : Port) : (op : PortOp) → Outcome Port op.Resp
  | .drainChannel =>
    match p.channel with
    | pwc :: rest => .again (store { p with channel := rest } pwc)
    | [] => .done () p
  | .waitDone cycle => if p.upstreamSync.waitDone cycle then .done () p else .blocked
  | .retrieve cycle =>
    match p.channel with
    | pwc :: rest => .again (store { p with channel := rest } pwc)
    | [] =>
      .done (p.pendingPackets cycle) { p with pendingPackets := Function.update p.pendingPackets cycle [] }
  | .updateReady cycle ready =>
    match p.downstreamSync.updateReady cycle ready with
    | none => .blocked
    | some downstreamSync => .done () { p with downstreamSync }
  | .isReady cycle =>
    match p.downstreamSync.ready cycle with
    | none => .blocked
    | some (ready,downstreamSync) => .done ready { p with downstreamSync }
  | .send pwc =>
    if p.channel.length < channelCapacity then .done () { p with channel := p.channel ++ [pwc] } else .blocked
  | .markDone cycle => .done () { p with upstreamSync := p.upstreamSync.setDone cycle }

end Port

/-- The operations of a port acting on that port. -/
def portMachine : Machine portInterface Port := ⟨Port.exec⟩

/-- A wait for a cycle blocks until the sender has marked it done. -/
theorem Port.waitDone_blocked {p : Port} {cycle : Nat} :
    p.exec (.waitDone cycle) = .blocked ↔ p.upstreamSync.done < cycle := by
  by_cases done : (cycle : Int) ≤ p.upstreamSync.done
  · simp [Port.exec,ComponentSync.waitDone,done]
  · simp [Port.exec,ComponentSync.waitDone,done,Int.not_le.mp done]

/-- A read of a decision blocks while there is none. -/
theorem Port.isReady_blocked {p : Port} {cycle : Nat} :
    p.exec (.isReady cycle) = .blocked ↔ p.downstreamSync.answer cycle = none := by
  rw [← ComponentSync.ready_eq_none]
  rcases read : p.downstreamSync.ready cycle with _ | ⟨ready,sync⟩ <;> simp [Port.exec,read]

/-- A send blocks while the channel is full. -/
theorem Port.send_blocked {p : Port} {pwc : PacketWithCycle} :
    p.exec (.send pwc) = .blocked ↔ channelCapacity ≤ p.channel.length := by
  by_cases room : p.channel.length < channelCapacity
  · simp [Port.exec,room]
  · simp [Port.exec,room,Nat.not_lt.mp room]

/-! ### The methods of a port -/

/-- One atomic operation as a program. -/
def atomically (op : PortOp) : Prog portInterface op.Resp := Prog.perform (I := portInterface) op

def isReady (cycle : Nat) : Prog portInterface Bool := atomically (.isReady cycle)

def markDone (cycle : Nat) : Prog portInterface Unit := atomically (.markDone cycle)

def updateReady (cycle : Nat) (ready : Bool) : Prog portInterface Unit := atomically (.updateReady cycle ready)

/-- Waits for the cycle's readiness; true if the packet was sent, false if the
    receiver declared itself not ready. -/
def trySend (cycle : Nat) (pkt : PacketWithCycle) : Prog portInterface Bool := do
  if ← isReady cycle then
    atomically (.send pkt)
    return true
  else return false

/-- All packets of the cycle, once the sender is done with it. -/
def receive (cycle : Nat) : Prog portInterface (List Packet) := do
  atomically .drainChannel
  atomically (.waitDone cycle)
  atomically (.retrieve cycle)

/-! ### Packets in flight -/

/-- The packets stamped with the cycle, in order. -/
def stamped (cycle : Nat) (pkts : List PacketWithCycle) : List Packet :=
  (pkts.filter (fun pwc => pwc.cycle = cycle)).map PacketWithCycle.packet

@[simp] theorem stamped_nil (cycle : Nat) : stamped cycle [] = [] := rfl

@[simp] theorem stamped_append (cycle : Nat) (xs ys : List PacketWithCycle) :
    stamped cycle (xs ++ ys) = stamped cycle xs ++ stamped cycle ys := by
  simp [stamped]

theorem stamped_cons (cycle : Nat) (pwc : PacketWithCycle) (rest : List PacketWithCycle) :
    stamped cycle (pwc :: rest) = if pwc.cycle = cycle then pwc.packet :: stamped cycle rest else stamped cycle rest := by
  unfold stamped
  by_cases same : pwc.cycle = cycle <;> simp [same]

@[simp] theorem stamped_singleton (cycle : Nat) (pwc : PacketWithCycle) :
    stamped cycle [pwc] = if pwc.cycle = cycle then [pwc.packet] else [] := by
  rw [stamped_cons,stamped_nil]

theorem stamped_eq_nil {cycle : Nat} {pkts : List PacketWithCycle} (other : ∀ pwc ∈ pkts, pwc.cycle ≠ cycle) :
    stamped cycle pkts = [] := by
  simpa [stamped] using other

/-- The packets of a cycle that were sent and not yet returned: those already
    taken from the channel, then those still in it. -/
def Port.inFlight (p : Port) (cycle : Nat) : List Packet := p.pendingPackets cycle ++ stamped cycle p.channel

/-- Taking the oldest packet from the channel leaves what is in flight. -/
theorem Port.inFlight_store {p : Port} {pwc : PacketWithCycle} {rest : List PacketWithCycle}
    (nonempty : p.channel = pwc :: rest) (cycle : Nat) :
    (Port.store { p with channel := rest } pwc).inFlight cycle = p.inFlight cycle := by
  unfold Port.inFlight Port.store
  rw [nonempty,stamped_cons]
  by_cases same : pwc.cycle = cycle
  · subst same; simp
  · simp [same,Ne.symm same]

end FlowSim.AheadPort
