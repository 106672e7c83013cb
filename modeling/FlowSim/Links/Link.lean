import FlowSim.AheadPort.Exchange
import FlowSim.Lib.Transition

/-!
Links: in each cycle a link receives what was sent into its upstream port `latency`
cycles before, lets its type process it, and marks the cycle done downstream. A session
runs a link between two ports whose other ends do what they like.
-/
namespace FlowSim.Links
open FlowSim.Lib FlowSim.AheadPort
set_option linter.unusedSimpArgs false

/-- The two ports of a link. -/
inductive LinkEnd where
  | upstream
  | downstream
deriving DecidableEq, Repr

/-- Operations on the ports of a link. -/
abbrev linkPorts : Interface := ⟨LinkEnd × PortOp,fun op => op.2.Resp⟩

/-- Runs the program of a port at one end of the link. -/
def atEnd {α : Type} (side : LinkEnd) : Prog portInterface α → Prog linkPorts α
  | .done value => .done value
  | .call op next => .call (side,op) (fun answer => atEnd side (next answer))

/-- The type of a link, with its state: what it does when the link is connected, and how it
    processes a cycle; `none` when the code panics. -/
structure LinkType (σ : Type) where
  init : σ → Prog linkPorts Unit
  process : σ → (cycle targetCycle : Nat) → List Packet → Prog linkPorts (Option σ)

/-- A link with both ports connected. Ids, hooks, the monitor and the reference to the
    configuration are left out, and so is its bandwidth, which its type has as well. -/
structure Link (σ : Type) where
  latency : Nat
  currentCycle : Nat
  state : σ

namespace Link
variable {σ : Type}

def newLink (latency : Nat) (state : σ) : Link σ := { latency, currentCycle := 0, state }

/-- What the link receives in a cycle; nothing before the first packets are through. -/
def incoming (l : Link σ) (cycle : Nat) : Prog linkPorts (List Packet) :=
  if l.latency ≤ cycle then atEnd .upstream (receive (cycle - l.latency)) else return []

def tick (linkType : LinkType σ) (l : Link σ) (cycle targetCycle : Nat) : Prog linkPorts (Option (Link σ)) := do
  let incoming ← l.incoming cycle
  match ← linkType.process l.state cycle targetCycle incoming with
  | none => return none
  | some state => do
    atEnd .downstream (markDone cycle)
    return some { l with currentCycle := cycle, state }

/-- Ticks the given number of cycles, the last of which is the target. -/
def tickCycles (linkType : LinkType σ) (targetCycle : Nat) : Nat → Link σ → Prog linkPorts (Option (Link σ))
  | 0, l => return some l
  | cycles + 1, l => do
    match ← l.tick linkType l.currentCycle targetCycle with
    | none => return none
    | some l => tickCycles linkType targetCycle cycles { l with currentCycle := l.currentCycle + 1 }

def advanceTo (linkType : LinkType σ) (l : Link σ) (targetCycle : Nat) : Prog linkPorts (Option (Link σ)) :=
  tickCycles linkType targetCycle (targetCycle + 1 - l.currentCycle) l

end Link

/-! ### Sessions -/

/-- The meaning of the two ports, what the link has received and sent so far, and the
    readiness it has signalled. -/
structure LinkWorld where
  up : Exchange
  down : Exchange
  received : List Packet
  sent : List PacketWithCycle
  signalled : Nat → Option Bool

/-- The packets received once an operation is answered. -/
def receivedAfter (received : List Packet) : (op : PortOp) → op.Resp → List Packet
  | .retrieve _, pkts => received ++ pkts
  | _, _ => received

/-- The packets sent once an operation is finished. -/
def sentAfter (sent : List PacketWithCycle) : PortOp → List PacketWithCycle
  | .send pwc => sent ++ [pwc]
  | _ => sent

/-- The readiness signals with the one an operation gives. -/
def signal (signalled : Nat → Option Bool) : PortOp → Nat → Option Bool
  | .updateReady cycle ready => Function.update signalled cycle (some ready)
  | _ => signalled

/-- The answer of an operation that finishes. -/
def Exchange.now (e : Exchange) (op : PortOp) : Option (op.Resp × Exchange) :=
  match e.exec op with
  | .done answer e => some (answer,e)
  | _ => none

namespace LinkWorld

/-- Two new ports. -/
def new : LinkWorld where
  up := Port.newPort.exchange
  down := Port.newPort.exchange
  received := []
  sent := []
  signalled := fun _ => none

/-- An operation of the link at one of its ends. -/
def exec (w : LinkWorld) : (op : LinkEnd × PortOp) → Option (op.2.Resp × LinkWorld)
  | (.upstream,op) => (Exchange.now w.up op).map fun (answer,up) =>
      (answer,{ w with up, received := receivedAfter w.received op answer, signalled := signal w.signalled op })
  | (.downstream,op) => (Exchange.now w.down op).map fun (answer,down) =>
      (answer,{ w with down, sent := sentAfter w.sent op })

end LinkWorld

/-- What a sender does at a port. -/
def Sends : PortOp → Prop
  | .isReady _ => True
  | .send _ => True
  | .markDone _ => True
  | _ => False

/-- What a receiver does at a port. -/
def Receives : PortOp → Prop
  | .drainChannel => True
  | .waitDone _ => True
  | .retrieve _ => True
  | .updateReady _ _ => True
  | _ => False

instance : DecidablePred Sends := fun op => by cases op <;> unfold Sends <;> infer_instance

instance : DecidablePred Receives := fun op => by cases op <;> unfold Receives <;> infer_instance

/-- A link between its ports. -/
structure LinkSession (σ : Type) where
  link : Link σ
  world : LinkWorld

/-- The link ticks its next cycle, or the component at the other end of a port acts. -/
inductive LinkAction where
  | tick (targetCycle : Nat)
  | upstream (op : PortOp)
  | downstream (op : PortOp)
deriving DecidableEq, Repr

namespace LinkSession
variable {σ : Type}

/-- The session once the link is connected to two new ports. -/
def connect (linkType : LinkType σ) (latency : Nat) (state : σ) : Option (LinkSession σ) :=
  ((linkType.init state).runWith LinkWorld.exec .new).map fun (_,world) => { link := .newLink latency state, world }

/-- A step of the session; `none` when it cannot be taken, because an operation has to wait
    or the code panics. -/
def step (linkType : LinkType σ) (s : LinkSession σ) : LinkAction → Option (LinkSession σ)
  | .tick targetCycle =>
    match (s.link.tick linkType s.link.currentCycle targetCycle).runWith LinkWorld.exec s.world with
    | some (some link,world) => some { link := { link with currentCycle := link.currentCycle + 1 }, world }
    | _ => none
  | .upstream op =>
    if Sends op then (Exchange.now s.world.up op).map fun (_,up) => { s with world := { s.world with up } } else none
  | .downstream op =>
    if Receives op then (Exchange.now s.world.down op).map fun (_,down) => { s with world := { s.world with down } }
    else none

/-! ### What the components at the other ends do -/

section
variable {linkType : LinkType σ} {s s' : LinkSession σ} {op : PortOp}

/-- The sender into the link acts on the upstream port, and on nothing else. -/
theorem step_upstream : s.step linkType (.upstream op) = some s' ↔
    ∃ answer up, Sends op ∧ Exchange.now s.world.up op = some (answer,up) ∧ s' = { s with world := { s.world with up } } := by
  rw [step]
  split_ifs with sends
  · constructor
    · intro stepped
      obtain ⟨⟨answer,up⟩,now,rfl⟩ := Option.map_eq_some_iff.mp stepped
      exact ⟨answer,up,sends,now,rfl⟩
    · rintro ⟨answer,up,_,now,rfl⟩
      exact Option.map_eq_some_iff.mpr ⟨(answer,up),now,rfl⟩
  · refine iff_of_false (by simp) ?_
    rintro ⟨_,_,sends',_⟩
    exact sends sends'

/-- The receiver behind the link acts on the downstream port, and on nothing else. -/
theorem step_downstream : s.step linkType (.downstream op) = some s' ↔
    ∃ answer down, Receives op ∧ Exchange.now s.world.down op = some (answer,down) ∧
      s' = { s with world := { s.world with down } } := by
  rw [step]
  split_ifs with receives
  · constructor
    · intro stepped
      obtain ⟨⟨answer,down⟩,now,rfl⟩ := Option.map_eq_some_iff.mp stepped
      exact ⟨answer,down,receives,now,rfl⟩
    · rintro ⟨answer,down,_,now,rfl⟩
      exact Option.map_eq_some_iff.mpr ⟨(answer,down),now,rfl⟩
  · refine iff_of_false (by simp) ?_
    rintro ⟨_,_,receives',_⟩
    exact receives receives'

end

end LinkSession
end FlowSim.Links
