import FlowSim.Lib.Family
import FlowSim.Node.Ticking
import FlowSim.Links.BufferlessLinkType

/-!
A network of nodes and links. `addNode` and `connect` build it; the first call of `AdvanceTo`
freezes it and initialises the links. In a call of `AdvanceTo` every node and every link is a
worker of its own, and the call completes when all of them have come to their end; the order
of their steps is not fixed, so that `AdvancesTo` is a relation.
-/
namespace FlowSim.Network
open FlowSim.Lib FlowSim.AheadPort FlowSim.Queue FlowSim.Node FlowSim.Links
set_option linter.unusedSimpArgs false

/-! ### Links of either type -/

/-- The link types that a connection can have. -/
inductive AnyLinkType where
  | buffered (h : BufferedLinkType)
  | bufferless (h : BufferlessLinkType)
deriving DecidableEq

namespace AnyLinkType

def init : AnyLinkType → Prog linkPorts Unit
  | .buffered h => h.init
  | .bufferless h => h.init

def process : AnyLinkType → (cycle targetCycle : Nat) → List Packet → Prog linkPorts (Option AnyLinkType)
  | .buffered h, cycle, targetCycle, incoming => do
    return (← h.process cycle targetCycle incoming).map .buffered
  | .bufferless h, cycle, targetCycle, incoming => do
    return (← h.process cycle targetCycle incoming).map .bufferless

def linkType : LinkType AnyLinkType := { init, process }

end AnyLinkType

/-! ### Networks -/

/-- A node with its queues, and its handler. -/
structure NodeHandle (σ : Type) where
  node : BaseNode σ
  handler : Handler σ

/-- A port, named by the queue that holds it: the id of the node, and which of its queues. -/
abbrev PortId := Int × NodePort

/-- A link, with the output queue and the input queue between which it is. -/
structure Connection where
  link : Link AnyLinkType
  source : Int × Nat
  target : Int × Nat

/-- The port at either end of a link. -/
def Connection.portAt (l : Connection) : LinkEnd → PortId
  | .upstream => (l.source.1,.output l.source.2)
  | .downstream => (l.target.1,.input l.target.2)

end FlowSim.Network

namespace FlowSim
open FlowSim.Lib FlowSim.AheadPort FlowSim.Queue FlowSim.Node FlowSim.Links FlowSim.Network

/-- A network. The configuration it was built from, the tracer, the clean-up functions and the
    channels over which the workers are told of a target are left out. -/
structure Network (σ : Type) where
  nodes : Int → Option (NodeHandle σ)
  links : List Connection
  ports : PortId → Port
  frozen : Bool
  currentCycle : Nat

namespace Network
variable {σ : Type}

def new : Network σ where
  nodes := fun _ => none
  links := []
  ports := fun _ => .newPort
  frozen := false
  currentCycle := 0

/-- Registers a node; `none` when the code panics because the network is frozen. -/
def addNode (n : Network σ) (handle : NodeHandle σ) : Option (Except String (Network σ)) :=
  if n.frozen then none
  else
    let id := handle.node.id
    match n.nodes id with
    | some _ => some (.error s!"node {id} already exists")
    | none => some (.ok { n with nodes := Function.update n.nodes id (some handle) })

/-- Gives a queue of a node its port. -/
def attach (nodes : Int → Option (NodeHandle σ)) (id : Int) (port : NodePort) : Int → Option (NodeHandle σ) :=
  Function.update nodes id ((nodes id).map fun handle =>
    { handle with node := { handle.node with connected := Function.update handle.node.connected port true } })

/-- The type of a link: the one that was asked for, or a new buffered one. -/
def typeOf (linkType : Option AnyLinkType) (latency bandwidth : Nat) (pos : 0 < latency) (bandwidthPos : 0 < bandwidth) :
    AnyLinkType :=
  linkType.getD (.buffered (.newBufferedLinkType latency bandwidth pos bandwidthPos))

theorem latency_pos {latency bandwidth : Int} (pos : 0 < latency ∧ 0 < bandwidth) : 0 < latency.toNat := by
  omega

theorem bandwidth_pos {latency bandwidth : Int} (pos : 0 < latency ∧ 0 < bandwidth) : 0 < bandwidth.toNat := by
  omega

/-- The network with a link between two of its queues; `none` when the code panics. -/
def wire (n : Network σ) (source target : Int × Nat) (iq : InputQueue) (latency bandwidth : Int)
    (linkType : Option AnyLinkType) : Option (Network σ) :=
  if pos : 0 < latency ∧ 0 < bandwidth then
    match iq.setUpstreamPort Port.newPort.downstreamSync with
    | none => none
    | some downstreamSync =>
      let l : Connection := {
        link := .newLink latency.toNat (typeOf linkType latency.toNat bandwidth.toNat (latency_pos pos) (bandwidth_pos pos))
        source, target }
      some { n with
        nodes := attach (attach n.nodes source.1 (.output source.2)) target.1 (.input target.2)
        links := n.links ++ [l]
        ports := Function.update (Function.update n.ports (l.portAt .upstream) .newPort) (l.portAt .downstream)
          { Port.newPort with downstreamSync } }
  else none

/-- The queue at an index, which may be out of range. -/
def queueAt {α : Type} (queues : List α) (index : Int) : Option α := if index < 0 then none else queues[index.toNat]?

/-- Connects an output queue to an input queue through a link; `none` when the code panics,
    because the network is frozen, or because the latency or the bandwidth is not positive. -/
def connect (n : Network σ) (sourceID sourceOutputIdx targetID targetInputIdx latency bandwidth : Int)
    (linkType : Option AnyLinkType) : Option (Except String (Network σ)) :=
  if n.frozen then none
  else
    match n.nodes sourceID with
    | none => some (.error s!"source node {sourceID} not found")
    | some source =>
      match n.nodes targetID with
      | none => some (.error s!"target node {targetID} not found")
      | some target =>
        match queueAt source.node.queues.outputs sourceOutputIdx with
        | none => some (.error s!"source node {sourceID} output index {sourceOutputIdx} invalid")
        | some _ =>
          match queueAt target.node.queues.inputs targetInputIdx with
          | none => some (.error s!"target node {targetID} input index {targetInputIdx} invalid")
          | some iq =>
            if source.node.connected (.output sourceOutputIdx.toNat) then
              some (.error s!"source node {sourceID} output port {sourceOutputIdx} is already connected")
            else if target.node.connected (.input targetInputIdx.toNat) then
              some (.error s!"target node {targetID} input port {targetInputIdx} is already connected")
            else
              (n.wire (sourceID,sourceOutputIdx.toNat) (targetID,targetInputIdx.toNat) iq latency bandwidth linkType).map .ok

/-! ### Workers -/

/-- The operations on the ports of a network. -/
abbrev networkPorts : Interface := portInterface.each PortId

/-- The ports of a network, with their operations. -/
abbrev networkMachine : Machine networkPorts (PortId → Port) := portMachine.each PortId

/-- The workers of a network: one for each node, one for each link. -/
inductive Worker where
  | node (id : Int)
  | link (index : Nat)
deriving DecidableEq, Repr

/-- What the call of a worker ends with: a node's error and the node, and a link, unless the
    code panicked. There is nothing for a worker that does not exist. -/
abbrev Result (σ : Type) : Worker → Type
  | .node _ => Option (Option String × BaseNode σ)
  | .link _ => Option (Option (Link AnyLinkType))

/-- What a worker does when it is told of a target. -/
def work (sortSlice : SliceSort) (n : Network σ) (targetCycle : Nat) : (w : Worker) → Prog networkPorts (Result σ w)
  | .node id =>
    match n.nodes id with
    | none => .done none
    | some handle => do
      let result ← (handle.node.advanceTo handle.handler sortSlice targetCycle).relabel fun port => (id,port)
      return some result
  | .link index =>
    match n.links[index]? with
    | none => .done none
    | some l => do
      let link ← (l.link.advanceTo AnyLinkType.linkType targetCycle).relabel l.portAt
      return some link

/-- The workers at the start of a call. -/
abbrev Call (σ : Type) := Config networkPorts (PortId → Port) (Result σ)

def start (sortSlice : SliceSort) (n : Network σ) (targetCycle : Nat) : Call σ :=
  Config.start n.ports (n.work sortSlice targetCycle)

/-- The network once all workers have come to their end. -/
def after (n : Network σ) (targetCycle : Nat) (c : Call σ) : Network σ where
  nodes id := (n.nodes id).map fun handle =>
    match c.prog (.node id) with
    | .done (some (_,node)) => { handle with node }
    | _ => handle
  links := n.links.mapIdx fun index l =>
    match c.prog (.link index) with
    | .done (some (some link)) => { l with link }
    | _ => l
  ports := c.shared
  frozen := n.frozen
  currentCycle := targetCycle + 1

/-! ### Advancing -/

/-- Initialises the links one after the other. -/
def initLinks : List Connection → (PortId → Port) → Option (PortId → Port)
  | [], ports => some ports
  | l :: rest, ports =>
    ((l.link.state.init.relabel l.portAt).runWith networkMachine.now ports).bind fun (_,ports) => initLinks rest ports

/-- No nodes or links can be added any more. -/
def freeze (n : Network σ) : Option (Network σ) :=
  if n.frozen then some n else (initLinks n.links n.ports).map fun ports => { n with ports, frozen := true }

/-- What a call of `AdvanceTo` shows: the errors of the nodes, which are logged, and the
    operations of all workers with their answers. -/
structure Report where
  errors : Int → Option String
  log : Worker → List (Event networkPorts)

/-- The error of a node. -/
def errorOf : Prog networkPorts (Option (Option String × BaseNode σ)) → Option String
  | .done (some (error,_)) => error
  | _ => none

/-- A call of `AdvanceTo` that completes, in any order of the workers' steps. -/
inductive AdvancesTo (sortSlice : SliceSort) (n : Network σ) : Int → Report → Network σ → Prop
  | negative {targetCycle : Int} (isNegative : targetCycle < 0) :
      AdvancesTo sortSlice n targetCycle ⟨fun _ => none,fun _ => []⟩ n
  | completes {targetCycle : Nat} {opened : Network σ} {c : Call σ} (isOpen : n.freeze = some opened)
      (reach : networkMachine.Reach (opened.start sortSlice targetCycle) c) (finished : ∀ w, c.Finished w)
      (intact : ∀ index, c.prog (.link index) ≠ .done (some none)) :
      AdvancesTo sortSlice n targetCycle ⟨fun id => errorOf (c.prog (.node id)),c.log⟩ (opened.after targetCycle c)

/-- What is done with a network: it advances, or a packet is injected into a node's first
    output queue. -/
inductive Action where
  | advanceTo (targetCycle : Int)
  | injectPacket (id : Int) (pkt : Packet)

def injectPacket (n : Network σ) (id : Int) (pkt : Packet) : Network σ :=
  { n with nodes := Function.update n.nodes id ((n.nodes id).map fun handle =>
      { handle with node := handle.node.injectPacket pkt }) }

/-- A sequence of actions, with the reports of the calls. After a call in which a node failed
    nothing more is done. -/
inductive Runs (sortSlice : SliceSort) (n : Network σ) : List Action → List Report → Network σ → Prop
  | start : Runs sortSlice n [] [] n
  | injectPacket {actions : List Action} {reports : List Report} {now : Network σ} (id : Int) (pkt : Packet)
      (before : Runs sortSlice n actions reports now) (fine : ∀ report ∈ reports, ∀ id, report.errors id = none) :
      Runs sortSlice n (actions ++ [.injectPacket id pkt]) reports (now.injectPacket id pkt)
  | advanceTo {actions : List Action} {reports : List Report} {now later : Network σ} {targetCycle : Int} {report : Report}
      (before : Runs sortSlice n actions reports now) (fine : ∀ report ∈ reports, ∀ id, report.errors id = none)
      (advances : now.AdvancesTo sortSlice targetCycle report later) :
      Runs sortSlice n (actions ++ [.advanceTo targetCycle]) (reports ++ [report]) later

/-! ### Building -/

/-- A node that has done nothing yet. Its queues are not connected; packets may wait in its
    output queues, and also in its input queues, as long as these are not full. -/
structure NodeHandle.IsNew (handle : NodeHandle σ) : Prop where
  node : ∃ id queues state, handle.node = .newBaseNode id queues (fun _ => false) state
  inputs : ∀ iq ∈ handle.node.queues.inputs, iq.nextUpdateCycle = 0 ∧ iq.length < iq.capacity

/-- A link type that has done nothing yet. -/
def AnyLinkType.IsNew : AnyLinkType → Prop
  | .buffered h => ∃ latency bandwidth pos bandwidthPos, h = .newBufferedLinkType latency bandwidth pos bandwidthPos
  | .bufferless h => h = .newBufferlessLinkType

/-- The networks that can be built. -/
inductive Built : Network σ → Prop
  | new : Built new
  | addNode {n n' : Network σ} {handle : NodeHandle σ} (before : Built n) (isNew : handle.IsNew)
      (added : n.addNode handle = some (.ok n')) : Built n'
  | connect {n n' : Network σ} {sourceID sourceOutputIdx targetID targetInputIdx latency bandwidth : Int}
      {linkType : Option AnyLinkType} (before : Built n) (isNew : ∀ t ∈ linkType, t.IsNew)
      (connected : n.connect sourceID sourceOutputIdx targetID targetInputIdx latency bandwidth linkType = some (.ok n')) :
      Built n'

end Network
end FlowSim
