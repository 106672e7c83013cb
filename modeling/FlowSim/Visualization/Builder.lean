import FlowSim.Visualization.Protocol
import FlowSim.Node.Sizes
import FlowSim.Links.BufferedLinkType

/-!
Networks of nodes without handlers of their own, as they are built from a description: the
nodes with their queues first, then a buffered link for each edge. Where the code stops or
returns an error, building fails with the text.
-/
namespace FlowSim.Visualization
open FlowSim.Lib FlowSim.Queue FlowSim.Node FlowSim.Links
set_option linter.unusedSimpArgs false

/-- A node of the network, its name among the node's data, and the description it came from. -/
structure NodeHandle (σ F V : Type) where
  node : BaseNode σ
  name : String
  configRef : Node F V

/-- A link of the network, its ends and bandwidth, and the description it came from. -/
structure NetLink (V : Type) where
  sourceID : Int
  sourcePortID : Int
  targetID : Int
  targetPortID : Int
  bandwidth : Int
  link : Link BufferedLinkType
  configRef : Edge V

structure Network (σ F V : Type) where
  nodes : List (NodeHandle σ F V)
  links : List (NetLink V)
  currentCycle : Int

/-! ### Nodes -/

def defaultPortCount : Nat := 8
def defaultBufferSize : Int := 128
def defaultBandwidth : Int := 1

def createInput (capacity bandwidth : Int) : Except String InputQueue :=
  if pos : 0 < capacity then
    if bandwidthPos : 0 < bandwidth then
      .ok (.newInputQueue capacity.toNat bandwidth.toNat (by omega) (by omega))
    else .error "inBandwidth must be positive"
  else .error "capacity must be positive"

def createOutput (capacity bandwidth : Int) : Except String OutputQueue :=
  if bandwidthPos : 0 < bandwidth then .ok (.newOutputQueue capacity bandwidth.toNat (by omega))
  else .error "outBandwidth must be positive"

/-- Capacity and bandwidth of the queues of a node: a queue for each port, or queues of default
    size when no ports are given. -/
def queueSizes (ports : Option (List Port)) : List (Int × Int) :=
  match ports with
  | some (port :: rest) => (port :: rest).map fun port => (port.bufferSize.getD defaultBufferSize,port.bandwidth)
  | _ => List.replicate defaultPortCount (defaultBufferSize,defaultBandwidth)

def createQueues {Q : Type} (create : Int → Int → Except String Q) : List (Int × Int) → Except String (List Q)
  | [] => .ok []
  | (capacity,bandwidth) :: rest => do
    let q ← create capacity bandwidth
    let qs ← createQueues create rest
    return q :: qs

section
variable {σ F V : Type}

/-- A node with its queues, and with the handler of the base node. -/
def buildNode (state : σ) (nodeProto : Node F V) : Except String (NodeHandle σ F V) := do
  let inputs ← createQueues createInput (queueSizes nodeProto.inPorts)
  let outputs ← createQueues createOutput (queueSizes nodeProto.outPorts)
  match nodeProto.nodeType with
  | some (.other name) => throw s!"unknown node_type {name} for node {nodeProto.nodeId}"
  | _ => return {
      node := .newBaseNode nodeProto.nodeId ⟨inputs,outputs⟩ (fun _ => false) state
      name := nodeProto.nodeName
      configRef := nodeProto }

namespace Network

def new : Network σ F V := { nodes := [], links := [], currentCycle := 0 }

def addNode (net : Network σ F V) (handle : NodeHandle σ F V) : Except String (Network σ F V) :=
  if net.nodes.any fun other => other.node.id = handle.node.id then
    .error s!"failed to add node {handle.node.id}: node {handle.node.id} already exists"
  else .ok { net with nodes := net.nodes ++ [handle] }

def addNodes (state : σ) : List (Node F V) → Network σ F V → Except String (Network σ F V)
  | [], net => .ok net
  | nodeProto :: rest, net => do
    let handle ← buildNode state nodeProto
    let net ← net.addNode handle
    addNodes state rest net

/-! ### Links -/

/-- The port of a node with the given id is connected now. -/
def connectPort (net : Network σ F V) (id : Int) (port : NodePort) : Network σ F V :=
  { net with nodes := net.nodes.map fun handle =>
      if handle.node.id = id then
        { handle with node := { handle.node with connected := Function.update handle.node.connected port true } }
      else handle }

def connect (net : Network σ F V) (edgeProto : Edge V) : Except String (Network σ F V) :=
  let source := edgeProto.srcNodeId
  let srcPort := edgeProto.srcPortId.getD 0
  let target := edgeProto.dstNodeId
  let dstPort := edgeProto.dstPortId.getD 0
  let latency := edgeProto.latency.getD 1
  let bandwidth := edgeProto.bandwidth.getD 1
  let failed (reason : String) : Except String (Network σ F V) :=
    .error s!"failed to connect {source}:{srcPort}->{target}:{dstPort}: {reason}"
  match net.nodes.find? (fun handle => handle.node.id = source),net.nodes.find? (fun handle => handle.node.id = target) with
  | none,_ => failed s!"source node {source} not found"
  | _,none => failed s!"target node {target} not found"
  | some sourceNode,some targetNode =>
    if srcPort < 0 ∨ sourceNode.node.queues.outputs.length ≤ srcPort then
      failed s!"source node {source} output index {srcPort} invalid"
    else if dstPort < 0 ∨ targetNode.node.queues.inputs.length ≤ dstPort then
      failed s!"target node {target} input index {dstPort} invalid"
    else if sourceNode.node.connected (.output srcPort.toNat) then
      failed s!"source node {source} output port {srcPort} is already connected"
    else if targetNode.node.connected (.input dstPort.toNat) then
      failed s!"target node {target} input port {dstPort} is already connected"
    else if pos : 0 < latency then
      if bandwidthPos : 0 < bandwidth then
        let type := BufferedLinkType.newBufferedLinkType latency.toNat bandwidth.toNat (by omega) (by omega)
        let link : NetLink V := {
          sourceID := source, sourcePortID := srcPort, targetID := target, targetPortID := dstPort, bandwidth,
          link := .newLink latency.toNat type, configRef := edgeProto }
        let connected := (net.connectPort source (.output srcPort.toNat)).connectPort target (.input dstPort.toNat)
        .ok { connected with links := net.links ++ [link] }
      else .error "bandwidth must be positive"
    else .error "latency must be positive for BufferedLinkType"

def connectAll : List (Edge V) → Network σ F V → Except String (Network σ F V)
  | [], net => .ok net
  | edgeProto :: rest, net => do
    let net ← net.connect edgeProto
    connectAll rest net

end Network

def buildFromFlowSimNetwork (state : σ) (flowNet : FlowSimNetwork F V) : Except String (Network σ F V) := do
  let net ← Network.new.addNodes state flowNet.nodes
  net.connectAll flowNet.edges

/-! ### Time -/

/-- What the network can be when all its workers have come to the target, whatever the ports
    have answered them. -/
structure Network.AdvancesTo (handler : Handler σ) (sortSlice : SliceSort) (targetCycle : Nat) (net net' : Network σ F V) :
    Prop where
  nodes : List.Forall₂ (fun handle handle' => handle'.name = handle.name ∧ handle'.configRef = handle.configRef ∧
    ∃ error, (handle.node.advanceTo handler sortSlice targetCycle).Returns (error,handle'.node)) net.nodes net'.nodes
  links : List.Forall₂ (fun l l' => ∃ link,
    (l.link.advanceTo BufferedLinkType.linkType targetCycle).Returns (some link) ∧ l' = { l with link }) net.links net'.links
  currentCycle : net'.currentCycle = targetCycle + 1

/-- What it can be after any number of advances. -/
def Network.Advanced (handler : Handler σ) (sortSlice : SliceSort) : Network σ F V → Network σ F V → Prop :=
  Relation.ReflTransGen fun net net' => ∃ targetCycle, net.AdvancesTo handler sortSlice targetCycle net'

end

end FlowSim.Visualization
