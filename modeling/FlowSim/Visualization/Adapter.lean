import FlowSim.Visualization.Builder
import FlowSim.Links.Occupancy

/-!
The way out of a network: its state is exported, and the state is turned into a description
again. What a pointer to a loop variable refers to is what the variable holds after the loop,
as all passes of a loop share it.
-/
namespace FlowSim.Visualization
open FlowSim.Lib FlowSim.Queue FlowSim.Node FlowSim.Links
set_option linter.unusedSimpArgs false

/-! ### Exported states -/

/-- The state of a queue. The packets of a full export are left out. -/
structure QueueState where
  type : String
  length : Int
  capacity : Int
  bandwidth : Int
  bitmap : String
  packetTypes : List String
deriving DecidableEq, Repr

/-- The state of a node, with its name from the node's data. -/
structure NodeState (F V : Type) where
  id : Int
  type : String
  inputs : List QueueState
  outputs : List QueueState
  name : String
  nodeType : NodeType
  position : Position F
  data : NodeData V
  style : Option (List (String × V))

structure LinkState (V : Type) where
  sourceID : Int
  sourcePortID : Int
  targetID : Int
  targetPortID : Int
  latency : Int
  bandwidth : Int
  occupancy : List Nat
  packetTypes : List String
  edgeID : Int
  data : EdgeData V

structure NetworkState (F V : Type) where
  currentCycle : Int
  nodes : List (NodeState F V)
  links : List (LinkState V)

/-- The standard library's sort by a relation, which leaves ties in any order. -/
structure Sorting (α : Type) (less : α → α → Prop) where
  sort : List α → List α
  perm : ∀ xs, (sort xs).Perm xs
  sorted : ∀ xs, (sort xs).Pairwise fun x y => ¬ less y x

/-- Insertion sort, for a relation that orders all but ties. -/
def Sorting.insertion {α : Type} (less : α → α → Prop) [DecidableRel less]
    (total : ∀ x y, ¬ less y x ∨ ¬ less x y) (trans : ∀ x y z, ¬ less y x → ¬ less z y → ¬ less z x) : Sorting α less where
  sort xs := xs.insertionSort fun x y => ¬ less y x
  perm xs := List.perm_insertionSort _ xs
  sorted xs := by
    have total : Std.Total fun x y => ¬ less y x := ⟨total⟩
    have trans : IsTrans α fun x y => ¬ less y x := ⟨trans⟩
    exact List.pairwise_insertionSort _ xs

def exportInput (iq : InputQueue) : QueueState where
  type := "InputQueue"
  length := iq.length
  capacity := iq.capacity
  bandwidth := iq.inBandwidth
  bitmap := String.ofList (iq.slots.map fun slot => if slot.free then '0' else '1')
  packetTypes := []

def exportOutput (oq : OutputQueue) : QueueState where
  type := "OutputQueue"
  length := oq.length
  capacity := oq.capacity
  bandwidth := oq.outBandwidth
  bitmap := ""
  packetTypes := []

section
variable {σ F V : Type}

/-- The handler of a node without one of its own is the node. -/
def workerNode : String := "*node.WorkerNode"

def NodeHandle.exportState (handle : NodeHandle σ F V) : NodeState F V where
  id := handle.node.id
  type := workerNode
  inputs := handle.node.queues.inputs.map exportInput
  outputs := handle.node.queues.outputs.map exportOutput
  name := handle.name
  nodeType := handle.configRef.nodeType.getD .generic
  position := handle.configRef.position
  data := handle.configRef.data
  style := handle.configRef.style

def NetLink.exportState (l : NetLink V) : LinkState V where
  sourceID := l.sourceID
  sourcePortID := l.sourcePortID
  targetID := l.targetID
  targetPortID := l.targetPortID
  latency := l.link.latency
  bandwidth := l.bandwidth
  occupancy := l.link.snapshotOccupancy BufferedLinkType.getOccupancy
  packetTypes := (l.configRef.packetTypes.getD []).map Int.repr
  edgeID := l.configRef.edgeId
  data := l.configRef.data

/-- Nodes are sorted by their ids. -/
def NodeState.Before (s s' : NodeState F V) : Prop := s.id < s'.id

/-- Links are sorted by the ids of their ends. -/
def LinkState.Before (s s' : LinkState V) : Prop :=
  if s.sourceID ≠ s'.sourceID then s.sourceID < s'.sourceID else s.targetID < s'.targetID

instance : DecidableRel (NodeState.Before : NodeState F V → NodeState F V → Prop) :=
  fun s s' => inferInstanceAs (Decidable (s.id < s'.id))

instance : DecidableRel (LinkState.Before : LinkState V → LinkState V → Prop) := fun s s' =>
  inferInstanceAs (Decidable (if s.sourceID ≠ s'.sourceID then s.sourceID < s'.sourceID else s.targetID < s'.targetID))

def byID : Sorting (NodeState F V) NodeState.Before :=
  .insertion _ (fun s s' => by unfold NodeState.Before; omega) (fun s s' s'' => by unfold NodeState.Before; omega)

def byEnds : Sorting (LinkState V) LinkState.Before :=
  .insertion _ (fun s s' => by unfold LinkState.Before; split_ifs <;> omega)
    (fun s s' s'' => by unfold LinkState.Before; split_ifs <;> omega)

def Network.exportState (sortNodes : Sorting (NodeState F V) NodeState.Before)
    (sortLinks : Sorting (LinkState V) LinkState.Before) (net : Network σ F V) : NetworkState F V where
  currentCycle := net.currentCycle
  nodes := sortNodes.sort (net.nodes.map NodeHandle.exportState)
  links := sortLinks.sort (net.links.map NetLink.exportState)

/-! ### Descriptions of states -/

/-- The number in a text that a number was written to. -/
def scanned (text : String) : Int := text.toInt?.getD 0

def scannedTypes (packetTypes : List String) : Option (List Int) :=
  if packetTypes.isEmpty then none else some (packetTypes.map scanned)

/-- Ports are numbered as they come. Size, length and bitmap are pointers to the loop variable:
    they are those of the last queue. -/
def toPorts (queues : List QueueState) : Option (List Port) :=
  queues.getLast?.map fun last => queues.mapIdx fun idx q => {
    portId := idx
    bandwidth := q.bandwidth
    bufferSize := some last.capacity
    bufferLength := some last.length
    capacity := some last.capacity
    bitmap := some last.bitmap
    packetTypes := scannedTypes q.packetTypes }

def getNodeName (s : NodeState F V) : String := if s.name = "" then s!"Node_{s.id}" else s.name

def generatedData (s : NodeState F V) : NodeData V where
  id := s!"node-{s.id}"
  label := some s!"N{s.id}"
  type := some s.type
  additionalProperties := []

/-- A node; when its data have no id, they are made up, and its place is on a circle. -/
def toNode (circle : (i count : Nat) → Position F) (count i : Nat) (s : NodeState F V) : Node F V where
  nodeId := s.id
  nodeName := getNodeName s
  nodeType := some s.nodeType
  nodeFeatures := some [s.type]
  inPorts := toPorts s.inputs
  outPorts := toPorts s.outputs
  position := if s.data.id = "" then circle i count else s.position
  data := if s.data.id = "" then generatedData s else s.data
  style := s.style

/-- An edge. Latency and bandwidth are pointers to the loop variable: they are those of the
    last link. -/
def toEdge (last s : LinkState V) : Edge V where
  edgeId := s.edgeID
  srcNodeId := s.sourceID
  srcPortId := some s.sourcePortID
  dstNodeId := s.targetID
  dstPortId := some s.targetPortID
  latency := if 0 < s.latency then some last.latency else none
  bandwidth := if 0 < s.bandwidth then some last.bandwidth else none
  packetTypes := scannedTypes s.packetTypes
  data :=
    if s.data.id = "" then {
      id := s!"edge-{s.sourceID}-p{s.sourcePortID}-{s.targetID}-p{s.targetPortID}"
      source := s!"node-{s.sourceID}"
      target := s!"node-{s.targetID}"
      lineType := some "solid"
      additionalProperties := [] }
    else s.data
  linkStatus := if s.occupancy.isEmpty then none else some [("occupancy",s.occupancy)]

def stateToFlowSimNetwork (circle : (i count : Nat) → Position F) (ns : NetworkState F V) : FlowSimNetwork F V where
  version := some "1.0.0"
  cycle := some ns.currentCycle
  nodes := ns.nodes.mapIdx fun i s => toNode circle ns.nodes.length i s
  edges :=
    match ns.links.getLast? with
    | none => []
    | some last =>
      -- links of unknown nodes are skipped
      (ns.links.filter fun s => ns.nodes.any (fun n => n.id = s.sourceID) && ns.nodes.any (fun n => n.id = s.targetID)).map
        (toEdge last)

end

end FlowSim.Visualization
