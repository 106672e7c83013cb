import FlowSim.Visualization.Built
import FlowSim.Visualization.Adapter
import Mathlib

/-!
From a description to a network and back. A built network, however far it has advanced, gives
back the description it was built from unless something made up by the export takes the place
of what was given, or the last port or link speaks for all (`build_export_iff`).
-/
namespace FlowSim.Visualization
open FlowSim.Lib FlowSim.AheadPort FlowSim.Queue FlowSim.Node FlowSim.Links
set_option linter.unusedSimpArgs false

/-! ### What is to be given back -/

/-- A port is given back: its id, its bandwidth, and its buffer size where it was given. -/
structure Port.Kept (p p' : Port) : Prop where
  portId : p'.portId = p.portId
  bandwidth : p'.bandwidth = p.bandwidth
  bufferSize : ∀ size, p.bufferSize = some size → p'.bufferSize = some size

/-- The ports that were given are given back in their order. -/
def PortsKept (ports ports' : Option (List Port)) : Prop :=
  ∀ port rest, ports = some (port :: rest) →
    ∃ exported, ports' = some exported ∧ List.Forall₂ Port.Kept (port :: rest) exported

section
variable {σ F V : Type}

/-- The display data that were given are given back. -/
structure NodeData.Kept (d d' : NodeData V) : Prop where
  id : d.id ≠ "" → d'.id = d.id
  label : ∀ label, d.label = some label → d'.label = some label
  type : ∀ type, d.type = some type → d'.type = some type
  additionalProperties : d.additionalProperties ≠ [] → d'.additionalProperties = d.additionalProperties

/-- A node is given back: its id, name and position, and what was given of its display and ports. -/
structure Node.Kept (n n' : Node F V) : Prop where
  nodeId : n'.nodeId = n.nodeId
  nodeName : n'.nodeName = n.nodeName
  position : n'.position = n.position
  data : n.data.Kept n'.data
  style : ∀ style, n.style = some style → n'.style = some style
  inPorts : PortsKept n.inPorts n'.inPorts
  outPorts : PortsKept n.outPorts n'.outPorts

/-- An edge is given back, with the defaults for what was not given. -/
structure Edge.Kept (e e' : Edge V) : Prop where
  edgeId : e'.edgeId = e.edgeId
  srcNodeId : e'.srcNodeId = e.srcNodeId
  dstNodeId : e'.dstNodeId = e.dstNodeId
  srcPortId : e'.srcPortId = some (e.srcPortId.getD 0)
  dstPortId : e'.dstPortId = some (e.dstPortId.getD 0)
  latency : e'.latency = some (e.latency.getD 1)
  bandwidth : e'.bandwidth = some (e.bandwidth.getD 1)
  packetTypes : e'.packetTypes.getD [] = e.packetTypes.getD []

/-- The same nodes and the same edges are given back, in whatever order. -/
structure FlowSimNetwork.Preserved (flowNet exported : FlowSimNetwork F V) : Prop where
  nodes : ∃ nodes, nodes.Perm flowNet.nodes ∧ List.Forall₂ Node.Kept nodes exported.nodes
  edges : ∃ edges, edges.Perm flowNet.edges ∧ List.Forall₂ Edge.Kept edges exported.edges

/-! ### The condition -/

/-- The capacity that the queue of a port gets. -/
def inputCapacity (p : Port) : Int := p.bufferSize.getD defaultBufferSize

def outputCapacity (p : Port) : Int :=
  if p.bufferSize.getD defaultBufferSize ≤ 0 then 8 else p.bufferSize.getD defaultBufferSize

/-- Ports are numbered as they come, and each buffer size that was given is the capacity of the
    last. -/
def PortsTold (capacity : Port → Int) (ports : Option (List Port)) : Prop :=
  ∀ given, ports = some given → ∀ last ∈ given.getLast?, ∀ (i : Nat) (port : Port), given[i]? = some port →
    port.portId = i ∧ ∀ size, port.bufferSize = some size → size = capacity last

/-- The display data that are made up for a node of the given id have all that is given here. -/
structure NodeData.MadeUp (d : NodeData V) (nodeId : Int) : Prop where
  label : ∀ label, d.label = some label → label = s!"N{nodeId}"
  type : ∀ type, d.type = some type → type = workerNode
  additionalProperties : d.additionalProperties = []

/-- The node's display data have an id, or all that is given of them and its position are what
    the export makes up. -/
def DataTold (circle : (i count : Nat) → Position F) (flowNet : FlowSimNetwork F V) (n : Node F V) : Prop :=
  n.data.id ≠ "" ∨ n.data.MadeUp n.nodeId ∧
    n.position = circle (flowNet.nodes.countP fun other => other.nodeId < n.nodeId) flowNet.nodes.length

structure NodeTold (circle : (i count : Nat) → Position F) (flowNet : FlowSimNetwork F V) (n : Node F V) : Prop where
  named : n.nodeName ≠ ""
  data : DataTold circle flowNet n
  inPorts : PortsTold inputCapacity n.inPorts
  outPorts : PortsTold outputCapacity n.outPorts

/-- No part of the description gives way to what the export makes up or takes from elsewhere. -/
structure FlowSimNetwork.Told (circle : (i count : Nat) → Position F) (flowNet : FlowSimNetwork F V) : Prop where
  nodes : ∀ n ∈ flowNet.nodes, NodeTold circle flowNet n
  edges : ∀ e ∈ flowNet.edges, ∀ e' ∈ flowNet.edges,
    e.latency.getD 1 = e'.latency.getD 1 ∧ e.bandwidth.getD 1 = e'.bandwidth.getD 1

/-! ### Numbers and queues -/

theorem scanned_repr (n : Int) : scanned n.repr = n := by
  rw [scanned,Int.toInt?_repr]
  rfl

/-- Packet types come back from their texts. -/
theorem scannedTypes_repr (packetTypes : List Int) :
    (scannedTypes (packetTypes.map Int.repr)).getD [] = packetTypes := by
  unfold scannedTypes
  rcases packetTypes with _ | ⟨first,rest⟩
  · rfl
  · have same : ((first :: rest).map Int.repr).map scanned = first :: rest := by
      rw [List.map_map]
      exact (List.map_congr_left fun n _ => scanned_repr n).trans (List.map_id _)
    exact same

/-- Capacity and bandwidth of an exported queue. -/
def QueueState.size (q : QueueState) : Int × Int := (q.capacity,q.bandwidth)

theorem sizes_exportInput (inputs : List InputQueue) :
    (inputs.map exportInput).map QueueState.size = (inputs.map sizeIn).map asInts := by
  rw [List.map_map,List.map_map]
  rfl

theorem sizes_exportOutput (outputs : List OutputQueue) :
    (outputs.map exportOutput).map QueueState.size = (outputs.map sizeOut).map asInts := by
  rw [List.map_map,List.map_map]
  rfl

/-- The ports that were given are given back when they are told; that none were given says
    nothing. -/
theorem portsKept_iff {capacity : Port → Int} {ports : Option (List Port)} {queues : List QueueState}
    (sizes : ∀ port rest, ports = some (port :: rest) →
      queues.map QueueState.size = (port :: rest).map fun p => (capacity p,p.bandwidth)) :
    PortsKept ports (toPorts queues) ↔ PortsTold capacity ports := by
  rcases ports with _ | ⟨_ | ⟨port,rest⟩⟩
  · exact ⟨fun _ given isGiven => (by cases isGiven),fun _ port rest isGiven => (by cases isGiven)⟩
  · refine ⟨fun _ given isGiven last isLast => ?_,fun _ port rest isGiven => (by cases isGiven)⟩
    rw [← Option.some.inj isGiven] at isLast
    cases isLast
  · have sizes := sizes port rest rfl
    generalize given_eq : port :: rest = given at sizes
    have same_length : queues.length = given.length := by
      have lengths := congrArg List.length sizes
      rwa [List.length_map,List.length_map] at lengths
    have size : ∀ (i : Nat) (inside : i < given.length) (within : i < queues.length),
        queues[i].capacity = capacity given[i] ∧ queues[i].bandwidth = given[i].bandwidth := by
      intro i inside within
      have one : (queues.map QueueState.size)[i]? = (given.map fun p => (capacity p,p.bandwidth))[i]? := by
        rw [sizes]
      rw [List.getElem?_map,List.getElem?_map,List.getElem?_eq_getElem within,List.getElem?_eq_getElem inside] at one
      exact Prod.mk.inj (Option.some.inj one)
    have nonempty : given ≠ [] := by
      rw [← given_eq]
      exact List.cons_ne_nil _ _
    have queues_nonempty : queues ≠ [] := by
      rw [← List.length_pos_iff,same_length,List.length_pos_iff]
      exact nonempty
    have last_capacity : (queues.getLast queues_nonempty).capacity = capacity (given.getLast nonempty) := by
      rw [List.getLast_eq_getElem,List.getLast_eq_getElem]
      have last := (size (given.length - 1) (by have := List.length_pos_iff.mpr nonempty; omega)
        (by have := List.length_pos_iff.mpr nonempty; omega)).1
      simp only [same_length]
      exact last
    have exported : toPorts queues = some (queues.mapIdx fun idx q => {
        portId := idx
        bandwidth := q.bandwidth
        bufferSize := some (capacity (given.getLast nonempty))
        bufferLength := some (queues.getLast queues_nonempty).length
        capacity := some (capacity (given.getLast nonempty))
        bitmap := some (queues.getLast queues_nonempty).bitmap
        packetTypes := scannedTypes q.packetTypes }) := by
      rw [toPorts,List.getLast?_eq_some_getLast queues_nonempty,Option.map_some,last_capacity]
    constructor
    · intro kept given' isGiven last isLast i p isPort
      obtain rfl := Option.some.inj isGiven
      obtain ⟨ports',isExported,all⟩ := kept port rest (by rw [given_eq])
      rw [given_eq] at all
      obtain rfl := Option.some.inj (isExported.symm.trans exported)
      obtain ⟨inside,rfl⟩ := List.getElem?_eq_some_iff.mp isPort
      obtain rfl : given.getLast nonempty = last :=
        Option.some.inj ((List.getLast?_eq_some_getLast nonempty).symm.trans isLast)
      have one := all.get inside (all.length_eq ▸ inside)
      simp only [List.get_eq_getElem,List.getElem_mapIdx] at one
      exact ⟨one.portId.symm,fun size isSize => (Option.some.inj (one.bufferSize size isSize)).symm⟩
    · intro told port' rest' isGiven
      refine ⟨_,exported,?_⟩
      rw [← Option.some.inj isGiven]
      refine List.forall₂_iff_get.mpr ⟨by rw [List.length_mapIdx,same_length],fun i inside within => ?_⟩
      have there : i < queues.length := same_length ▸ inside
      obtain ⟨portId,bufferSize⟩ := told given rfl (given.getLast nonempty)
        (List.getLast?_eq_some_getLast nonempty) i given[i] (List.getElem?_eq_getElem inside)
      simp only [List.get_eq_getElem,List.getElem_mapIdx]
      exact ⟨portId.symm,(size i inside there).2,fun size isSize => by rw [bufferSize size isSize]⟩

/-! ### Nodes -/

/-- What an exported node has of the description. -/
structure Tells (n : Node F V) (s : NodeState F V) : Prop where
  id : s.id = n.nodeId
  type : s.type = workerNode
  name : s.name = n.nodeName
  position : s.position = n.position
  data : s.data = n.data
  style : s.style = n.style
  inputs : s.inputs.map QueueState.size = queueSizes n.inPorts
  outputs : s.outputs.map QueueState.size = (queueSizes n.outPorts).map outputSize

theorem Stands.tells {n : Node F V} {handle : NodeHandle σ F V} (stands : Stands n handle) :
    Tells n handle.exportState where
  id := stands.id
  type := rfl
  name := stands.name
  position := by rw [NodeHandle.exportState,stands.configRef]
  data := by rw [NodeHandle.exportState,stands.configRef]
  style := by rw [NodeHandle.exportState,stands.configRef]
  inputs := (sizes_exportInput _).trans stands.inputs
  outputs := (sizes_exportOutput _).trans stands.outputs

variable {circle : (i count : Nat) → Position F}

/-- Position and display data of the node that is `i`-th of `count`. -/
theorem dataKept_iff {n : Node F V} {s : NodeState F V} (tells : Tells n s) (count i : Nat) :
    ((toNode circle count i s).position = n.position ∧ n.data.Kept (toNode circle count i s).data) ↔
      n.data.id ≠ "" ∨ n.data.MadeUp n.nodeId ∧ n.position = circle i count := by
  unfold toNode
  dsimp only
  rw [tells.data]
  by_cases missing : n.data.id = ""
  · rw [if_pos missing,if_pos missing,or_iff_right (not_not_intro missing)]
    constructor
    · rintro ⟨position,kept⟩
      refine ⟨⟨fun label isLabel => ?_,fun type isType => ?_,?_⟩,position.symm⟩
      · have made := kept.label label isLabel
        rw [generatedData,tells.id] at made
        exact (Option.some.inj made).symm
      · have made := kept.type type isType
        rw [generatedData,tells.type] at made
        exact (Option.some.inj made).symm
      · by_contra given
        exact given (kept.additionalProperties given).symm
    · rintro ⟨made,position⟩
      refine ⟨position.symm,fun given => absurd missing given,fun label isLabel => ?_,fun type isType => ?_,
        fun given => absurd made.additionalProperties given⟩
      · rw [generatedData,tells.id,made.label label isLabel]
      · rw [generatedData,tells.type,made.type type isType]
  · rw [if_neg missing,if_neg missing,tells.position]
    exact ⟨fun _ => .inl missing,fun _ => ⟨rfl,fun _ => rfl,fun _ => id,fun _ => id,fun _ => rfl⟩⟩

/-- A name is given back unless it is empty: a name that is made up is not. -/
theorem nameKept_iff (s : NodeState F V) : getNodeName s = s.name ↔ s.name ≠ "" := by
  unfold getNodeName
  by_cases unnamed : s.name = ""
  · rw [if_pos unnamed,unnamed]
    refine ⟨fun same => ?_,fun named => absurd rfl named⟩
    have start : toString "Node_" = "" := (String.append_eq_empty_iff.mp same).1
    exact absurd start (by decide)
  · rw [if_neg unnamed]
    exact ⟨fun _ => unnamed,fun _ => rfl⟩

/-- The sizes of the queues of given ports. -/
theorem queueSizes_given (port : Port) (rest : List Port) :
    queueSizes (some (port :: rest)) = (port :: rest).map (fun p => (inputCapacity p,p.bandwidth)) ∧
      (queueSizes (some (port :: rest))).map outputSize = (port :: rest).map fun p => (outputCapacity p,p.bandwidth) := by
  refine ⟨rfl,?_⟩
  unfold queueSizes
  rw [List.map_map]
  rfl

/-- When the node that is `i`-th of `count` is given back. -/
theorem nodeKept_iff {n : Node F V} {s : NodeState F V} (tells : Tells n s) (count i : Nat) :
    n.Kept (toNode circle count i s) ↔ n.nodeName ≠ "" ∧
      (n.data.id ≠ "" ∨ n.data.MadeUp n.nodeId ∧ n.position = circle i count) ∧
      PortsTold inputCapacity n.inPorts ∧ PortsTold outputCapacity n.outPorts := by
  have inputs : PortsKept n.inPorts (toPorts s.inputs) ↔ PortsTold inputCapacity n.inPorts := by
    refine portsKept_iff fun port rest given => ?_
    rw [tells.inputs,given]
    exact (queueSizes_given port rest).1
  have outputs : PortsKept n.outPorts (toPorts s.outputs) ↔ PortsTold outputCapacity n.outPorts := by
    refine portsKept_iff fun port rest given => ?_
    rw [tells.outputs,given]
    exact (queueSizes_given port rest).2
  have name : getNodeName s = n.nodeName ↔ n.nodeName ≠ "" := by
    rw [← tells.name]
    exact nameKept_iff s
  rw [← dataKept_iff tells count i,← inputs,← outputs,← name]
  constructor
  · intro kept
    exact ⟨kept.nodeName,⟨kept.position,kept.data⟩,kept.inPorts,kept.outPorts⟩
  · rintro ⟨name,⟨position,data⟩,inPorts,outPorts⟩
    exact ⟨tells.id,name,position,data,fun style isStyle => tells.style.trans isStyle,inPorts,outPorts⟩

/-- In a list sorted by different keys, as many keys are less than one as come before it. -/
theorem countP_lt_of_sorted {α : Type} {key : α → Int} : ∀ {xs : List α},
    (xs.Pairwise fun x y => key x < key y) →
      ∀ (i : Nat) (inside : i < xs.length), xs.countP (fun x => key x < key xs[i]) = i
  | x :: rest, sorted, 0, _ => by
    obtain ⟨before,-⟩ := List.pairwise_cons.mp sorted
    refine List.countP_eq_zero.mpr fun y member less => ?_
    have less : key y < key x := of_decide_eq_true less
    rcases List.mem_cons.mp member with rfl | later
    · exact lt_irrefl _ less
    · exact lt_asymm less (before y later)
  | x :: rest, sorted, i + 1, inside => by
    obtain ⟨before,later⟩ := List.pairwise_cons.mp sorted
    have inside' : i < rest.length := Nat.lt_of_succ_lt_succ inside
    have first : key x < key rest[i] := before _ (List.getElem_mem inside')
    rw [List.countP_cons]
    simp only [List.getElem_cons_succ,first,decide_true,↓reduceIte]
    rw [countP_lt_of_sorted later i inside']

/-- The exported nodes in the order of their ids, and the nodes of the description with them. -/
theorem Built.sorted_nodes {flowNet : FlowSimNetwork F V} {net : Network σ F V} (built : Built flowNet net)
    (sortNodes : Sorting (NodeState F V) NodeState.Before) : ∃ nodes, nodes.Perm flowNet.nodes ∧
      List.Forall₂ Tells nodes (sortNodes.sort (net.nodes.map NodeHandle.exportState)) ∧
      nodes.Pairwise fun n n' => n.nodeId < n'.nodeId := by
  have tell : List.Forall₂ Tells flowNet.nodes (net.nodes.map NodeHandle.exportState) :=
    List.forall₂_map_right_iff.mpr (built.nodes.imp fun _ _ => Stands.tells)
  have either : Relation.Comp (List.Forall₂ Tells) List.Perm flowNet.nodes
      (sortNodes.sort (net.nodes.map NodeHandle.exportState)) :=
    ⟨_,tell,(sortNodes.perm _).symm⟩
  rw [List.forall₂_comp_perm_eq_perm_comp_forall₂] at either
  obtain ⟨nodes,perm,tell⟩ := either
  refine ⟨nodes,perm.symm,tell,?_⟩
  have nodup : (nodes.map Node.nodeId).Nodup := (perm.map Node.nodeId).nodup_iff.mp built.nodup
  have sorted := sortNodes.sorted (net.nodes.map NodeHandle.exportState)
  generalize sortNodes.sort (net.nodes.map NodeHandle.exportState) = states at tell sorted
  have ids : nodes.map Node.nodeId = states.map NodeState.id := by
    have alike : List.Forall₂ (fun n s => n.nodeId = s.id) nodes states := tell.imp fun _ _ tells => tells.id.symm
    exact List.forall₂_eq_eq_eq ▸ List.forall₂_map_left_iff.mpr (List.forall₂_map_right_iff.mpr alike)
  have ascending : (states.map NodeState.id).Pairwise fun i j => i ≤ j :=
    List.pairwise_map.mpr (sorted.imp fun before => not_lt.mp before)
  rw [← ids] at ascending
  exact List.pairwise_map.mp ((ascending.and nodup).imp fun both => lt_of_le_of_ne both.1 both.2)

/-- Lists of the same nodes with the same ids in the same order are the same. -/
theorem eq_of_ids_eq {nodes nodes' : List (Node F V)} (perm : nodes'.Perm nodes)
    (nodup : (nodes.map Node.nodeId).Nodup) (ids : nodes'.map Node.nodeId = nodes.map Node.nodeId) : nodes' = nodes := by
  refine List.ext_getElem perm.length_eq fun i inside inside' => ?_
  have same : nodes'[i].nodeId = nodes[i].nodeId := by
    have one : (nodes'.map Node.nodeId)[i]? = (nodes.map Node.nodeId)[i]? := by rw [ids]
    rw [List.getElem?_map,List.getElem?_map,List.getElem?_eq_getElem inside,List.getElem?_eq_getElem inside'] at one
    exact Option.some.inj one
  have member : nodes'[i] ∈ nodes := perm.mem_iff.mp (List.getElem_mem inside)
  exact List.inj_on_of_nodup_map nodup member (List.getElem_mem inside') same

/-- When all nodes are given back. -/
theorem nodes_preserved_iff {flowNet : FlowSimNetwork F V} {net : Network σ F V} (built : Built flowNet net)
    (sortNodes : Sorting (NodeState F V) NodeState.Before) (sortLinks : Sorting (LinkState V) LinkState.Before) :
    (∃ nodes, nodes.Perm flowNet.nodes ∧ List.Forall₂ Node.Kept nodes
      (stateToFlowSimNetwork circle (net.exportState sortNodes sortLinks)).nodes) ↔
      ∀ n ∈ flowNet.nodes, NodeTold circle flowNet n := by
  obtain ⟨nodes,perm,tell,ascending⟩ := built.sorted_nodes sortNodes
  unfold stateToFlowSimNetwork Network.exportState
  dsimp only
  generalize sortNodes.sort (net.nodes.map NodeHandle.exportState) = states at tell
  have count : states.length = flowNet.nodes.length := tell.length_eq.symm.trans perm.length_eq
  have one : ∀ (i : Nat) (inside : i < nodes.length) (within : i < states.length),
      nodes[i].Kept (toNode circle states.length i states[i]) ↔ NodeTold circle flowNet nodes[i] := by
    intro i inside within
    have before : flowNet.nodes.countP (fun other => other.nodeId < nodes[i].nodeId) = i := by
      rw [← perm.countP_eq]
      exact countP_lt_of_sorted ascending i inside
    have tells : Tells nodes[i] states[i] := tell.get inside within
    rw [nodeKept_iff tells]
    have told : NodeTold circle flowNet nodes[i] ↔ nodes[i].nodeName ≠ "" ∧ DataTold circle flowNet nodes[i] ∧
        PortsTold inputCapacity nodes[i].inPorts ∧ PortsTold outputCapacity nodes[i].outPorts := by
      constructor
      · exact fun told => ⟨told.named,told.data,told.inPorts,told.outPorts⟩
      · exact fun told => ⟨told.1,told.2.1,told.2.2.1,told.2.2.2⟩
    rw [told,DataTold,before,count]
  constructor
  · rintro ⟨nodes',perm',kept⟩ n member
    have ids : nodes'.map Node.nodeId = nodes.map Node.nodeId := by
      have lengths : nodes'.length = nodes.length := perm'.length_eq.trans perm.length_eq.symm
      refine List.ext_getElem (by rw [List.length_map,List.length_map,lengths]) fun i inside inside' => ?_
      rw [List.length_map] at inside inside'
      have within : i < states.length := tell.length_eq ▸ inside'
      have same := (kept.get inside (by rw [List.length_mapIdx]; exact within)).nodeId
      simp only [List.get_eq_getElem,List.getElem_mapIdx] at same
      rw [List.getElem_map,List.getElem_map,← same]
      exact (tell.get inside' within).id
    have nodup : (nodes.map Node.nodeId).Nodup := (perm.map Node.nodeId).nodup_iff.mpr built.nodup
    obtain rfl := eq_of_ids_eq (perm'.trans perm.symm) nodup ids
    obtain ⟨i,inside,rfl⟩ := List.getElem_of_mem (perm.mem_iff.mpr member)
    have within : i < states.length := tell.length_eq ▸ inside
    have this_one := kept.get inside (by rw [List.length_mapIdx]; exact within)
    simp only [List.get_eq_getElem,List.getElem_mapIdx] at this_one
    exact (one i inside within).mp this_one
  · intro told
    refine ⟨nodes,perm,List.forall₂_iff_get.mpr ⟨?_,fun i inside within => ?_⟩⟩
    · rw [List.length_mapIdx,tell.length_eq]
    · simp only [List.get_eq_getElem,List.getElem_mapIdx]
      exact (one i inside (tell.length_eq ▸ inside)).mpr (told _ (perm.mem_iff.mp (List.getElem_mem inside)))

/-! ### Edges -/

/-- What an exported link has of the description. -/
structure LinkTells (e : Edge V) (s : LinkState V) : Prop where
  sourceID : s.sourceID = e.srcNodeId
  sourcePortID : s.sourcePortID = e.srcPortId.getD 0
  targetID : s.targetID = e.dstNodeId
  targetPortID : s.targetPortID = e.dstPortId.getD 0
  latency : s.latency = e.latency.getD 1
  latency_pos : 0 < s.latency
  bandwidth : s.bandwidth = e.bandwidth.getD 1
  bandwidth_pos : 0 < s.bandwidth
  packetTypes : s.packetTypes = (e.packetTypes.getD []).map Int.repr
  edgeID : s.edgeID = e.edgeId

theorem LinkStands.tells {e : Edge V} {l : NetLink V} (stands : LinkStands e l) : LinkTells e l.exportState where
  sourceID := stands.sourceID
  sourcePortID := stands.sourcePortID
  targetID := stands.targetID
  targetPortID := stands.targetPortID
  latency := stands.latency
  latency_pos := Int.natCast_pos.mpr stands.latency_pos
  bandwidth := stands.bandwidth
  bandwidth_pos := stands.bandwidth_pos
  packetTypes := by rw [NetLink.exportState,stands.configRef]
  edgeID := by rw [NetLink.exportState,stands.configRef]

/-- Whatever edge is given back has the latency and bandwidth of the last link. -/
theorem Edge.Kept.sizes {e : Edge V} {s last : LinkState V} (kept : e.Kept (toEdge last s))
    (latency_pos : 0 < s.latency) (bandwidth_pos : 0 < s.bandwidth) :
    e.latency.getD 1 = last.latency ∧ e.bandwidth.getD 1 = last.bandwidth := by
  have latency := kept.latency
  have bandwidth := kept.bandwidth
  rw [toEdge,if_pos latency_pos] at latency
  rw [toEdge,if_pos bandwidth_pos] at bandwidth
  exact ⟨(Option.some.inj latency).symm,(Option.some.inj bandwidth).symm⟩

/-- An edge is given back when its latency and bandwidth are those of the last link. -/
theorem edgeKept_iff {e : Edge V} {s : LinkState V} (tells : LinkTells e s) (last : LinkState V) :
    e.Kept (toEdge last s) ↔ e.latency.getD 1 = last.latency ∧ e.bandwidth.getD 1 = last.bandwidth := by
  constructor
  · exact fun kept => kept.sizes tells.latency_pos tells.bandwidth_pos
  · rintro ⟨latency,bandwidth⟩
    refine ⟨tells.edgeID,tells.sourceID,tells.targetID,congrArg some tells.sourcePortID,
      congrArg some tells.targetPortID,?_,?_,?_⟩
    · rw [latency]
      exact if_pos tells.latency_pos
    · rw [bandwidth]
      exact if_pos tells.bandwidth_pos
    · rw [toEdge,tells.packetTypes]
      exact scannedTypes_repr _

/-- The exported links in their order, and the edges of the description with them. -/
theorem Built.sorted_links {flowNet : FlowSimNetwork F V} {net : Network σ F V} (built : Built flowNet net)
    (sortLinks : Sorting (LinkState V) LinkState.Before) : ∃ edges, edges.Perm flowNet.edges ∧
      List.Forall₂ LinkTells edges (sortLinks.sort (net.links.map NetLink.exportState)) := by
  have tell : List.Forall₂ LinkTells flowNet.edges (net.links.map NetLink.exportState) :=
    List.forall₂_map_right_iff.mpr (built.links.imp fun _ _ => LinkStands.tells)
  have either : Relation.Comp (List.Forall₂ LinkTells) List.Perm flowNet.edges
      (sortLinks.sort (net.links.map NetLink.exportState)) :=
    ⟨_,tell,(sortLinks.perm _).symm⟩
  rw [List.forall₂_comp_perm_eq_perm_comp_forall₂] at either
  obtain ⟨edges,perm,tell⟩ := either
  exact ⟨edges,perm.symm,tell⟩

/-- Every node of the description is among the exported nodes. -/
theorem Built.exported {flowNet : FlowSimNetwork F V} {net : Network σ F V} (built : Built flowNet net)
    (sortNodes : Sorting (NodeState F V) NodeState.Before) {n : Node F V} (member : n ∈ flowNet.nodes) :
    (sortNodes.sort (net.nodes.map NodeHandle.exportState)).any (fun s => s.id = n.nodeId) = true := by
  obtain ⟨nodes,perm,tell,-⟩ := built.sorted_nodes sortNodes
  obtain ⟨i,inside,rfl⟩ := List.getElem_of_mem (perm.mem_iff.mpr member)
  have tells : Tells nodes[i] _ := tell.get inside (tell.length_eq ▸ inside)
  exact List.any_eq_true.mpr ⟨_,List.getElem_mem _,decide_eq_true tells.id⟩

/-- No link is skipped: the exported edges are those of all links. -/
theorem Built.exported_edges {flowNet : FlowSimNetwork F V} {net : Network σ F V} (built : Built flowNet net)
    (sortNodes : Sorting (NodeState F V) NodeState.Before) (sortLinks : Sorting (LinkState V) LinkState.Before)
    {last : LinkState V} (isLast : (sortLinks.sort (net.links.map NetLink.exportState)).getLast? = some last) :
    (stateToFlowSimNetwork circle (net.exportState sortNodes sortLinks)).edges =
      (sortLinks.sort (net.links.map NetLink.exportState)).map (toEdge last) := by
  obtain ⟨edges,perm,tell⟩ := built.sorted_links sortLinks
  unfold stateToFlowSimNetwork Network.exportState
  dsimp only
  rw [isLast]
  dsimp only
  refine congrArg (List.map (toEdge last)) (List.filter_eq_self.mpr fun s member => ?_)
  obtain ⟨i,inside,rfl⟩ := List.getElem_of_mem member
  have within : i < edges.length := tell.length_eq ▸ inside
  have tells : LinkTells edges[i] _ := tell.get within inside
  obtain ⟨⟨source,isNode,isSource⟩,⟨target,isNode',isTarget⟩⟩ :=
    built.ends edges[i] (perm.mem_iff.mp (List.getElem_mem within))
  have sourceKnown := built.exported sortNodes isNode
  have targetKnown := built.exported sortNodes isNode'
  rw [isSource,← tells.sourceID] at sourceKnown
  rw [isTarget,← tells.targetID] at targetKnown
  exact Bool.and_eq_true_iff.mpr ⟨sourceKnown,targetKnown⟩

/-- When all edges are given back. -/
theorem edges_preserved_iff {flowNet : FlowSimNetwork F V} {net : Network σ F V} (built : Built flowNet net)
    (sortNodes : Sorting (NodeState F V) NodeState.Before) (sortLinks : Sorting (LinkState V) LinkState.Before) :
    (∃ edges, edges.Perm flowNet.edges ∧ List.Forall₂ Edge.Kept edges
      (stateToFlowSimNetwork circle (net.exportState sortNodes sortLinks)).edges) ↔
      ∀ e ∈ flowNet.edges, ∀ e' ∈ flowNet.edges,
        e.latency.getD 1 = e'.latency.getD 1 ∧ e.bandwidth.getD 1 = e'.bandwidth.getD 1 := by
  obtain ⟨edges,perm,tell⟩ := built.sorted_links sortLinks
  rcases isLast : (sortLinks.sort (net.links.map NetLink.exportState)).getLast? with _ | last
  · have no_states := List.getLast?_eq_none_iff.mp isLast
    rw [no_states] at tell
    cases tell
    have no_edges : flowNet.edges = [] := perm.symm.eq_nil
    rw [no_edges]
    refine ⟨fun _ e member => (by cases member),fun _ => ⟨[],.refl _,?_⟩⟩
    unfold stateToFlowSimNetwork Network.exportState
    dsimp only
    rw [isLast]
    exact .nil
  · rw [built.exported_edges sortNodes sortLinks isLast]
    generalize sortLinks.sort (net.links.map NetLink.exportState) = states at tell isLast
    constructor
    · rintro ⟨edges',perm',kept⟩
      have same : ∀ e ∈ flowNet.edges, e.latency.getD 1 = last.latency ∧ e.bandwidth.getD 1 = last.bandwidth := by
        intro e member
        obtain ⟨i,inside,rfl⟩ := List.getElem_of_mem (perm'.mem_iff.mpr member)
        have within : i < states.length := by rw [← List.length_map,← kept.length_eq]; exact inside
        have this_one := kept.get inside (by rw [List.length_map]; exact within)
        simp only [List.get_eq_getElem,List.getElem_map] at this_one
        have tells : LinkTells _ states[i] := tell.get (by rw [tell.length_eq]; exact within) within
        exact this_one.sizes tells.latency_pos tells.bandwidth_pos
      intro e member e' member'
      rw [(same e member).1,(same e member).2,(same e' member').1,(same e' member').2]
      exact ⟨rfl,rfl⟩
    · intro equal
      refine ⟨edges,perm,List.forall₂_map_right_iff.mpr ?_⟩
      refine List.forall₂_iff_get.mpr ⟨tell.length_eq,fun i inside within => ?_⟩
      have tells : LinkTells edges[i] states[i] := tell.get inside within
      refine (edgeKept_iff tells last).mpr ?_
      have last_eq : states[states.length - 1]? = some last := by rw [← List.getLast?_eq_getElem?]; exact isLast
      obtain ⟨there,rfl⟩ := List.getElem?_eq_some_iff.mp last_eq
      have there' : states.length - 1 < edges.length := tell.length_eq ▸ there
      have last_tells : LinkTells edges[states.length - 1] states[states.length - 1] := tell.get there' there
      rw [last_tells.latency,last_tells.bandwidth]
      exact equal _ (perm.mem_iff.mp (List.getElem_mem inside)) _ (perm.mem_iff.mp (List.getElem_mem there'))

/-! ### The whole description -/

/-- A node without a handler of its own leaves its packets where they are. -/
def idle : Handler Unit := fun _ state _ => return (none,state)

def sizedPort (portId bufferSize : Int) : Port := { portId, bandwidth := 1, bufferSize := some bufferSize }

def worker (nodeId : Int) (position : Position Int) (ports : List Port) : Node Int Unit where
  nodeId := nodeId
  nodeName := s!"Node_{nodeId}"
  nodeType := none
  nodeFeatures := some [workerNode]
  inPorts := some ports
  outPorts := some ports
  position := position
  data := { id := s!"node-{nodeId}", label := none, type := none, additionalProperties := [] }
  style := none

/-- Parallel links from the first node to the second. -/
def wire (port latency : Int) : Edge Unit where
  edgeId := port + 1
  srcNodeId := 0
  srcPortId := some port
  dstNodeId := 1
  dstPortId := some port
  latency := some latency
  bandwidth := some 1
  packetTypes := none
  data := {
    id := s!"edge-0-p{port}-1-p{port}"
    source := "node-0"
    target := "node-1"
    lineType := none
    additionalProperties := [] }
  linkStatus := none

def twoNodes (ports : List Port) (edges : List (Edge Unit)) : FlowSimNetwork Int Unit where
  version := some "1.0.0"
  cycle := some 0
  nodes := [worker 0 ⟨150,250⟩ ports,worker 1 ⟨350,450⟩ ports]
  edges := edges

def onePlace (_ _ : Nat) : Position Int := ⟨0,0⟩

/-- Nothing arrives and nothing is taken. -/
def quiet {P : Type} (_ : Unit) : (op : P × PortOp) → Option (op.2.Resp × Unit)
  | (_,.retrieve _) => some ([],())
  | (_,.isReady _) => some (false,())
  | (_,.drainChannel) | (_,.waitDone _) | (_,.updateReady ..) | (_,.send _) | (_,.markDone _) => some ((),())

def NodeHandle.quietly (targetCycle : Nat) (handle : NodeHandle Unit F V) : Option (NodeHandle Unit F V) :=
  ((handle.node.advanceTo idle stableSort targetCycle).runWith quiet ()).map fun r => { handle with node := r.1.2 }

def NetLink.quietly (targetCycle : Nat) (l : NetLink V) : Option (NetLink V) :=
  ((l.link.advanceTo BufferedLinkType.linkType targetCycle).runWith quiet ()).bind fun r =>
    r.1.map fun link => { l with link }

/-- An advance of the network among quiet ports. -/
def Network.quietly (targetCycle : Nat) (net : Network Unit F V) : Option (Network Unit F V) := do
  let nodes ← net.nodes.mapM (NodeHandle.quietly targetCycle)
  let links ← net.links.mapM (NetLink.quietly targetCycle)
  return { nodes, links, currentCycle := targetCycle + 1 }

theorem forall₂_of_mapM {α β : Type} {f : α → Option β} : ∀ {xs : List α} {ys : List β},
    xs.mapM f = some ys → List.Forall₂ (fun x y => f x = some y) xs ys
  | [], ys, all => by
    obtain rfl := Option.some.inj all
    exact .nil
  | x :: rest, ys, all => by
    rw [List.mapM_cons] at all
    obtain ⟨y,first,all⟩ := Option.bind_eq_some_iff.mp all
    obtain ⟨ys',others,all⟩ := Option.bind_eq_some_iff.mp all
    obtain rfl := Option.some.inj all
    exact .cons first (forall₂_of_mapM others)

theorem Network.quietly_advancesTo {targetCycle : Nat} {net net' : Network Unit F V}
    (advances : net.quietly targetCycle = some net') : net.AdvancesTo idle stableSort targetCycle net' := by
  obtain ⟨nodes,nodes_advance,advances⟩ := Option.bind_eq_some_iff.mp advances
  obtain ⟨links,links_advance,advances⟩ := Option.bind_eq_some_iff.mp advances
  obtain rfl := Option.some.inj advances
  refine ⟨(forall₂_of_mapM nodes_advance).imp fun handle handle' quietly => ?_,
    (forall₂_of_mapM links_advance).imp fun l l' quietly => ?_,rfl⟩
  · obtain ⟨⟨⟨error,node⟩,_⟩,run,rfl⟩ := Option.map_eq_some_iff.mp quietly
    exact ⟨rfl,rfl,error,Prog.returns_of_runWith run⟩
  · obtain ⟨⟨link?,_⟩,run,given⟩ := Option.bind_eq_some_iff.mp quietly
    obtain ⟨link,rfl,rfl⟩ := Option.map_eq_some_iff.mp given
    exact ⟨link,Prog.returns_of_runWith run,rfl⟩

theorem ok_of_toOption {ε α : Type} {x : Except ε α} {value : α} (isOk : x.toOption = some value) : x = .ok value := by
  cases x with
  | error _ => cases isOk
  | ok given => exact congrArg Except.ok (Option.some.inj isOk)

theorem portsTold_single {capacity : Port → Int} {size : Int} (same : capacity (sizedPort 0 size) = size) :
    PortsTold capacity (some [sizedPort 0 size]) := by
  intro given isGiven last isLast i port isPort
  obtain rfl := Option.some.inj isGiven
  obtain rfl : sizedPort 0 size = last := Option.some.inj isLast
  obtain ⟨inside,rfl⟩ := List.getElem?_eq_some_iff.mp isPort
  obtain rfl : i = 0 := Nat.lt_one_iff.mp inside
  exact ⟨rfl,fun given isSize => (Option.some.inj isSize).symm.trans same.symm⟩

def oneLink : FlowSimNetwork Int Unit := twoNodes [sizedPort 0 64] [wire 0 10]

def twoLinks : FlowSimNetwork Int Unit := twoNodes [sizedPort 0 64,sizedPort 1 32] [wire 0 10,wire 1 1]

/-- The buffer sizes and latencies of a description. -/
def FlowSimNetwork.sizes (flowNet : FlowSimNetwork F V) : List (Option (List (Option Int))) × List (Option Int) :=
  (flowNet.nodes.map fun n => n.inPorts.map (List.map Port.bufferSize),flowNet.edges.map Edge.latency)

end

end FlowSim.Visualization
