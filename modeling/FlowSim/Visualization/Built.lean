import FlowSim.Visualization.Builder

/-!
What a network has of the description it was built from. The nodes and links stand for the
nodes and edges of the description, one for one, and go on to do so however far the network
advances.
-/
namespace FlowSim.Visualization
open FlowSim.Lib FlowSim.Queue FlowSim.Node FlowSim.Links
set_option linter.unusedSimpArgs false

/-- Capacities and bandwidths as the export gives them. -/
def asInts (size : Nat × Nat) : Int × Int := (size.1,size.2)

/-- An output queue does not get the capacity 0 or less. -/
def outputSize (size : Int × Int) : Int × Int := (if size.1 ≤ 0 then 8 else size.1,size.2)

section
variable {σ F V : Type}

/-- The node of the network stands for that of the description. -/
structure Stands (n : Node F V) (handle : NodeHandle σ F V) : Prop where
  id : handle.node.id = n.nodeId
  name : handle.name = n.nodeName
  configRef : handle.configRef = n
  inputs : handle.node.queues.sizes.1.map asInts = queueSizes n.inPorts
  outputs : handle.node.queues.sizes.2.map asInts = (queueSizes n.outPorts).map outputSize

/-- The link stands for the edge, with its defaults. -/
structure LinkStands (e : Edge V) (l : NetLink V) : Prop where
  sourceID : l.sourceID = e.srcNodeId
  sourcePortID : l.sourcePortID = e.srcPortId.getD 0
  targetID : l.targetID = e.dstNodeId
  targetPortID : l.targetPortID = e.dstPortId.getD 0
  latency : (l.link.latency : Int) = e.latency.getD 1
  latency_pos : 0 < l.link.latency
  bandwidth : l.bandwidth = e.bandwidth.getD 1
  bandwidth_pos : 0 < l.bandwidth
  configRef : l.configRef = e

/-- What never changes of a node. -/
structure Kin (handle handle' : NodeHandle σ F V) : Prop where
  id : handle'.node.id = handle.node.id
  name : handle'.name = handle.name
  configRef : handle'.configRef = handle.configRef
  sizes : handle'.node.queues.sizes = handle.node.queues.sizes

theorem Kin.refl (handle : NodeHandle σ F V) : Kin handle handle := ⟨rfl,rfl,rfl,rfl⟩

theorem Kin.trans {handle handle' handle'' : NodeHandle σ F V} (first : Kin handle handle')
    (second : Kin handle' handle'') : Kin handle handle'' where
  id := second.id.trans first.id
  name := second.name.trans first.name
  configRef := second.configRef.trans first.configRef
  sizes := second.sizes.trans first.sizes

theorem Stands.kin {n : Node F V} {handle handle' : NodeHandle σ F V} (stands : Stands n handle)
    (kin : Kin handle handle') : Stands n handle' where
  id := kin.id.trans stands.id
  name := kin.name.trans stands.name
  configRef := kin.configRef.trans stands.configRef
  inputs := by rw [kin.sizes,stands.inputs]
  outputs := by rw [kin.sizes,stands.outputs]

/-- The network stands for the description. -/
structure Built (flowNet : FlowSimNetwork F V) (net : Network σ F V) : Prop where
  nodes : List.Forall₂ Stands flowNet.nodes net.nodes
  links : List.Forall₂ LinkStands flowNet.edges net.links
  nodup : (flowNet.nodes.map Node.nodeId).Nodup
  ends : ∀ e ∈ flowNet.edges,
    (∃ n ∈ flowNet.nodes, n.nodeId = e.srcNodeId) ∧ ∃ n ∈ flowNet.nodes, n.nodeId = e.dstNodeId

theorem forall₂_trans {α β γ : Type} {R : α → β → Prop} {S : β → γ → Prop} {T : α → γ → Prop}
    (step : ∀ a b c, R a b → S b c → T a c) : ∀ {as : List α} {bs : List β} {cs : List γ},
      List.Forall₂ R as bs → List.Forall₂ S bs cs → List.Forall₂ T as cs
  | _, _, _, .nil, .nil => .nil
  | _, _, _, .cons first rest, .cons first' rest' => .cons (step _ _ _ first first') (forall₂_trans step rest rest')

theorem kin_trans {handles handles' handles'' : List (NodeHandle σ F V)} (first : List.Forall₂ Kin handles handles')
    (second : List.Forall₂ Kin handles' handles'') : List.Forall₂ Kin handles handles'' :=
  forall₂_trans (R := Kin) (S := Kin) (T := Kin) (fun _ _ _ => Kin.trans) first second

/-! ### Queues -/

theorem createInput_ok {capacity bandwidth : Int} {iq : InputQueue} (created : createInput capacity bandwidth = .ok iq) :
    asInts (sizeIn iq) = (capacity,bandwidth) := by
  unfold createInput at created
  split_ifs at created with pos bandwidthPos
  obtain rfl := Except.ok.inj created
  have capacity_eq : (InputQueue.newInputQueue capacity.toNat bandwidth.toNat (by omega) (by omega)).capacity =
      capacity.toNat := List.length_replicate
  rw [asInts,sizeIn,capacity_eq]
  exact Prod.ext (Int.toNat_of_nonneg pos.le) (Int.toNat_of_nonneg bandwidthPos.le)

theorem createOutput_ok {capacity bandwidth : Int} {oq : OutputQueue} (created : createOutput capacity bandwidth = .ok oq) :
    asInts (sizeOut oq) = outputSize (capacity,bandwidth) := by
  unfold createOutput at created
  split_ifs at created with bandwidthPos
  obtain rfl := Except.ok.inj created
  have capacity_eq : (OutputQueue.newOutputQueue capacity bandwidth.toNat (by omega)).capacity =
      if capacity ≤ 0 then 8 else capacity.toNat := List.length_replicate
  rw [asInts,sizeOut,capacity_eq,outputSize]
  refine Prod.ext ?_ (Int.toNat_of_nonneg bandwidthPos.le)
  dsimp only
  split_ifs with none_given
  · rfl
  · exact Int.toNat_of_nonneg (not_le.mp none_given).le

theorem createQueues_ok {Q : Type} {create : Int → Int → Except String Q} {size : Q → Nat × Nat}
    (given : Int × Int → Int × Int) (one : ∀ {capacity bandwidth q}, create capacity bandwidth = .ok q →
      asInts (size q) = given (capacity,bandwidth)) : ∀ {sizes : List (Int × Int)} {qs : List Q},
      createQueues create sizes = .ok qs → (qs.map size).map asInts = sizes.map given
  | [], qs, created => by
    obtain rfl := Except.ok.inj created
    rfl
  | (capacity,bandwidth) :: rest, qs, created => by
    obtain ⟨q,first,created⟩ := bind_ok_iff.mp created
    obtain ⟨qs',others,created⟩ := bind_ok_iff.mp created
    obtain rfl := Except.ok.inj created
    rw [List.map_cons,List.map_cons,List.map_cons,one first,createQueues_ok given one others]

/-! ### Nodes -/

theorem buildNode_ok {state : σ} {n : Node F V} {handle : NodeHandle σ F V} (built : buildNode state n = .ok handle) :
    Stands n handle := by
  obtain ⟨iqs,inputs,built⟩ := bind_ok_iff.mp built
  obtain ⟨oqs,outputs,built⟩ := bind_ok_iff.mp built
  have inputs_eq := createQueues_ok id createInput_ok inputs
  have outputs_eq := createQueues_ok outputSize createOutput_ok outputs
  rw [List.map_id] at inputs_eq
  split at built
  · cases built
  · obtain rfl := Except.ok.inj built
    exact ⟨rfl,rfl,rfl,inputs_eq,outputs_eq⟩

theorem addNode_ok {net net' : Network σ F V} {handle : NodeHandle σ F V} (added : net.addNode handle = .ok net') :
    (∀ other ∈ net.nodes, other.node.id ≠ handle.node.id) ∧ net' = { net with nodes := net.nodes ++ [handle] } := by
  unfold Network.addNode at added
  split_ifs at added with known
  refine ⟨fun other member same => known ?_,(Except.ok.inj added).symm⟩
  exact List.any_eq_true.mpr ⟨other,member,decide_eq_true same⟩

/-- All nodes are added, each with an id of its own. -/
theorem addNodes_ok {state : σ} : ∀ {nodes : List (Node F V)} {net net' : Network σ F V},
    net.addNodes state nodes = .ok net' →
    ∃ handles, net' = { net with nodes := net.nodes ++ handles } ∧ List.Forall₂ Stands nodes handles ∧
      ((net.nodes.map fun handle => handle.node.id).Nodup → (net'.nodes.map fun handle => handle.node.id).Nodup)
  | [], net, net', added => by
    obtain rfl := Except.ok.inj added
    exact ⟨[],by rw [List.append_nil],.nil,id⟩
  | n :: rest, net, net', added => by
    obtain ⟨handle,built,added⟩ := bind_ok_iff.mp added
    obtain ⟨net'',one,added⟩ := bind_ok_iff.mp added
    obtain ⟨new,rfl⟩ := addNode_ok one
    obtain ⟨handles,same,stand,nodup⟩ := addNodes_ok added
    refine ⟨handle :: handles,?_,.cons (buildNode_ok built) stand,fun before => nodup ?_⟩
    · rw [same,List.append_assoc]
      rfl
    · rw [List.map_append]
      refine List.Nodup.append before (List.nodup_singleton _) fun id known here => ?_
      obtain ⟨other,member,rfl⟩ := List.mem_map.mp known
      exact new other member (List.mem_singleton.mp here)

/-! ### Links -/

theorem connectPort_kin (net : Network σ F V) (id : Int) (port : NodePort) :
    List.Forall₂ Kin net.nodes (net.connectPort id port).nodes := by
  refine List.forall₂_map_right_iff.mpr (List.forall₂_same.mpr fun handle _ => ?_)
  split_ifs
  · exact ⟨rfl,rfl,rfl,rfl⟩
  · exact .refl handle

theorem connect_ok {net net' : Network σ F V} {e : Edge V} (connected : net.connect e = .ok net') :
    List.Forall₂ Kin net.nodes net'.nodes ∧ (∃ l, net'.links = net.links ++ [l] ∧ LinkStands e l) ∧
      (∃ handle ∈ net.nodes, handle.node.id = e.srcNodeId) ∧ ∃ handle ∈ net.nodes, handle.node.id = e.dstNodeId := by
  unfold Network.connect at connected
  dsimp only at connected
  split at connected
  · cases connected
  · cases connected
  · next sourceNode targetNode source target =>
    split_ifs at connected with _ _ _ _ latencyPos bandwidthPos
    obtain rfl := Except.ok.inj connected
    have kin : ∀ port port',
        List.Forall₂ Kin net.nodes ((net.connectPort e.srcNodeId port).connectPort e.dstNodeId port').nodes :=
      fun port port' => kin_trans (connectPort_kin ..) (connectPort_kin ..)
    refine ⟨kin _ _,⟨_,rfl,?_⟩,⟨sourceNode,List.mem_of_find?_eq_some source,?_⟩,
      ⟨targetNode,List.mem_of_find?_eq_some target,?_⟩⟩
    · refine ⟨rfl,rfl,rfl,rfl,Int.toNat_of_nonneg latencyPos.le,?_,rfl,bandwidthPos,rfl⟩
      exact Int.lt_toNat.mpr latencyPos
    · have isSource := List.find?_some source
      exact of_decide_eq_true isSource
    · have isTarget := List.find?_some target
      exact of_decide_eq_true isTarget

/-- All edges become links, between nodes that are there. -/
theorem connectAll_ok : ∀ {edges : List (Edge V)} {net net' : Network σ F V}, net.connectAll edges = .ok net' →
    List.Forall₂ Kin net.nodes net'.nodes ∧ (∃ ls, net'.links = net.links ++ ls ∧ List.Forall₂ LinkStands edges ls) ∧
      ∀ e ∈ edges, (∃ handle ∈ net.nodes, handle.node.id = e.srcNodeId) ∧
        ∃ handle ∈ net.nodes, handle.node.id = e.dstNodeId
  | [], net, net', connected => by
    obtain rfl := Except.ok.inj connected
    refine ⟨List.forall₂_same.mpr fun handle _ => .refl handle,⟨[],(List.append_nil _).symm,.nil⟩,fun e member => ?_⟩
    cases member
  | e :: rest, net, net', connected => by
    obtain ⟨net'',one,connected⟩ := bind_ok_iff.mp connected
    obtain ⟨kin,⟨l,links,stands⟩,source,target⟩ := connect_ok one
    obtain ⟨kins,⟨ls,others,all⟩,ends⟩ := connectAll_ok connected
    have back : ∀ id, (∃ handle ∈ net''.nodes, handle.node.id = id) → ∃ handle ∈ net.nodes, handle.node.id = id := by
      rintro id ⟨handle',member,rfl⟩
      obtain ⟨i,inside,rfl⟩ := List.getElem_of_mem member
      have within : i < net.nodes.length := kin.length_eq ▸ inside
      exact ⟨net.nodes[i],List.getElem_mem within,(kin.get within inside).id.symm⟩
    refine ⟨kin_trans kin kins,⟨l :: ls,?_,.cons stands all⟩,
      List.forall_mem_cons.mpr ⟨⟨source,target⟩,fun e' member => ?_⟩⟩
    · rw [others,links,List.append_assoc]
      rfl
    · exact (ends e' member).imp (back _) (back _)

/-- Whatever is built stands for its description. -/
theorem built_of_ok {state : σ} {flowNet : FlowSimNetwork F V} {net : Network σ F V}
    (built : buildFromFlowSimNetwork state flowNet = .ok net) : Built flowNet net := by
  obtain ⟨net',added,connected⟩ := bind_ok_iff.mp built
  obtain ⟨handles,rfl,stand,nodup⟩ := addNodes_ok added
  obtain ⟨kin,⟨ls,links,all⟩,ends⟩ := connectAll_ok connected
  have stands : List.Forall₂ Stands flowNet.nodes net.nodes :=
    forall₂_trans (R := Stands) (S := Kin) (T := Stands) (fun _ _ _ => Stands.kin) stand kin
  have ids : handles.map (fun handle => handle.node.id) = flowNet.nodes.map Node.nodeId := by
    have alike : List.Forall₂ (fun n handle => n.nodeId = handle.node.id) flowNet.nodes handles :=
      stand.imp fun _ _ stands => stands.id.symm
    exact (List.forall₂_eq_eq_eq ▸ List.forall₂_map_left_iff.mpr (List.forall₂_map_right_iff.mpr alike) :
      flowNet.nodes.map Node.nodeId = handles.map fun handle => handle.node.id).symm
  have known : ∀ id, (∃ handle ∈ handles, handle.node.id = id) → ∃ n ∈ flowNet.nodes, n.nodeId = id := by
    rintro id ⟨handle,member,rfl⟩
    have there : handle.node.id ∈ flowNet.nodes.map Node.nodeId := ids ▸ List.mem_map_of_mem member
    obtain ⟨n,isNode,same⟩ := List.mem_map.mp there
    exact ⟨n,isNode,same⟩
  refine ⟨stands,?_,?_,fun e member => (ends e member).imp (known _) (known _)⟩
  · rw [links]
    exact all
  · rw [← ids]
    exact nodup List.nodup_nil

/-! ### Advances -/

/-- A link keeps its latency. -/
theorem always_tickCycles (targetCycle : Nat) : ∀ (cycles : Nat) (l : Link BufferedLinkType),
    Always (Link.tickCycles BufferedLinkType.linkType targetCycle cycles l) fun l' =>
      ∀ link ∈ l', link.latency = l.latency
  | 0, l => by
    intro link same
    rw [Option.some.inj same]
  | cycles + 1, l => by
    have ticked : Always (l.tick BufferedLinkType.linkType l.currentCycle targetCycle) fun l' =>
        ∀ link ∈ l', link.latency = l.latency := by
      refine (always_true _).bind fun _ incoming _ => (always_true _).bind fun _ state _ => ?_
      cases state with
      | none => exact fun link isLink => by cases isLink
      | some state =>
        refine (always_true _).bind fun _ _ _ link isLink => ?_
        rw [← Option.some.inj isLink]
    refine ticked.bind fun _ l' same => ?_
    cases l' with
    | none => exact fun link isLink => by cases isLink
    | some l' =>
      refine (always_tickCycles targetCycle cycles { l' with currentCycle := l'.currentCycle + 1 }).mono ?_
      exact fun _ l'' later link isLink => (later link isLink).trans (same l' rfl)

theorem Built.advance {handler : Handler σ} {sortSlice : SliceSort} {targetCycle : Nat} {flowNet : FlowSimNetwork F V}
    {net net' : Network σ F V} (built : Built flowNet net) (advances : net.AdvancesTo handler sortSlice targetCycle net') :
    Built flowNet net' := by
  refine ⟨?_,?_,built.nodup,built.ends⟩
  · refine forall₂_trans (T := Stands) (fun _ handle handle' stands => ?_) built.nodes advances.nodes
    rintro ⟨name,configRef,error,returned⟩
    have alike := (handle.node.always_advanceTo targetCycle).returns returned
    exact stands.kin ⟨alike.1,name,configRef,alike.2⟩
  · refine forall₂_trans (T := LinkStands) (fun _ l l' stands => ?_) built.links advances.links
    rintro ⟨link,returned,rfl⟩
    have same : link.latency = l.link.latency :=
      (always_tickCycles targetCycle (targetCycle + 1 - l.link.currentCycle) l.link).returns returned link rfl
    exact { stands with
      latency := by rw [same]; exact stands.latency
      latency_pos := by rw [same]; exact stands.latency_pos }

/-- However far it advances, the network stands for its description. -/
theorem Built.advanced {handler : Handler σ} {sortSlice : SliceSort} {flowNet : FlowSimNetwork F V}
    {net net' : Network σ F V} (built : Built flowNet net) (advanced : Network.Advanced handler sortSlice net net') :
    Built flowNet net' := by
  induction advanced with
  | refl => exact built
  | tail _ advances ih =>
    obtain ⟨targetCycle,advances⟩ := advances
    exact ih.advance advances

end

end FlowSim.Visualization
