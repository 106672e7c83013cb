import FlowSim.Network.Workers

/-!
Every network that can be built is sound, and stays so through all calls in which no node
fails. Hence the order of the workers' steps does not matter: all calls that complete, from one
network and with one target, give the same report, the same nodes and links, and ports of the
same meaning (`advance_independent`), and so do all runs (`schedule_independent`).
-/
namespace FlowSim
open FlowSim.Lib FlowSim.AheadPort FlowSim.Queue FlowSim.Node FlowSim.Links FlowSim.Network
set_option linter.unusedSimpArgs false

namespace Network
variable {σ : Type} {n : Network σ} {g : Worker → PortId → EndRecord}

/-! ### Wiring one more link -/

section
variable {links : List Connection} {l : Connection} {p : PortId}

theorem wired_iff : (wiring links p).isSome = true ↔ ∃ l ∈ links, ∃ side, l.portAt side = p := by
  obtain ⟨id,queue | queue⟩ := p
  · simp only [wiring,Option.isSome_map,List.isSome_idxOf?,List.mem_map]
    constructor
    · rintro ⟨l,member,target⟩
      exact ⟨l,member,.downstream,by simp [Connection.portAt,target]⟩
    · rintro ⟨l,member,_ | _,here⟩
      · simp [Connection.portAt] at here
      · refine ⟨l,member,?_⟩
        simp only [Connection.portAt,Prod.mk.injEq,NodePort.input.injEq] at here
        exact Prod.ext here.1 here.2
  · simp only [wiring,Option.isSome_map,List.isSome_idxOf?,List.mem_map]
    constructor
    · rintro ⟨l,member,source⟩
      exact ⟨l,member,.upstream,by simp [Connection.portAt,source]⟩
    · rintro ⟨l,member,_ | _,here⟩
      · refine ⟨l,member,?_⟩
        simp only [Connection.portAt,Prod.mk.injEq,NodePort.output.injEq] at here
        exact Prod.ext here.1 here.2
      · simp [Connection.portAt] at here

/-- A link leaves the ports of the other links. -/
theorem wiring_append (other : ∀ side, l.portAt side ≠ p) : wiring (links ++ [l]) p = wiring links p := by
  obtain ⟨id,queue | queue⟩ := p
  · have target : l.target ≠ (id,queue) := fun same => other .downstream (by simp [Connection.portAt,same])
    simp [wiring,List.idxOf?,List.findIdx?_append,target]
  · have source : l.source ≠ (id,queue) := fun same => other .upstream (by simp [Connection.portAt,same])
    simp [wiring,List.idxOf?,List.findIdx?_append,source]

theorem portAt_ne_of_free {l' : Connection} (free : ∀ side, wiring links (l.portAt side) = none) (member : l' ∈ links)
    (side side' : LinkEnd) : l.portAt side' ≠ l'.portAt side := by
  intro same
  have wired := wired_iff.mpr ⟨l',member,side,same.symm⟩
  rw [free side'] at wired
  cases wired

theorem Apart.append (apart : Apart links) (free : ∀ side, wiring links (l.portAt side) = none) : Apart (links ++ [l]) := by
  constructor
  · rw [List.map_append,List.nodup_append]
    refine ⟨apart.sources,by simp,fun source member => ?_⟩
    obtain ⟨l',isLink,rfl⟩ := List.mem_map.mp member
    intro other isOther same
    obtain rfl : other = l.source := by simpa using isOther
    exact portAt_ne_of_free free isLink .upstream .upstream (by simp [Connection.portAt,same])
  · rw [List.map_append,List.nodup_append]
    refine ⟨apart.targets,by simp,fun target member => ?_⟩
    obtain ⟨l',isLink,rfl⟩ := List.mem_map.mp member
    intro other isOther same
    obtain rfl : other = l.target := by simpa using isOther
    exact portAt_ne_of_free free isLink .downstream .downstream (by simp [Connection.portAt,same])

end

/-! ### Building -/

/-- What holds while a network is built. -/
structure Prepared (n : Network σ) (g : Worker → PortId → EndRecord) : Prop where
  sound : n.Sound g
  unfrozen : n.frozen = false
  current : n.currentCycle = 0
  nodes : ∀ id handle, n.nodes id = some handle → handle.node.currentCycle = 0 ∧
    ∀ iq ∈ handle.node.queues.inputs, iq.nextUpdateCycle = 0 ∧ iq.length < iq.capacity

theorem Prepared.link_current (prepared : n.Prepared g) {l : Connection} (member : l ∈ n.links) : l.link.currentCycle = 0 := by
  obtain ⟨index,found⟩ := List.getElem?_of_mem member
  have fresh := prepared.sound.links index l found
  rw [prepared.unfrozen] at fresh
  exact fresh.current

theorem prepared_new : (new : Network σ).Prepared fun _ _ => .initial where
  sound := by
    refine ⟨⟨List.nodup_nil,List.nodup_nil⟩,⟨0,Nat.le_refl 0,by simp [new],by simp [new]⟩,?_,?_,?_,?_,?_⟩
    · rintro ⟨id,queue | queue⟩ wired
      · cases wired
      · cases wired
    · intro id handle found
      cases found
    · rintro ⟨id,queue | queue⟩ joint here
      · cases here
      · cases here
    · intro id handle found
      cases found
    · intro index l found
      cases found
  unfrozen := rfl
  current := rfl
  nodes := by simp [new]

theorem Prepared.addNode {n' : Network σ} {handle : NodeHandle σ} (prepared : n.Prepared g) (isNew : handle.IsNew)
    (added : n.addNode handle = some (.ok n')) : n'.Prepared g := by
  unfold Network.addNode at added
  split_ifs at added with frozen
  dsimp only at added
  split at added
  · cases Option.some.inj added
  · next absent =>
    cases Option.some.inj added
    obtain ⟨id,queues,state,isNode⟩ := isNew.node
    have unwired : ∀ port, ¬ (wiring n.links (handle.node.id,port)).isSome = true := by
      intro port wired
      exact prepared.sound.known _ wired absent
    have cases_ : ∀ {id handle'}, Function.update n.nodes handle.node.id (some handle) id = some handle' →
        (id = handle.node.id ∧ handle' = handle) ∨ n.nodes id = some handle' := by
      intro id handle' found
      by_cases here : id = handle.node.id
      · subst here
        rw [Function.update_self] at found
        exact .inl ⟨rfl,(Option.some.inj found).symm⟩
      · rw [Function.update_of_ne here] at found
        exact .inr found
    have unconnected : ∀ port, handle.node.connected port = false := by
      intro port
      rw [isNode]
      rfl
    have atZero : handle.node.currentCycle = 0 := by
      rw [isNode]
      rfl
    refine ⟨⟨prepared.sound.apart,⟨0,prepared.current.le,?_,fun l member => prepared.link_current member⟩,?_,?_,
      prepared.sound.consistent,?_,prepared.sound.links⟩,prepared.unfrozen,prepared.current,?_⟩
    · intro id handle' found
      rcases cases_ found with ⟨rfl,rfl⟩ | before
      · exact atZero
      · exact (prepared.nodes id handle' before).1
    · intro p wired
      show Function.update n.nodes handle.node.id (some handle) p.1 ≠ none
      rw [Function.update_apply]
      split_ifs
      · simp
      · exact prepared.sound.known p wired
    · intro id handle' found port
      rcases cases_ found with ⟨rfl,rfl⟩ | before
      · exact iff_of_false (by simp [unconnected]) (unwired port)
      · exact prepared.sound.attached id handle' before port
    · intro id handle' found
      rcases cases_ found with ⟨rfl,rfl⟩ | before
      · refine ⟨?_,?_,?_,?_⟩
        · intro k iq _ connected
          rw [unconnected] at connected
          cases connected
        · intro k ahead isAhead
          have zero : ahead = 0 := by
            rw [isNode] at isAhead
            exact List.eq_of_mem_replicate (List.mem_of_getElem? isAhead)
          refine ⟨by omega,fun connected => ?_⟩
          rw [unconnected] at connected
          cases connected
        · rw [isNode]
          exact List.length_replicate
        · intro port connected
          rw [unconnected] at connected
          cases connected
      · exact prepared.sound.nodes id handle' before
    · intro id handle' found
      rcases cases_ found with ⟨rfl,rfl⟩ | before
      · exact ⟨atZero,isNew.inputs⟩
      · exact prepared.nodes id handle' before

/-- A node with one more port. -/
theorem attach_some {nodes : Int → Option (NodeHandle σ)} {id id' : Int} {port : NodePort} {handle' : NodeHandle σ}
    (found : attach nodes id port id' = some handle') : ∃ handle connected, nodes id' = some handle ∧
      handle' = { handle with node := { handle.node with connected } } ∧
      ∀ p, connected p = true ↔ handle.node.connected p = true ∨ (id,port) = (id',p) := by
  unfold attach at found
  by_cases here : id' = id
  · subst here
    rw [Function.update_self] at found
    obtain ⟨handle,before,rfl⟩ := Option.map_eq_some_iff.mp found
    refine ⟨handle,_,before,rfl,fun p => ?_⟩
    rw [Function.update_apply]
    by_cases same : p = port
    · simp [same]
    · simp [same,Ne.symm same]
  · rw [Function.update_of_ne here] at found
    refine ⟨handle',handle'.node.connected,found,rfl,fun p => ?_⟩
    simp [Ne.symm here]

theorem attach_ne_none {nodes : Int → Option (NodeHandle σ)} {id id' : Int} {port : NodePort} (known : nodes id' ≠ none) :
    attach nodes id port id' ≠ none := by
  unfold attach
  rw [Function.update_apply]
  split_ifs with here
  · subst here
    simpa using known
  · exact known

/-- An untouched queue that is not full stands once it is connected. -/
theorem standing_connected {iq : InputQueue} (next : iq.nextUpdateCycle = 0) :
    InputQueue.Standing none iq 0 InputQueue.connectedRecord where
  read := rfl
  decided := by decide
  next := by simp [next]
  promised := by
    intro i _ inside
    have few : i < 2 := inside
    show [true,true][i]? = some true
    interval_cases i <;> rfl
  refused := by
    intro f refused
    exact absurd (List.mem_of_getElem? refused) (by simp [InputQueue.connectedRecord])
  limited := by simp
  credit := fun limited => absurd rfl limited

theorem holds_new {t : AnyLinkType} (isNew : t.IsNew) : t.Holds 0 (-1) := by
  cases t with
  | buffered h =>
    obtain ⟨latency,bandwidth,pos,bandwidthPos,rfl⟩ := isNew
    have empty := LinkSession.getD_new pos bandwidthPos
    constructor
    · show (List.getD _ _ []).length ≤ _
      rw [empty]
      exact Nat.zero_le _
    · exact fun i _ => empty i
    · exact fun _ member => absurd member List.not_mem_nil
    · intro pwc member
      have member : pwc ∈ List.getD _ _ [] := member
      rw [empty] at member
      cases member
  | bufferless h => trivial

/-- What has been done at the ports once a link is connected. -/
def joined (l : Connection) (g : Worker → PortId → EndRecord) (w : Worker) (p : PortId) : EndRecord :=
  if p = l.portAt .upstream then .initial
  else if p = l.portAt .downstream then if w = .node l.target.1 then InputQueue.connectedRecord else .initial
  else g w p

theorem joined_of_ne {l : Connection} {p : PortId} (other : ∀ side, l.portAt side ≠ p) (w : Worker) : joined l g w p = g w p := by
  unfold joined
  rw [if_neg (other .upstream).symm,if_neg (other .downstream).symm]

/-- What is promised by a new link and by the queue that it is connected to. -/
theorem consistent_joined {l : Connection} {sync : ComponentSync} {ports : PortId → Port} {links : List Connection}
    (apart : Apart (links ++ [l])) (consistent : (wiring links).Consistent (fun p => (ports p).exchange) g)
    (linked : Linked none (Port.exchange { Port.newPort with downstreamSync := sync }) .initial InputQueue.connectedRecord) :
    (wiring (links ++ [l])).Consistent (fun p => (Function.update (Function.update ports (l.portAt .upstream) .newPort)
      (l.portAt .downstream) { Port.newPort with downstreamSync := sync } p).exchange) (joined l g) := by
  have last : (links ++ [l])[links.length]? = some l := by simp
  have different : l.portAt .upstream ≠ l.portAt .downstream := fun same => absurd (portAt_injective l same) (by decide)
  intro p joint here
  dsimp only
  by_cases up : p = l.portAt .upstream
  · subst up
    rw [wiring_upstream apart last] at here
    obtain rfl := Option.some.inj here
    rw [Function.update_of_ne different,Function.update_self]
    simp only [joined,if_true]
    exact (linked_new none).agreed
  · by_cases down : p = l.portAt .downstream
    · subst down
      rw [wiring_downstream apart last] at here
      obtain rfl := Option.some.inj here
      rw [Function.update_self]
      simp only [joined,if_neg up,if_true]
      exact linked
    · have other : ∀ side, l.portAt side ≠ p := by
        intro side
        cases side with
        | upstream => exact Ne.symm up
        | downstream => exact Ne.symm down
      rw [wiring_append other] at here
      rw [Function.update_of_ne down,Function.update_of_ne up,joined_of_ne other,joined_of_ne other]
      exact consistent p joint here

/-- The nodes once both ends of a link are attached. -/
theorem attach_ends {nodes : Int → Option (NodeHandle σ)} {id : Int} {handle' : NodeHandle σ} {l : Connection}
    (found : attach (attach nodes l.source.1 (.output l.source.2)) l.target.1 (.input l.target.2) id = some handle') :
    ∃ handle connected, nodes id = some handle ∧ handle' = { handle with node := { handle.node with connected } } ∧
      ∀ p, connected p = true ↔ handle.node.connected p = true ∨ ∃ side, l.portAt side = (id,p) := by
  obtain ⟨middle,connected,found₁,rfl,iff₁⟩ := attach_some found
  obtain ⟨handle,connected',found₂,rfl,iff₂⟩ := attach_some found₁
  refine ⟨handle,connected,found₂,rfl,fun p => ?_⟩
  rw [iff₁]
  show connected' p = true ∨ _ ↔ _
  rw [iff₂,or_assoc]
  refine or_congr_right ⟨?_,?_⟩
  · rintro (up | down)
    · exact ⟨.upstream,up⟩
    · exact ⟨.downstream,down⟩
  · rintro ⟨_ | _,here⟩
    · exact .inl here
    · exact .inr here

section
variable {l : Connection}

theorem joined_upstream (w : Worker) : joined l g w (l.portAt .upstream) = .initial := if_pos rfl

theorem joined_downstream (w : Worker) :
    joined l g w (l.portAt .downstream) = if w = .node l.target.1 then InputQueue.connectedRecord else .initial := by
  have different : l.portAt .downstream ≠ l.portAt .upstream := fun same => absurd (portAt_injective l same) (by decide)
  unfold joined
  rw [if_neg different,if_pos rfl]

/-- A node stands when a link is connected to it. -/
theorem standing_joined {node : BaseNode σ} {id : Int} {connected : NodePort → Bool}
    (standing : node.Standing node.currentCycle fun port => g (.node id) (id,port)) (current : node.currentCycle = 0)
    (untouched : ∀ iq ∈ node.queues.inputs, iq.nextUpdateCycle = 0)
    (iff_ : ∀ p, connected p = true ↔ node.connected p = true ∨ ∃ side, l.portAt side = (id,p))
    (hasQueue : ∀ side p, l.portAt side = (id,p) → node.HasQueue p) :
    BaseNode.Standing { node with connected } node.currentCycle fun port => joined l g (.node id) (id,port) := by
  refine ⟨?_,?_,standing.sized,?_⟩
  · intro k iq isQueue here
    show InputQueue.Standing none iq node.currentCycle (joined l g (.node id) (id,.input (0 + k)))
    by_cases this : l.portAt .downstream = (id,.input (0 + k))
    · have isTarget : l.target.1 = id := congrArg Prod.fst this
      rw [← this,joined_downstream,if_pos (by rw [isTarget]),current]
      exact standing_connected (untouched iq (List.mem_of_getElem? isQueue))
    · have other : ∀ side, l.portAt side ≠ (id,.input (0 + k)) := by
        intro side
        cases side with
        | upstream => simp [Connection.portAt]
        | downstream => exact this
      rw [joined_of_ne other]
      refine standing.inputs k iq isQueue ?_
      rcases (iff_ _).mp here with old | ⟨side,new⟩
      · exact old
      · exact absurd new (other side)
  · intro k ahead isAhead
    obtain ⟨bounds,marked⟩ := standing.outputs k ahead isAhead
    refine ⟨bounds,fun here => ?_⟩
    show (joined l g (.node id) (id,.output (0 + k))).marked + 1 = ahead
    by_cases this : l.portAt .upstream = (id,.output (0 + k))
    · rw [← this,joined_upstream]
      show (-1 : Int) + 1 = ahead
      omega
    · have other : ∀ side, l.portAt side ≠ (id,.output (0 + k)) := by
        intro side
        cases side with
        | upstream => exact this
        | downstream => simp [Connection.portAt]
      rw [joined_of_ne other]
      refine marked ?_
      rcases (iff_ _).mp here with old | ⟨side,new⟩
      · exact old
      · exact absurd new (other side)
  · intro port here
    rcases (iff_ port).mp here with old | ⟨side,new⟩
    · exact standing.hasQueue port old
    · exact hasQueue side port new

theorem isNew_typeOf {latency bandwidth : Nat} {linkType : Option AnyLinkType} (pos : 0 < latency) (bandwidthPos : 0 < bandwidth)
    (isNew : ∀ t ∈ linkType, t.IsNew) : (typeOf linkType latency bandwidth pos bandwidthPos).IsNew := by
  unfold typeOf
  rcases linkType with _ | t
  · exact ⟨_,_,_,_,rfl⟩
  · exact isNew t rfl

/-- A new link has still to be initialised. -/
theorem fresh_joined {latency bandwidth : Nat} {linkType : Option AnyLinkType} (pos : 0 < latency) (bandwidthPos : 0 < bandwidth)
    (isNew : ∀ t ∈ linkType, t.IsNew) (state : l.link = .newLink latency (typeOf linkType latency bandwidth pos bandwidthPos))
    (index : Nat) : Fresh l fun side => joined l g (.link index) (l.portAt side) := by
  have down : joined l g (.link index) (l.portAt .downstream) = .initial := by
    rw [joined_downstream,if_neg (by simp)]
  refine ⟨by rw [state]; exact pos,by rw [state]; rfl,by rw [joined_upstream]; rfl,?_,?_,?_⟩
  · rw [down]
    exact ⟨by decide,by decide⟩
  · rw [down]
    rfl
  · rw [down,state]
    exact holds_new (isNew_typeOf pos bandwidthPos isNew)

end

theorem Prepared.wire {n' : Network σ} {source target : Int × Nat} {oq : OutputQueue} {iq : InputQueue} {latency bandwidth : Int}
    {linkType : Option AnyLinkType} {sourceHandle targetHandle : NodeHandle σ} (prepared : n.Prepared g)
    (isNew : ∀ t ∈ linkType, t.IsNew) (isSource : n.nodes source.1 = some sourceHandle)
    (isTarget : n.nodes target.1 = some targetHandle) (isOutput : sourceHandle.node.queues.outputs[source.2]? = some oq)
    (isQueue : targetHandle.node.queues.inputs[target.2]? = some iq)
    (sourceFree : sourceHandle.node.connected (.output source.2) = false)
    (targetFree : targetHandle.node.connected (.input target.2) = false)
    (wired : n.wire source target iq latency bandwidth linkType = some n') : ∃ g', n'.Prepared g' := by
  unfold Network.wire at wired
  split_ifs at wired with pos
  split at wired
  · cases wired
  · next sync connected =>
    obtain rfl := Option.some.inj wired
    generalize isLink : ({ link := .newLink latency.toNat (typeOf linkType latency.toNat bandwidth.toNat (latency_pos pos)
      (bandwidth_pos pos)), source, target } : Connection) = l
    have state : l.link = .newLink latency.toNat (typeOf linkType latency.toNat bandwidth.toNat (latency_pos pos)
        (bandwidth_pos pos)) := by rw [← isLink]
    obtain ⟨rfl,rfl⟩ : source = l.source ∧ target = l.target := by simp [← isLink]
    have free : ∀ side, wiring n.links (l.portAt side) = none := by
      intro side
      rw [← Option.not_isSome_iff_eq_none]
      cases side with
      | upstream =>
        rw [Connection.portAt,← prepared.sound.attached l.source.1 sourceHandle isSource,sourceFree]
        simp
      | downstream =>
        rw [Connection.portAt,← prepared.sound.attached l.target.1 targetHandle isTarget,targetFree]
        simp
    have apart := prepared.sound.apart.append free
    have room := ((prepared.nodes l.target.1 targetHandle isTarget).2 iq (List.mem_of_getElem? isQueue)).2
    have current : l.link.currentCycle = 0 := by
      rw [state]
      rfl
    refine ⟨joined l g,⟨apart,⟨0,prepared.current.le,?_,?_⟩,?_,?_,?_,?_,?_⟩,prepared.unfrozen,prepared.current,?_⟩
    · intro id handle' found
      obtain ⟨handle,_,before,rfl,_⟩ := attach_ends found
      exact (prepared.nodes id handle before).1
    · intro l' member
      rcases List.mem_append.mp member with old | new
      · exact prepared.link_current old
      · rw [List.mem_singleton.mp new,current]
    · intro p isWired
      refine attach_ne_none (attach_ne_none ?_)
      obtain ⟨l',member,side,rfl⟩ := wired_iff.mp isWired
      rcases List.mem_append.mp member with old | new
      · exact prepared.sound.known _ (wired_iff.mpr ⟨l',old,side,rfl⟩)
      · obtain rfl := List.mem_singleton.mp new
        cases side with
        | upstream => simp [Connection.portAt,isSource]
        | downstream => simp [Connection.portAt,isTarget]
    · intro id handle' found port
      obtain ⟨handle,connected',before,rfl,iff_⟩ := attach_ends found
      show connected' port = true ↔ _
      rw [iff_,prepared.sound.attached id handle before,wired_iff,wired_iff]
      simp [or_and_right,exists_or]
    · exact consistent_joined apart prepared.sound.consistent (InputQueue.setUpstreamPort_linked none room connected)
    · intro id handle' found
      obtain ⟨handle,connected',before,rfl,iff_⟩ := attach_ends found
      obtain ⟨current,untouched⟩ := prepared.nodes id handle before
      refine standing_joined (prepared.sound.nodes id handle before) current (fun iq member => (untouched iq member).1) iff_ ?_
      intro side p here
      cases side with
      | upstream =>
        obtain ⟨rfl,rfl⟩ := Prod.mk.inj here
        obtain rfl := Option.some.inj (isSource.symm.trans before)
        exact (List.getElem?_eq_some_iff.mp isOutput).1
      | downstream =>
        obtain ⟨rfl,rfl⟩ := Prod.mk.inj here
        obtain rfl := Option.some.inj (isTarget.symm.trans before)
        exact (List.getElem?_eq_some_iff.mp isQueue).1
    · intro index l' found
      rw [if_neg (by rw [prepared.unfrozen]; simp)]
      have found : (n.links ++ [l])[index]? = some l' := found
      rcases Nat.lt_or_ge index n.links.length with old | new
      · rw [List.getElem?_append_left old] at found
        have fresh := prepared.sound.links index l' found
        rw [if_neg (by rw [prepared.unfrozen]; simp)] at fresh
        have same : (fun side => joined l g (.link index) (l'.portAt side)) = fun side => g (.link index) (l'.portAt side) :=
          funext fun side => joined_of_ne (portAt_ne_of_free free (List.mem_of_getElem? found) side) _
        rw [same]
        exact fresh
      · rw [List.getElem?_append_right new] at found
        obtain rfl : l = l' := by
          rw [List.getElem?_singleton] at found
          split_ifs at found
          exact Option.some.inj found
        exact fresh_joined _ _ isNew state index
    · intro id handle' found
      obtain ⟨handle,_,before,rfl,_⟩ := attach_ends found
      exact prepared.nodes id handle before

/-- What is connected is a free output queue and a free input queue. -/
theorem wire_of_connect {n' : Network σ} {sourceID sourceOutputIdx targetID targetInputIdx latency bandwidth : Int}
    {linkType : Option AnyLinkType}
    (connected : n.connect sourceID sourceOutputIdx targetID targetInputIdx latency bandwidth linkType = some (.ok n')) :
    ∃ sourceHandle targetHandle oq iq, n.nodes sourceID = some sourceHandle ∧ n.nodes targetID = some targetHandle ∧
      sourceHandle.node.queues.outputs[sourceOutputIdx.toNat]? = some oq ∧
      targetHandle.node.queues.inputs[targetInputIdx.toNat]? = some iq ∧
      sourceHandle.node.connected (.output sourceOutputIdx.toNat) = false ∧
      targetHandle.node.connected (.input targetInputIdx.toNat) = false ∧
      n.wire (sourceID,sourceOutputIdx.toNat) (targetID,targetInputIdx.toNat) iq latency bandwidth linkType = some n' := by
  unfold Network.connect at connected
  split_ifs at connected with frozen
  split at connected
  · cases Option.some.inj connected
  · next sourceHandle isSource =>
    split at connected
    · cases Option.some.inj connected
    · next targetHandle isTarget =>
      split at connected
      · cases Option.some.inj connected
      · next oq isOutput =>
        split at connected
        · cases Option.some.inj connected
        · next iq isQueue =>
          unfold queueAt at isOutput isQueue
          split_ifs at isOutput
          split_ifs at isQueue
          split_ifs at connected with sourceUsed targetUsed
          · cases Option.some.inj connected
          · cases Option.some.inj connected
          · obtain ⟨wired,isWired,same⟩ := Option.map_eq_some_iff.mp connected
            cases same
            exact ⟨_,_,oq,iq,isSource,isTarget,isOutput,isQueue,by simpa using sourceUsed,by simpa using targetUsed,isWired⟩

theorem Prepared.connect {n' : Network σ} {sourceID sourceOutputIdx targetID targetInputIdx latency bandwidth : Int}
    {linkType : Option AnyLinkType} (prepared : n.Prepared g) (isNew : ∀ t ∈ linkType, t.IsNew)
    (connected : n.connect sourceID sourceOutputIdx targetID targetInputIdx latency bandwidth linkType = some (.ok n')) :
    ∃ g', n'.Prepared g' := by
  obtain ⟨_,_,_,_,isSource,isTarget,isOutput,isQueue,sourceFree,targetFree,wired⟩ := wire_of_connect connected
  exact prepared.wire isNew isSource isTarget isOutput isQueue sourceFree targetFree wired

theorem Built.prepared (built : n.Built) : ∃ g, n.Prepared g := by
  induction built with
  | new => exact ⟨_,prepared_new⟩
  | addNode _ isNew added ih =>
    obtain ⟨g,prepared⟩ := ih
    exact ⟨g,prepared.addNode isNew added⟩
  | connect _ isNew connected ih =>
    obtain ⟨g,prepared⟩ := ih
    exact prepared.connect isNew connected

/-! ### Runs -/

theorem Sound.injectPacket (sound : n.Sound g) (id : Int) (pkt : Packet) : (n.injectPacket id pkt).Sound g := by
  have nodes : ∀ {id' handle'}, (n.injectPacket id pkt).nodes id' = some handle' → ∃ handle, n.nodes id' = some handle ∧
      handle'.node.connected = handle.node.connected ∧ handle'.node.currentCycle = handle.node.currentCycle ∧
      handle'.node.queues.inputs = handle.node.queues.inputs ∧
      handle'.node.queues.outputs.length = handle.node.queues.outputs.length ∧
      handle'.node.outputQueueAhead = handle.node.outputQueueAhead := by
    intro id' handle' found
    have found : Function.update n.nodes id _ id' = some handle' := found
    rw [Function.update_apply] at found
    split_ifs at found with here
    · subst here
      obtain ⟨handle,before,rfl⟩ := Option.map_eq_some_iff.mp found
      refine ⟨handle,before,rfl,rfl,?_,?_,rfl⟩
      · show (handle.node.queues.injectPackets 0 handle.node.currentCycle [pkt]).2.inputs = _
        unfold Queues.injectPackets
        split <;> rfl
      · show (handle.node.queues.injectPackets 0 handle.node.currentCycle [pkt]).2.outputs.length = _
        unfold Queues.injectPackets
        split
        · rfl
        · exact List.length_set ..
    · exact ⟨handle',found,rfl,rfl,rfl,rfl,rfl⟩
  refine ⟨sound.apart,?_,?_,?_,sound.consistent,?_,sound.links⟩
  · obtain ⟨cycle,abreast⟩ := sound.abreast
    refine ⟨cycle,abreast.reached,?_,abreast.links⟩
    intro id' handle' found
    obtain ⟨handle,before,_,current,_⟩ := nodes found
    rw [current,abreast.nodes id' handle before]
  · intro p wired
    show Function.update n.nodes id _ p.1 ≠ none
    have known := sound.known p wired
    rw [Function.update_apply]
    split_ifs with here
    · rw [← here]
      simpa using known
    · exact known
  · intro id' handle' found
    obtain ⟨handle,before,connected,_⟩ := nodes found
    rw [connected]
    exact sound.attached id' handle before
  · intro id' handle' found
    obtain ⟨handle,before,connected,current,inputs,outputs,aheads⟩ := nodes found
    have standing := sound.nodes id' handle before
    rw [current]
    refine ⟨?_,?_,?_,?_⟩
    · rw [connected,current,inputs]
      exact standing.inputs
    · rw [connected,current,aheads]
      exact standing.outputs
    · rw [aheads,outputs]
      exact standing.sized
    · intro port here
      rw [connected] at here
      have before := standing.hasQueue port here
      cases port with
      | input queue => exact before.trans_eq (congrArg List.length inputs).symm
      | output queue => exact before.trans_eq outputs.symm

variable {sortSlice : SliceSort} {actions : List Action} {reports : List Report}

/-- As long as no node fails a network is sound. -/
theorem Runs.sound {later : Network σ} (built : n.Built) (run : n.Runs sortSlice actions reports later)
    (fine : ∀ report ∈ reports, ∀ id, report.errors id = none) : ∃ g, later.Sound g := by
  induction run with
  | start =>
    obtain ⟨g,prepared⟩ := built.prepared
    exact ⟨g,prepared.sound⟩
  | injectPacket id pkt _ _ ih =>
    obtain ⟨g,sound⟩ := ih fine
    exact ⟨g,sound.injectPacket id pkt⟩
  | advanceTo _ before advances ih =>
    obtain ⟨g,sound⟩ := ih before
    cases advances with
    | negative _ => exact ⟨g,sound⟩
    | completes isOpen reach finished intact =>
      obtain ⟨frozen,g',sound'⟩ := sound.freeze isOpen
      exact sound'.after frozen reach finished (fine _ (List.mem_append_right _ (List.mem_singleton_self _)))

/-- Networks that differ at most in how their ports hold what they mean. -/
structure Same (n n' : Network σ) : Prop where
  nodes : n.nodes = n'.nodes
  links : n.links = n'.links
  frozen : n.frozen = n'.frozen
  currentCycle : n.currentCycle = n'.currentCycle
  meaning : ∀ p, (n.ports p).exchange = (n'.ports p).exchange
  unfrozen : n.frozen = false → n.ports = n'.ports

theorem Same.refl (n : Network σ) : n.Same n := ⟨rfl,rfl,rfl,rfl,fun _ => rfl,fun _ => rfl⟩

variable {n' : Network σ}

theorem Same.injectPacket (same : n.Same n') (id : Int) (pkt : Packet) : (n.injectPacket id pkt).Same (n'.injectPacket id pkt) := by
  refine ⟨?_,same.links,same.frozen,same.currentCycle,same.meaning,same.unfrozen⟩
  simp only [Network.injectPacket,same.nodes]

theorem Same.freeze {opened opened' : Network σ} (same : n.Same n') (isOpen : n.freeze = some opened)
    (isOpen' : n'.freeze = some opened') : opened.Same opened' := by
  unfold Network.freeze at isOpen isOpen'
  rw [← same.frozen] at isOpen'
  by_cases frozen : n.frozen = true
  · rw [if_pos frozen] at isOpen isOpen'
    cases isOpen
    cases isOpen'
    exact same
  · rw [if_neg frozen] at isOpen isOpen'
    rw [← same.links,← same.unfrozen (by simpa using frozen)] at isOpen'
    obtain ⟨ports,ran,rfl⟩ := Option.map_eq_some_iff.mp isOpen
    obtain ⟨ports',ran',rfl⟩ := Option.map_eq_some_iff.mp isOpen'
    obtain rfl := Option.some.inj (ran.symm.trans ran')
    exact ⟨same.nodes,rfl,rfl,same.currentCycle,fun _ => rfl,fun _ => rfl⟩

/-- From networks that mean the same, two calls that complete show the same and leave
    networks that mean the same. -/
theorem Same.completes {targetCycle : Nat} {c c' : Call σ} (same : n.Same n') (sound : n.Sound g) (frozen : n.frozen = true)
    (reach : networkMachine.Reach (n.start sortSlice targetCycle) c) (reach' : networkMachine.Reach (n'.start sortSlice targetCycle) c')
    (finished : ∀ w, c.Finished w) (finished' : ∀ w, c'.Finished w) :
    c.prog = c'.prog ∧ c.log = c'.log ∧ (n.after targetCycle c).Same (n'.after targetCycle c') := by
  have works : n'.work sortSlice targetCycle = n.work sortSlice targetCycle := by
    funext w
    cases w with
    | node id => simp only [work,same.nodes]
    | link index => simp only [work,same.links]
  unfold start at reach'
  rw [works] at reach'
  have unique := Wiring.finished_unique sound.consistent (sound.keeps_work frozen) same.meaning reach reach' finished finished'
  obtain ⟨shared,prog,log⟩ := Config.mk.inj unique
  have prog : c.prog = c'.prog := prog
  refine ⟨prog,log,?_,?_,same.frozen,rfl,fun p => congrFun shared p,fun unfrozen => ?_⟩
  · simp only [after,same.nodes,prog]
  · simp only [after,same.links,prog]
  · have frozen' : (n.after targetCycle c).frozen = true := frozen
    rw [frozen'] at unfrozen
    cases unfrozen

/-- Two calls that complete, from networks that mean the same, show the same and leave networks
    that mean the same. -/
theorem Same.advances {targetCycle : Int} {report report' : Report} {later later' : Network σ} (same : n.Same n') (sound : n.Sound g)
    (advances : n.AdvancesTo sortSlice targetCycle report later) (advances' : n'.AdvancesTo sortSlice targetCycle report' later') :
    report = report' ∧ later.Same later' := by
  cases advances with
  | negative isNegative =>
    cases advances' with
    | negative _ => exact ⟨rfl,same⟩
    | completes => omega
  | completes isOpen reach finished intact =>
    generalize isTarget : (Nat.cast _ : Int) = target at advances'
    cases advances' with
    | negative isNegative => omega
    | completes isOpen' reach' finished' intact' =>
      obtain rfl := Int.ofNat_inj.mp isTarget
      have opened := same.freeze isOpen isOpen'
      obtain ⟨frozen,g',sound'⟩ := sound.freeze isOpen
      obtain ⟨prog,log,after⟩ := opened.completes sound' frozen reach reach' finished finished'
      rw [prog,log]
      exact ⟨rfl,after⟩

/-- Two calls with the same target that complete, from one network, whatever the order of the
    workers' steps in each, show the same: the same errors of nodes, and for every worker the
    same operations in the same order with the same answers, hence for every queue the same
    packets received in the same cycles and for every packet offered the same answer. They
    leave the same nodes, with their queues, the same links, and ports of the same meaning. -/
theorem advance_independent {now n₁ n₂ : Network σ} {targetCycle : Int} {report₁ report₂ : Report} (built : n.Built)
    (run : n.Runs sortSlice actions reports now) (fine : ∀ report ∈ reports, ∀ id, report.errors id = none)
    (advances₁ : now.AdvancesTo sortSlice targetCycle report₁ n₁) (advances₂ : now.AdvancesTo sortSlice targetCycle report₂ n₂) :
    report₁ = report₂ ∧ n₁.nodes = n₂.nodes ∧ n₁.links = n₂.links ∧ n₁.currentCycle = n₂.currentCycle ∧
      ∀ p, (n₁.ports p).exchange = (n₂.ports p).exchange := by
  obtain ⟨g,sound⟩ := run.sound built fine
  obtain ⟨report,same⟩ := (Same.refl now).advances sound advances₁ advances₂
  exact ⟨report,same.nodes,same.links,same.currentCycle,same.meaning⟩

/-- Whatever is done with a network that was built, all runs that complete, in whatever order
    the workers take their steps, show the same: the same errors, and for every worker the same
    operations with the same answers. They leave the same nodes, with their queues, the same
    links, and ports of the same meaning. -/
theorem schedule_independent (built : n.Built) {reports₁ reports₂ : List Report} {n₁ n₂ : Network σ}
    (run₁ : n.Runs sortSlice actions reports₁ n₁) (run₂ : n.Runs sortSlice actions reports₂ n₂) :
    reports₁ = reports₂ ∧ n₁.nodes = n₂.nodes ∧ n₁.links = n₂.links ∧ n₁.currentCycle = n₂.currentCycle ∧
      ∀ p, (n₁.ports p).exchange = (n₂.ports p).exchange := by
  have both : reports₁ = reports₂ ∧ n₁.Same n₂ := by
    induction run₁ generalizing reports₂ n₂ with
    | start =>
      generalize isEmpty : ([] : List Action) = actions at run₂
      cases run₂ with
      | start => exact ⟨rfl,.refl n⟩
      | injectPacket id pkt before fine => simp at isEmpty
      | advanceTo before fine advances => simp at isEmpty
    | @injectPacket actions reports now id pkt before fine ih =>
      generalize isLast : actions ++ [Action.injectPacket id pkt] = all at run₂
      cases run₂ with
      | start => simp at isLast
      | injectPacket id' pkt' before' fine' =>
        obtain ⟨rfl,last⟩ := List.append_inj' isLast rfl
        cases last
        obtain ⟨rfl,same⟩ := ih before'
        exact ⟨rfl,same.injectPacket id pkt⟩
      | advanceTo before' fine' advances' =>
        obtain ⟨_,last⟩ := List.append_inj' isLast rfl
        cases last
    | @advanceTo actions reports now later targetCycle report before fine advances ih =>
      generalize isLast : actions ++ [Action.advanceTo targetCycle] = all at run₂
      cases run₂ with
      | start => simp at isLast
      | injectPacket id' pkt' before' fine' =>
        obtain ⟨_,last⟩ := List.append_inj' isLast rfl
        cases last
      | advanceTo before' fine' advances' =>
        obtain ⟨rfl,last⟩ := List.append_inj' isLast rfl
        cases last
        obtain ⟨rfl,same⟩ := ih before'
        obtain ⟨g,sound⟩ := before.sound built fine
        obtain ⟨rfl,after⟩ := same.advances sound advances advances'
        exact ⟨rfl,after⟩
  obtain ⟨reports,same⟩ := both
  exact ⟨reports,same.nodes,same.links,same.currentCycle,same.meaning⟩

/-! ### Calls that complete -/

/-- Freezing changes only the ports. -/
theorem freeze_eq {opened : Network σ} (isOpen : n.freeze = some opened) :
    opened.nodes = n.nodes ∧ opened.links = n.links ∧ opened.currentCycle = n.currentCycle := by
  unfold Network.freeze at isOpen
  split_ifs at isOpen
  · rw [← Option.some.inj isOpen]
    exact ⟨rfl,rfl,rfl⟩
  · obtain ⟨ports,_,same⟩ := Option.map_eq_some_iff.mp isOpen
    rw [← same]
    exact ⟨rfl,rfl,rfl⟩

/-- The worker has come to its end, a node without an error. -/
def endsWell (c : Call σ) : Worker → Bool
  | .node id =>
    match c.prog (.node id) with
    | .done (some (none,_)) => true
    | _ => false
  | .link index =>
    match c.prog (.link index) with
    | .done (some (some _)) => true
    | _ => false

/-- Once all workers that there are have come to their ends, the call completes. -/
theorem advances_of_endsWell {sortSlice : SliceSort} {opened : Network σ} {targetCycle : Nat} {c : Call σ} (isOpen : n.freeze = some opened)
    (reach : networkMachine.Reach (opened.start sortSlice targetCycle) c)
    (nodes : ∀ id, (n.nodes id).isSome = true → endsWell c (.node id) = true)
    (links : ∀ index < n.links.length, endsWell c (.link index) = true) : ∃ report : Report,
    n.AdvancesTo sortSlice targetCycle report (opened.after targetCycle c) ∧ ∀ id, report.errors id = none := by
  obtain ⟨sameNodes,sameLinks,_⟩ := freeze_eq isOpen
  have nodeEnds : ∀ id, ∃ value, c.prog (.node id) = .done value ∧ errorOf (c.prog (.node id)) = none := by
    intro id
    rcases found : n.nodes id with _ | handle
    · have absent : c.prog (.node id) = .done none :=
        Machine.reach_ended reach (by simp only [start,Config.start,work,sameNodes,found])
      exact ⟨none,absent,by rw [absent]; rfl⟩
    · have atEnd := nodes id (by rw [found]; rfl)
      unfold endsWell at atEnd
      dsimp only at atEnd
      split at atEnd
      · next node ended => exact ⟨_,ended,by rw [ended]; rfl⟩
      · cases atEnd
  have linkEnds : ∀ index, ∃ value, c.prog (.link index) = .done value ∧ value ≠ some none := by
    intro index
    by_cases inside : index < n.links.length
    · have atEnd := links index inside
      unfold endsWell at atEnd
      dsimp only at atEnd
      split at atEnd
      · next link ended => exact ⟨_,ended,by simp⟩
      · cases atEnd
    · have absent : n.links[index]? = none := List.getElem?_eq_none (by omega)
      exact ⟨none,Machine.reach_ended reach (by simp only [start,Config.start,work,sameLinks,absent]),by simp⟩
  refine ⟨_,.completes isOpen reach (fun w => ?_) fun index broken => ?_,fun id => (nodeEnds id).choose_spec.2⟩
  · cases w with
    | node id =>
      obtain ⟨value,ended,_⟩ := nodeEnds id
      exact ⟨value,ended⟩
    | link index =>
      obtain ⟨value,ended,_⟩ := linkEnds index
      exact ⟨value,ended⟩
  · obtain ⟨value,ended,intact⟩ := linkEnds index
    rw [ended] at broken
    exact intact (Prog.done.inj broken)

theorem runs_of_endsWell {sortSlice : SliceSort} {opened : Network σ} {targetCycle : Nat} {c : Call σ} (isOpen : n.freeze = some opened)
    (reach : networkMachine.Reach (opened.start sortSlice targetCycle) c)
    (nodes : ∀ id, (n.nodes id).isSome = true → endsWell c (.node id) = true)
    (links : ∀ index < n.links.length, endsWell c (.link index) = true) : ∃ report : Report,
    n.Runs sortSlice [.advanceTo targetCycle] [report] (opened.after targetCycle c) ∧ ∀ id, report.errors id = none := by
  obtain ⟨report,advances,fine⟩ := advances_of_endsWell isOpen reach nodes links
  exact ⟨report,.advanceTo .start (by simp) advances,fine⟩

/-! ### Two nodes and a link -/

/-- A handler that leaves everything as it is. -/
def idle : Handler Unit := fun _ _ _ => return (none,())

/-- A node with a packet to send. -/
def sendingNode : NodeHandle Unit where
  node := .newBaseNode 0 ⟨[],[((OutputQueue.newOutputQueue 2 1 Nat.one_pos).injectPackets 0 [{ sourceID := 0, targetID := 1 }]).2]⟩
    (fun _ => false) ()
  handler := idle

/-- A node with a queue for it. -/
def receivingNode : NodeHandle Unit where
  node := .newBaseNode 1 ⟨[.newInputQueue 2 1 Nat.two_pos Nat.one_pos],[]⟩ (fun _ => false) ()
  handler := idle

def twoNodes : Network Unit :=
  { (new : Network Unit) with
    nodes := Function.update (Function.update (fun _ => none) 0 (some sendingNode)) 1 (some receivingNode) }

def twoNodesLinked : Network Unit :=
  match twoNodes.connect 0 0 1 0 1 1 none with
  | some (.ok n) => n
  | _ => twoNodes

theorem built_twoNodesLinked : twoNodesLinked.Built := by
  have first : Built { (new : Network Unit) with nodes := Function.update (fun _ => none) 0 (some sendingNode) } := by
    refine @Built.addNode _ _ _ sendingNode .new ⟨⟨_,_,_,rfl⟩,?_⟩ rfl
    simp [sendingNode,BaseNode.newBaseNode]
  have both : Built twoNodes := by
    refine @Built.addNode _ _ _ receivingNode first ⟨⟨_,_,_,rfl⟩,fun iq member => ?_⟩ rfl
    obtain rfl : iq = .newInputQueue 2 1 Nat.two_pos Nat.one_pos := List.mem_singleton.mp member
    exact ⟨rfl,by decide⟩
  have linked : twoNodes.connect 0 0 1 0 1 1 none = some (.ok twoNodesLinked) := by rfl
  refine .connect both ?_ linked
  simp

/-- The network once its link is initialised. -/
def twoNodesOpened : Network Unit := twoNodesLinked.freeze.getD twoNodesLinked

theorem freeze_twoNodesLinked : twoNodesLinked.freeze = some twoNodesOpened := by
  obtain ⟨opened,same⟩ := Option.isSome_iff_exists.mp (show twoNodesLinked.freeze.isSome = true by decide +kernel)
  rw [twoNodesOpened,same,Option.getD_some]

/-- The workers take turns, in the given order. -/
def inTurns (order : List Worker) : Call Unit :=
  networkMachine.run (List.replicate 30 order).flatten (twoNodesOpened.start stableSort 2)

theorem advances_inTurns (order : List Worker)
    (atEnd : [.node 0,.node 1,.link 0].all (endsWell (inTurns order)) = true) :
    ∃ report : Report, twoNodesLinked.AdvancesTo stableSort 2 report (twoNodesOpened.after 2 (inTurns order)) ∧
      ∀ id, report.errors id = none := by
  obtain ⟨first,second,third⟩ : endsWell (inTurns order) (.node 0) = true ∧ endsWell (inTurns order) (.node 1) = true ∧
    endsWell (inTurns order) (.link 0) = true := by simpa using atEnd
  refine advances_of_endsWell freeze_twoNodesLinked (Machine.reach_run ..) (fun id present => ?_) fun index inside => ?_
  · by_cases isFirst : id = 0
    · exact isFirst ▸ first
    · by_cases isSecond : id = 1
      · exact isSecond ▸ second
      · have attached : twoNodesLinked.nodes = attach (attach twoNodes.nodes 0 (.output 0)) 1 (.input 0) := rfl
        rw [attached] at present
        simp [attach,twoNodes,Function.update_of_ne isFirst,Function.update_of_ne isSecond] at present
  · obtain rfl : index = 0 := Nat.lt_one_iff.mp inside
    exact third

theorem runs_inTurns (order : List Worker)
    (atEnd : [.node 0,.node 1,.link 0].all (endsWell (inTurns order)) = true) :
    ∃ report : Report, twoNodesLinked.Runs stableSort [.advanceTo 2] [report] (twoNodesOpened.after 2 (inTurns order)) ∧
      ∀ id, report.errors id = none := by
  obtain ⟨report,advances,fine⟩ := advances_inTurns order atEnd
  exact ⟨report,.advanceTo .start (by simp) advances,fine⟩

/-- A packet sent in cycle 0 arrives whether the receiver has the last turn or the first, and
    the reports of the two calls are the same. -/
theorem advance_independent_two_orders : ∃ (report₁ report₂ : Report) (n₁ n₂ : Network Unit),
    twoNodesLinked.AdvancesTo stableSort 2 report₁ n₁ ∧ twoNodesLinked.AdvancesTo stableSort 2 report₂ n₂ ∧
    ((n₂.nodes 1).map fun handle => handle.node.queues.inputs.map InputQueue.packets) =
      some [[{ sourceID := 0, targetID := 1 }]] ∧
    report₁ = report₂ ∧ n₁.nodes = n₂.nodes := by
  obtain ⟨_,advances₁,_⟩ := advances_inTurns [.node 0,.link 0,.node 1] (by decide +kernel)
  obtain ⟨_,advances₂,_⟩ := advances_inTurns [.node 1,.link 0,.node 0] (by decide +kernel)
  obtain ⟨report,nodes,_⟩ := advance_independent built_twoNodesLinked .start (by simp) advances₁ advances₂
  exact ⟨_,_,_,_,advances₁,advances₂,by decide +kernel,report,nodes⟩

/-- A packet sent in cycle 0 is received in cycle 1, whether the receiver has the first turn or
    the last. -/
theorem schedule_independent_two_orders : ∃ (reports₁ reports₂ : List Report) (n₁ n₂ : Network Unit),
    twoNodesLinked.Runs stableSort [.advanceTo 2] reports₁ n₁ ∧ twoNodesLinked.Runs stableSort [.advanceTo 2] reports₂ n₂ ∧
    ((n₁.nodes 1).map fun handle => handle.node.queues.inputs.map InputQueue.packets) =
      some [[{ sourceID := 0, targetID := 1 }]] ∧
    reports₁ = reports₂ ∧ n₁.nodes = n₂.nodes := by
  obtain ⟨_,run₁,_⟩ := runs_inTurns [.node 0,.link 0,.node 1] (by decide +kernel)
  obtain ⟨_,run₂,_⟩ := runs_inTurns [.node 1,.link 0,.node 0] (by decide +kernel)
  obtain ⟨reports,nodes,_⟩ := schedule_independent built_twoNodesLinked run₁ run₂
  exact ⟨_,_,_,_,run₁,run₂,by decide +kernel,reports,nodes⟩

end Network
end FlowSim
