import FlowSim.Loadbench.Ring

/-!
The traffic on a ring. A packet that has set out in the direction in which its target is nearer
goes on in this direction up to its target, and never past it (`OnItsWay`): the nodes in between
choose the direction anew, but always the same one. So in every run all packets are on a
shortest way to their targets, and those that were injected are on the ring or were received
(`ring_traffic`).
-/
namespace FlowSim.Loadbench
open FlowSim.Lib FlowSim.AheadPort FlowSim.Queue FlowSim.Node FlowSim.Links FlowSim.Network
open BufferlessRingRouterNode (peekAll)
set_option linter.unusedSimpArgs false

/-! ### Ways around the ring -/

/-- How many links there are from one node to another in a direction. -/
def along (nodeCount dir : Nat) (src dst : Int) : Int := (if dir = 0 then dst - src else src - dst) % nodeCount

/-- The queue to which a port belongs. -/
def queueOf : NodePort → Nat
  | .input queue => queue
  | .output queue => queue

/-- A packet at a port of a node. It goes in the direction in which its target is nearer to its
    source, the node is between the two, and what leaves the node is not for it. (In a ring of
    one node it is.) -/
structure OnItsWay (nodeCount : Nat) (p : PortId) (pkt : Packet) : Prop where
  source : OnRing nodeCount pkt.sourceID
  target : OnRing nodeCount pkt.targetID
  here : OnRing nodeCount p.1
  direction : getDirection nodeCount pkt.sourceID pkt.targetID = queueOf p.2
  between : along nodeCount (queueOf p.2) pkt.sourceID p.1 + along nodeCount (queueOf p.2) p.1 pkt.targetID =
    along nodeCount (queueOf p.2) pkt.sourceID pkt.targetID
  onward : ∀ queue, p.2 = .output queue → pkt.targetID = p.1 → nodeCount = 1

section
variable {nodeCount dir : Nat} {src dst i : Int} {pkt : Packet}

theorem along_clockwise (isSource : OnRing nodeCount src) (isTarget : OnRing nodeCount dst) :
    src ≤ dst ∧ along nodeCount 0 src dst = dst - src ∨ dst < src ∧ along nodeCount 0 src dst = dst - src + nodeCount := by
  obtain ⟨pos₁,below₁⟩ := isSource
  obtain ⟨pos₂,below₂⟩ := isTarget
  rw [along,if_pos rfl]
  by_cases ahead : src ≤ dst
  · exact .inl ⟨ahead,Int.emod_eq_of_lt (by omega) (by omega)⟩
  · refine .inr ⟨by omega,?_⟩
    rw [← Int.add_emod_right]
    exact Int.emod_eq_of_lt (by omega) (by omega)

theorem along_counter (isSource : OnRing nodeCount src) (isTarget : OnRing nodeCount dst) :
    dst ≤ src ∧ along nodeCount 1 src dst = src - dst ∨ src < dst ∧ along nodeCount 1 src dst = src - dst + nodeCount :=
  along_clockwise isTarget isSource

theorem getDirection_cases (isSource : OnRing nodeCount src) (isTarget : OnRing nodeCount dst) :
    getDirection nodeCount src dst = 0 ∧ along nodeCount 0 src dst ≤ along nodeCount 1 src dst ∨
      getDirection nodeCount src dst = 1 ∧ along nodeCount 1 src dst < along nodeCount 0 src dst := by
  have ⟨pos₁,below₁⟩ := isSource
  have ⟨pos₂,below₂⟩ := isTarget
  have clockwise : (dst - src + nodeCount).tmod nodeCount = along nodeCount 0 src dst := by
    rw [Int.tmod_eq_emod_of_nonneg (by omega),Int.add_emod_right]
    rfl
  have counter : (src - dst + nodeCount).tmod nodeCount = along nodeCount 1 src dst := by
    rw [Int.tmod_eq_emod_of_nonneg (by omega),Int.add_emod_right]
    rfl
  rw [getDirection,clockwise,counter]
  by_cases nearer : along nodeCount 0 src dst ≤ along nodeCount 1 src dst
  · exact .inl ⟨if_pos nearer,nearer⟩
  · exact .inr ⟨if_neg nearer,not_le.mp nearer⟩

/-- No packet goes further than half around the ring. -/
theorem OnItsWay.short {p : PortId} (onWay : OnItsWay nodeCount p pkt) :
    2 * along nodeCount (queueOf p.2) pkt.sourceID pkt.targetID ≤ nodeCount := by
  have clockwise := along_clockwise onWay.source onWay.target
  have counter := along_counter onWay.source onWay.target
  have ⟨pos,below⟩ := onWay.source
  rw [← onWay.direction]
  rcases getDirection_cases onWay.source onWay.target with ⟨direction,nearer⟩ | ⟨direction,nearer⟩
  · rw [direction]
    omega
  · rw [direction]
    omega

/-- A node on the way chooses the direction in which the packet has set out. -/
theorem OnItsWay.forward {queue : Nat} (onWay : OnItsWay nodeCount (i,.input queue) pkt) (onward : pkt.targetID ≠ i) :
    OnItsWay nodeCount (i,.output (getDirection nodeCount i pkt.targetID)) pkt := by
  have direction : getDirection nodeCount pkt.sourceID pkt.targetID = queue := onWay.direction
  have between : along nodeCount queue pkt.sourceID i + along nodeCount queue i pkt.targetID =
    along nodeCount queue pkt.sourceID pkt.targetID := onWay.between
  have here : OnRing nodeCount i := onWay.here
  have same : getDirection nodeCount i pkt.targetID = queue := by
    have clockwise := along_clockwise onWay.source onWay.target
    have counter := along_counter onWay.source onWay.target
    have clockwise' := along_clockwise onWay.source here
    have counter' := along_counter onWay.source here
    have clockwise'' := along_clockwise here onWay.target
    have counter'' := along_counter here onWay.target
    have ⟨pos,below⟩ := here
    have ⟨pos',below'⟩ := onWay.source
    have ⟨pos'',below''⟩ := onWay.target
    rcases getDirection_cases onWay.source onWay.target with ⟨isQueue,nearer⟩ | ⟨isQueue,nearer⟩
    · obtain rfl : queue = 0 := direction.symm.trans isQueue
      rcases getDirection_cases here onWay.target with ⟨chosen,_⟩ | ⟨_,_⟩
      · exact chosen
      · omega
    · obtain rfl : queue = 1 := direction.symm.trans isQueue
      rcases getDirection_cases here onWay.target with ⟨_,_⟩ | ⟨chosen,_⟩
      · omega
      · exact chosen
  rw [same]
  exact ⟨onWay.source,onWay.target,here,direction,between,fun _ _ arrived => absurd arrived onward⟩

/-- A packet sets out on its way. -/
theorem onItsWay_injected (here : OnRing nodeCount i) (target : OnRing nodeCount dst) (onward : dst = i → nodeCount = 1) :
    OnItsWay nodeCount (i,.output (getDirection nodeCount i dst)) { sourceID := i, targetID := dst } := by
  refine ⟨here,target,here,rfl,?_,fun _ _ => onward⟩
  have still : along nodeCount (getDirection nodeCount i dst) i i = 0 := by
    rw [along,Int.sub_self,ite_self]
    rfl
  show along nodeCount (getDirection nodeCount i dst) i i + _ = _
  rw [still,zero_add]

/-- A link leads a packet on its way. -/
theorem OnItsWay.next (onWay : OnItsWay nodeCount (i,.output dir) pkt) : OnItsWay nodeCount (nextNode nodeCount dir i,.input dir) pkt := by
  have here : OnRing nodeCount i := onWay.here
  have direction : getDirection nodeCount pkt.sourceID pkt.targetID = dir := onWay.direction
  have between : along nodeCount dir pkt.sourceID i + along nodeCount dir i pkt.targetID =
    along nodeCount dir pkt.sourceID pkt.targetID := onWay.between
  have onward : pkt.targetID = i → nodeCount = 1 := onWay.onward dir rfl
  have next := here.next dir
  have ⟨pos,below⟩ := here
  have ⟨pos',below'⟩ := onWay.target
  have ⟨pos'',below''⟩ := onWay.source
  refine ⟨onWay.source,onWay.target,next,direction,?_,fun _ isOutput => by cases isOutput⟩
  show along nodeCount dir pkt.sourceID (nextNode nodeCount dir i) + along nodeCount dir (nextNode nodeCount dir i) pkt.targetID =
    along nodeCount dir pkt.sourceID pkt.targetID
  rcases getDirection_cases onWay.source onWay.target with ⟨isQueue,_⟩ | ⟨isQueue,_⟩
  · obtain rfl : dir = 0 := direction.symm.trans isQueue
    have step := nextNode_clockwise here
    have whole := along_clockwise onWay.source onWay.target
    have done := along_clockwise onWay.source here
    have left := along_clockwise here onWay.target
    have done' := along_clockwise onWay.source next
    have left' := along_clockwise next onWay.target
    omega
  · obtain rfl : dir = 1 := direction.symm.trans isQueue
    have step := nextNode_counter here one_ne_zero
    have whole := along_counter onWay.source onWay.target
    have done := along_counter onWay.source here
    have left := along_counter here onWay.target
    have done' := along_counter onWay.source next
    have left' := along_counter next onWay.target
    omega

end

/-! ### What a node of the ring does to its packets -/

/-- What a node has received is consumed, what it has injected is created. -/
def ringBooks : Books RingCounts where
  consumed counts := counts.received
  created counts := counts.injected

section
variable {may : NodePort → Packet → Prop} {qs : Queues} {pkt : Packet} {dir : Nat}

/-- A packet is injected, or nothing happens. -/
theorem runOn_tryInject (cycle : Nat) (placed : qs.Placed may) (allowed : may (.output dir) pkt) : ∃ (injected : Bool) (qs' : Queues),
    runOn (tryInject dir cycle pkt) qs = (injected,qs') ∧ qs'.Placed may ∧ qs'.inputs = qs.inputs ∧
      qs'.packets = qs.packets + if injected = true then {pkt} else 0 := by
  unfold tryInject
  rw [runOn_bind,runOn_queues]
  dsimp only
  rcases found : qs.outputs[dir]? with _ | oq
  · exact ⟨false,qs,rfl,placed,rfl,(add_zero _).symm⟩
  · dsimp only
    by_cases full : oq.isFull = true
    · rw [if_pos full]
      exact ⟨false,qs,rfl,placed,rfl,(add_zero _).symm⟩
    · rw [if_neg full,runOn_bind,runOn_injectPackets]
      have room : oq.count + [pkt].length ≤ oq.capacity := by
        simp only [OutputQueue.isFull,decide_eq_true_eq] at full
        rw [List.length_singleton]
        omega
      have fits : (oq.injectPackets cycle [pkt]).1 = none := by
        rw [OutputQueue.injectPackets,if_neg (by simp),dif_pos room]
      have answer : (qs.injectPackets dir cycle [pkt]).1 = none ∧ (qs.injectPackets dir cycle [pkt]).2.inputs = qs.inputs := by
        unfold Queues.injectPackets
        rw [found]
        exact ⟨fits,rfl⟩
      refine ⟨true,(qs.injectPackets dir cycle [pkt]).2,?_,placed.injectPackets (by simpa using allowed),answer.2,?_⟩
      · rw [answer.1]
        rfl
      · rw [Queues.packets_injectPackets found room,if_pos rfl,Multiset.coe_singleton]

end

section
variable {nodeCount : Nat} {nodeIdx : Int} (cycle : Nat)

/-- The packets that a node finds in its input queues are received, forwarded or left. -/
theorem processInputs_accounts : ∀ (refs : List PacketRef) (counts : RingCounts) {qs : Queues},
    qs.Placed (fun port => OnItsWay nodeCount (nodeIdx,port)) → qs.RefsTo refs → ∃ counts' qs',
      runOn (processInputs nodeCount nodeIdx cycle refs counts) qs = (counts',qs') ∧
      qs'.Placed (fun port => OnItsWay nodeCount (nodeIdx,port)) ∧ counts'.injected = counts.injected ∧
      qs'.packets + (counts'.received : Multiset Packet) = qs.packets + (counts.received : Multiset Packet)
  | [], counts, qs, placed, _ => ⟨counts,qs,rfl,placed,rfl,rfl⟩
  | ref :: rest, counts, qs, placed, all => by
    obtain ⟨iq,isQueue,stored⟩ := all.stored ref List.mem_cons_self
    have taken := Queues.packets_free isQueue stored
    rw [processInputs]
    dsimp only
    by_cases arrived : ref.packet.targetID = nodeIdx
    · rw [if_pos arrived,runOn_bind,runOn_free]
      obtain ⟨counts',qs',ran,placed',injected,total⟩ := processInputs_accounts rest
        { counts with received := counts.received ++ [ref.packet] } (placed.free ref.queue ref.slot) all.free
      refine ⟨counts',qs',ran,placed',injected,?_⟩
      rw [total,taken,← Multiset.coe_add,Multiset.coe_singleton]
      abel
    · have allowed := (placed.of_ref all List.mem_cons_self).forward arrived
      obtain ⟨forwarded,qs₁,ran₁,placed₁,inputs,total₁⟩ := runOn_tryInject cycle placed allowed
      have all₁ := all.congr inputs
      rw [if_neg arrived,runOn_bind,ran₁]
      cases forwarded with
      | false =>
        obtain ⟨counts',qs',ran,placed',injected,total⟩ := processInputs_accounts rest counts placed₁ all₁.tail
        exact ⟨counts',qs',ran,placed',injected,by rw [total,total₁,if_neg Bool.false_ne_true,add_zero]⟩
      | true =>
        have taken₁ := Queues.packets_free (inputs ▸ isQueue) stored
        obtain ⟨counts',qs',ran,placed',injected,total⟩ := processInputs_accounts rest counts (placed₁.free ref.queue ref.slot) all₁.free
        refine ⟨counts',qs',ran,placed',injected,?_⟩
        rw [total]
        refine congrArg (· + _) (add_right_cancel (b := {ref.packet}) ?_)
        rw [← taken₁,total₁,if_pos rfl]

/-- A packet of its own is injected, or nothing happens. -/
theorem generateTraffic_accounts (counts : RingCounts) (picked : Int) {qs : Queues} (here : OnRing nodeCount nodeIdx)
    (inRange : OnRing nodeCount picked) (placed : qs.Placed (fun port => OnItsWay nodeCount (nodeIdx,port))) : ∃ counts' qs',
      runOn (generateTraffic nodeCount nodeIdx cycle picked counts) qs = (counts',qs') ∧
      qs'.Placed (fun port => OnItsWay nodeCount (nodeIdx,port)) ∧ counts'.received = counts.received ∧
      qs'.packets + (counts.injected : Multiset Packet) = qs.packets + (counts'.injected : Multiset Packet) := by
  unfold generateTraffic
  dsimp only
  generalize isTarget : (if picked = nodeIdx then (picked + 1).tmod nodeCount else picked) = target
  have target_ : OnRing nodeCount target ∧ (target = nodeIdx → nodeCount = 1) := by
    obtain ⟨pos,below⟩ := here
    have next := nextNode_clockwise inRange
    have onRing := inRange.next 0
    rw [nextNode,if_pos rfl] at next onRing
    split_ifs at isTarget with isSelf
    · rw [← isTarget]
      refine ⟨onRing,fun same => ?_⟩
      omega
    · exact ⟨isTarget ▸ inRange,fun same => absurd (isTarget.trans same) isSelf⟩
  obtain ⟨injected,qs',ran,placed',_,total⟩ := runOn_tryInject cycle placed (onItsWay_injected here target_.1 target_.2)
  rw [runOn_bind,ran]
  cases injected with
  | false => exact ⟨counts,qs',rfl,placed',rfl,by rw [total,if_neg Bool.false_ne_true,add_zero]⟩
  | true =>
    refine ⟨_,qs',rfl,placed',rfl,?_⟩
    rw [total,if_pos rfl,if_pos rfl,← Multiset.coe_add,Multiset.coe_singleton]
    abel

theorem processHook_accounts (sortSlice : SliceSort) (here : OnRing nodeCount nodeIdx) (intn : Nat → Fin nodeCount) :
    (processHook nodeCount nodeIdx intn).Accounts sortSlice (fun port => OnItsWay nodeCount (nodeIdx,port)) ringBooks := by
  intro cycle counts qs placed counts' qs' ran
  obtain ⟨counts₁,qs₁,ran₁,placed₁,injected,total₁⟩ := processInputs_accounts cycle (peekAll sortSlice qs).flatten counts placed
    (Queues.refsTo_peekAll sortSlice qs)
  rw [processHook,runOn_bind,ran₁] at ran
  dsimp only at ran
  split_ifs at ran
  · obtain ⟨counts₂,qs₂,ran₂,placed₂,received,total₂⟩ := generateTraffic_accounts cycle counts₁ (intn cycle).val here
      ⟨by omega,by omega⟩ placed₁
    rw [runOn_bind,ran₂] at ran
    cases ran
    refine ⟨placed₂,?_⟩
    show qs₂.packets + (counts₂.received : Multiset Packet) + (counts.injected : Multiset Packet) =
      qs.packets + (counts.received : Multiset Packet) + (counts₂.injected : Multiset Packet)
    rw [received,← total₁,← injected,add_right_comm,total₂,add_right_comm]
  · cases ran
    refine ⟨placed₁,?_⟩
    show qs'.packets + (counts'.received : Multiset Packet) + (counts.injected : Multiset Packet) =
      qs.packets + (counts.received : Multiset Packet) + (counts'.injected : Multiset Packet)
    rw [total₁,injected]

end

/-! ### The ring -/

section
variable {nodeCount : Nat} {intn : Int → Nat → Fin nodeCount} {net : Network RingCounts} (isRing : IsRing nodeCount intn net)
include isRing

theorem ring_accounts (sortSlice : SliceSort) : net.Accounts sortSlice (OnItsWay nodeCount) ringBooks where
  handlers := by
    intro id handle found
    rw [(isRing.nodes id handle found).1]
    have here : OnRing nodeCount id := (isRing.present id).mp (by rw [found]; rfl)
    exact processHook_accounts sortSlice here (intn id)
  links := by
    intro index l found pkt onWay
    have member := List.mem_map_of_mem (f := ends) (List.mem_of_getElem? found)
    rw [isRing.links] at member
    obtain ⟨i,_,isLink⟩ := List.mem_flatMap.mp member
    have leads : ∃ dir, l.source = ((i : Int),dir) ∧ l.target = (nextNode nodeCount dir i,dir) := by
      rcases List.mem_pair.mp isLink with same | same
      · exact ⟨0,congrArg Prod.fst same,congrArg Prod.snd same⟩
      · exact ⟨1,congrArg Prod.fst same,congrArg Prod.snd same⟩
    obtain ⟨dir,source,target⟩ := leads
    rw [Connection.portAt,source] at onWay
    rw [Connection.portAt,target]
    exact onWay.next

theorem ring_empty : net.packets = 0 ∧ net.consumed ringBooks = 0 ∧ net.created ringBooks = 0 := by
  have nothing : net.held = fun _ => 0 := by
    funext w
    cases w with
    | node id =>
      rcases found : net.nodes id with _ | handle
      · rw [held,found]
        rfl
      · rw [held,found,Option.map_some,Option.getD_some,(isRing.nodes id handle found).2.1]
        rfl
    | link index =>
      rcases found : net.links[index]? with _ | l
      · rw [held,found]
        rfl
      · rw [held,found,Option.map_some,Option.getD_some]
        exact isRing.built.empty.2 index l found
  have noneStated : ∀ entry : RingCounts → Multiset Packet, entry ⟨[],[]⟩ = 0 → net.stated entry = fun _ => 0 := by
    intro entry zero
    funext w
    cases w with
    | node id =>
      rcases found : net.nodes id with _ | handle
      · rw [stated,found]
        rfl
      · rw [stated,found,Option.map_some,Option.getD_some,(isRing.nodes id handle found).2.2.1,zero]
    | link index => rfl
  refine ⟨?_,?_,?_⟩
  · rw [Network.packets,nothing,isRing.built.inFlight,finsum_zero,add_zero]
  · rw [Network.consumed,noneStated _ rfl,finsum_zero]
  · rw [Network.created,noneStated _ rfl,finsum_zero]

end

/-- Whatever is done with a ring, as long as no node fails: all packets are on a shortest way to
    their targets, and those that the nodes have injected or that were accepted from outside are
    on the ring or were received, each once. -/
theorem ring_traffic {nodeCount : Nat} {intn : Int → Nat → Fin nodeCount} {net later : Network RingCounts} {sortSlice : SliceSort}
    {actions : List Action} {reports : List Report} (built : buildBidirectionalRing nodeCount intn = pure net)
    (run : net.Runs sortSlice actions reports later) (fine : ∀ report ∈ reports, ∀ id, report.errors id = none)
    (injected : ∀ id pkt, Action.injectPacket id pkt ∈ actions → OnItsWay nodeCount (id,.output 0) pkt) :
    later.Carries (OnItsWay nodeCount) ∧ ∃ accepted : List Packet, accepted.Sublist (actions.filterMap Action.injected) ∧
      later.packets + later.consumed ringBooks = later.created ringBooks + (accepted : Multiset Packet) := by
  obtain ⟨net',built',isRing⟩ := exists_ring nodeCount intn
  obtain rfl : net = net' := Except.ok.inj (Option.some.inj (built.symm.trans built'))
  have placed : ∀ id handle, net.nodes id = some handle →
      handle.node.queues.Placed fun port => OnItsWay nodeCount (id,port) := by
    intro id handle found
    rw [(isRing.nodes id handle found).2.1]
    refine ⟨⟨?_,?_,trivial⟩,⟨?_,?_,trivial⟩⟩
    all_goals
      intro pkt member
      cases member
  obtain ⟨_,carries,accepted,part,balanced⟩ := isRing.built.accounted (ring_accounts isRing sortSlice) placed run fine injected
  obtain ⟨noPackets,noneConsumed,noneCreated⟩ := ring_empty isRing
  rw [noPackets,noneConsumed,noneCreated,add_zero,zero_add,zero_add] at balanced
  exact ⟨carries,accepted,part,balanced⟩

/-! ### Two nodes -/

/-- A ring of two nodes, each of which sends packets to the other. -/
def ringOfTwo : Network RingCounts :=
  match buildBidirectionalRing 2 fun _ _ => 0 with
  | some (.ok net) => net
  | _ => .new

/-- The ring once its links are initialised. -/
def ringOfTwoOpened : Network RingCounts := ringOfTwo.freeze.getD ringOfTwo

/-- The call for cycle 0, the workers taking turns. -/
def ringOfTwoCall : Call RingCounts :=
  networkMachine.run (List.replicate 150 [.node 0,.node 1,.link 0,.link 1,.link 2,.link 3]).flatten (ringOfTwoOpened.start stableSort 0)

/-- Both nodes have injected a packet, which is on its way. -/
theorem ring_traffic_two_nodes : ∃ (reports : List Report) (later : Network RingCounts),
    ringOfTwo.Runs stableSort [.advanceTo 0] reports later ∧
    ((later.nodes 0).map fun handle => handle.node.state.injected) = some [{ sourceID := 0, targetID := 1 }] ∧
    later.Carries (OnItsWay 2) ∧ later.packets + later.consumed ringBooks = later.created ringBooks := by
  obtain ⟨net,built,isRing⟩ := exists_ring 2 fun _ _ => 0
  obtain rfl : ringOfTwo = net := by
    rw [ringOfTwo,built]
    rfl
  have isOpen : ringOfTwo.freeze = some ringOfTwoOpened := by
    obtain ⟨opened,same⟩ := Option.isSome_iff_exists.mp (show ringOfTwo.freeze.isSome = true by decide +kernel)
    rw [ringOfTwoOpened,same,Option.getD_some]
  have atEnd : ∀ w ∈ [.node 0,.node 1,.link 0,.link 1,.link 2,.link 3], endsWell ringOfTwoCall w = true :=
    List.all_eq_true.mp (by decide +kernel)
  have nodes : ∀ id, (ringOfTwo.nodes id).isSome = true → endsWell ringOfTwoCall (.node id) = true := by
    intro id present
    obtain ⟨pos,below⟩ := (isRing.present id).mp present
    refine atEnd _ ?_
    interval_cases id <;> simp
  have links : ∀ index < ringOfTwo.links.length, endsWell ringOfTwoCall (.link index) = true := by
    intro index inside
    have length : ringOfTwo.links.length = 4 := (List.length_map ends).symm.trans (congrArg List.length isRing.links)
    rw [length] at inside
    refine atEnd _ ?_
    interval_cases index <;> simp
  have reach : networkMachine.Reach (ringOfTwoOpened.start stableSort 0) ringOfTwoCall := Machine.reach_run ..
  obtain ⟨report,run,fine⟩ := runs_of_endsWell isOpen reach nodes links
  obtain ⟨carries,accepted,part,balanced⟩ := ring_traffic built run
    (fun report' member => by rw [List.mem_singleton.mp member]; exact fine) (by simp)
  refine ⟨_,_,run,by decide +kernel,carries,?_⟩
  obtain rfl : accepted = [] := List.sublist_nil.mp part
  simpa only [add_zero,Multiset.coe_nil] using balanced

end FlowSim.Loadbench
