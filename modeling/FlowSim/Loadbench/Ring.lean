import FlowSim.Network.Conservation

/-!
A ring of nodes with links in both directions. A node sends a packet in the direction in which
its target is nearer and takes the packets for itself out of the ring; from time to time it
sends a packet of its own to a node that is picked at random. Whatever the number of nodes, the
ring can be built, and each queue gets exactly one link (`ring_built`).
-/
namespace FlowSim.Loadbench
open FlowSim.Lib FlowSim.AheadPort FlowSim.Queue FlowSim.Node FlowSim.Links FlowSim.Network
set_option linter.unusedSimpArgs false

/-! ### A node of the ring -/

/-- The packets that a node has received and injected. The code counts them, over all nodes
    together. -/
structure RingCounts where
  received : List Packet
  injected : List Packet
deriving DecidableEq

/-- The number of the output queue on the shorter way: 0 clockwise, 1 counter-clockwise. -/
def getDirection (nodeCount : Nat) (src dst : Int) : Nat :=
  let cwDist := (dst - src + nodeCount).tmod nodeCount
  let ccwDist := (src - dst + nodeCount).tmod nodeCount
  if cwDist ≤ ccwDist then 0 else 1

/-- Injects a packet into an output queue unless it is full. A node of the ring has both queues;
    the code stops at the index of a missing one. -/
def tryInject (dir cycle : Nat) (pkt : Packet) : Prog nodeInterface Bool := do
  let qs ← queues
  match qs.outputs[dir]? with
  | none => return false
  | some outQ =>
    if outQ.isFull then return false
    else
      let error ← injectPackets dir cycle [pkt]
      return error.isNone

/-- Takes the packets for the node out of the input queues and forwards the others; where the
    queue on the way is full, the packet stays. -/
def processInputs (nodeCount : Nat) (nodeIdx : Int) (cycle : Nat) : List PacketRef → RingCounts → Prog nodeInterface RingCounts
  | [], counts => return counts
  | ref :: rest, counts =>
    let pkt := ref.packet
    if pkt.targetID = nodeIdx then do
      free ref
      processInputs nodeCount nodeIdx cycle rest { counts with received := counts.received ++ [pkt] }
    else do
      let forwarded ← tryInject (getDirection nodeCount nodeIdx pkt.targetID) cycle pkt
      if forwarded then free ref
      processInputs nodeCount nodeIdx cycle rest counts

/-- Injects a packet for the picked node, or for the node after it if the picked node is the
    node itself. -/
def generateTraffic (nodeCount : Nat) (nodeIdx : Int) (cycle : Nat) (picked : Int) (counts : RingCounts) :
    Prog nodeInterface RingCounts := do
  let target := if picked = nodeIdx then (picked + 1).tmod nodeCount else picked
  let pkt : Packet := { sourceID := nodeIdx, targetID := target }
  let injected ← tryInject (getDirection nodeCount nodeIdx target) cycle pkt
  return if injected then { counts with injected := counts.injected ++ [pkt] } else counts

def injectInterval (nodeCount : Nat) : Nat := if nodeCount / 2 < 1 then 1 else nodeCount / 2

/-- What a node of the ring does in a cycle. The node that is picked in a cycle comes from a
    source of random numbers; the time that the code spends spinning is left out. -/
def processHook (nodeCount : Nat) (nodeIdx : Int) (intn : Nat → Fin nodeCount) : Handler RingCounts := fun cycle counts inputs => do
  let counts ← processInputs nodeCount nodeIdx cycle inputs.flatten counts
  if cycle % injectInterval nodeCount = 0 then
    let counts ← generateTraffic nodeCount nodeIdx cycle (intn cycle).val counts
    return (none,counts)
  else return (none,counts)

/-! ### The network -/

def queueCapacity : Nat := 64

theorem queueCapacity_pos : 0 < queueCapacity := Nat.succ_pos 63

/-- Two queues on either side, with the number of the direction in which their packets go. -/
def ringQueues : Queues where
  inputs := List.replicate 2 (.newInputQueue queueCapacity 1 queueCapacity_pos Nat.one_pos)
  outputs := List.replicate 2 (.newOutputQueue queueCapacity 1 Nat.one_pos)

def ringNode (nodeCount : Nat) (intn : Int → Nat → Fin nodeCount) (i : Nat) : NodeHandle RingCounts where
  node := .newBaseNode i ringQueues (fun _ => false) ⟨[],[]⟩
  handler := processHook nodeCount i (intn i)

def linkLatency : Int := 10

/-- A construction that may end with an error, or panic. -/
abbrev Building := ExceptT String Option

/-- Gives an error its context. -/
def wrap {α : Type} (context : String) (result : Option (Except String α)) : Building α :=
  ExceptT.adapt (fun err => s!"{context}: {err}") result

def addRingNode (nodeCount : Nat) (intn : Int → Nat → Fin nodeCount) (net : Network RingCounts) (i : Nat) : Building (Network RingCounts) :=
  wrap s!"AddNode {i}" (net.addNode (ringNode nodeCount intn i))

/-- The links from a node to its two neighbours. -/
def connectNeighbours (nodeCount : Nat) (net : Network RingCounts) (i : Nat) : Building (Network RingCounts) := do
  let cwNext := ((i : Int) + 1).tmod nodeCount
  let net ← wrap s!"Connect CW {i}->{cwNext}" (net.connect i 0 cwNext 0 linkLatency 1 none)
  let ccwNext := ((i : Int) - 1 + nodeCount).tmod nodeCount
  wrap s!"Connect CCW {i}->{ccwNext}" (net.connect i 1 ccwNext 1 linkLatency 1 none)

def buildBidirectionalRing (nodeCount : Nat) (intn : Int → Nat → Fin nodeCount) : Building (Network RingCounts) := do
  let net ← (List.range nodeCount).foldlM (addRingNode nodeCount intn) Network.new
  (List.range nodeCount).foldlM (connectNeighbours nodeCount) net

/-! ### Building -/

/-- A loop that succeeds in every round. -/
theorem foldlM_range {α : Type} {f : α → Nat → Building α} (P : Nat → α → Prop) {first : α} (begins : P 0 first) :
    ∀ (rounds : Nat), (∀ k < rounds, ∀ a, P k a → ∃ a', f a k = pure a' ∧ P (k + 1) a') →
      ∃ a, (List.range rounds).foldlM f first = pure a ∧ P rounds a
  | 0, _ => ⟨first,rfl,begins⟩
  | rounds + 1, step => by
    obtain ⟨a,before,holds⟩ := foldlM_range P begins rounds fun k inside => step k (Nat.lt_succ_of_lt inside)
    obtain ⟨a',last,holds'⟩ := step rounds (Nat.lt_succ_self rounds) a holds
    refine ⟨a',?_,holds'⟩
    rw [List.range_succ,List.foldlM_append,before,pure_bind,List.foldlM_cons,last,pure_bind]
    rfl

/-- The two queues that a link connects. -/
def ends (l : Connection) : (Int × Nat) × (Int × Nat) := (l.source,l.target)

section
variable {σ : Type} {n : Network σ}

theorem connect_succeeds {source target : Int} {output input : Nat} (latency bandwidth : Int) {sourceHandle targetHandle : NodeHandle σ}
    {oq : OutputQueue} {iq : InputQueue} (built : n.Built) (unfrozen : n.frozen = false)
    (isSource : n.nodes source = some sourceHandle) (isTarget : n.nodes target = some targetHandle)
    (isOutput : sourceHandle.node.queues.outputs[output]? = some oq) (isInput : targetHandle.node.queues.inputs[input]? = some iq)
    (sourceFree : ∀ l ∈ n.links, l.source ≠ (source,output)) (targetFree : ∀ l ∈ n.links, l.target ≠ (target,input))
    (pos : 0 < latency ∧ 0 < bandwidth) (ready : (iq.setUpstreamPort Port.newPort.downstreamSync).isSome = true) :
    ∃ n', n.connect source output target input latency bandwidth none = some (.ok n') ∧ n'.Built ∧ n'.frozen = false ∧
      n'.links.map ends = n.links.map ends ++ [((source,output),(target,input))] ∧
      ∀ id, (n'.nodes id).isSome = (n.nodes id).isSome := by
  obtain ⟨g,prepared⟩ := built.prepared
  have sourceUnused : sourceHandle.node.connected (.output output) = false := by
    rw [Bool.eq_false_iff]
    intro used
    obtain ⟨l,member,side,here⟩ := wired_iff.mp ((prepared.sound.attached source sourceHandle isSource _).mp used)
    cases side with
    | upstream => exact sourceFree l member (by simpa [Connection.portAt,Prod.ext_iff] using here)
    | downstream => simp [Connection.portAt] at here
  have targetUnused : targetHandle.node.connected (.input input) = false := by
    rw [Bool.eq_false_iff]
    intro used
    obtain ⟨l,member,side,here⟩ := wired_iff.mp ((prepared.sound.attached target targetHandle isTarget _).mp used)
    cases side with
    | upstream => simp [Connection.portAt] at here
    | downstream => exact targetFree l member (by simpa [Connection.portAt,Prod.ext_iff] using here)
  obtain ⟨downstreamSync,connected⟩ := Option.isSome_iff_exists.mp ready
  have succeeds : ∃ n', n.connect source output target input latency bandwidth none = some (.ok n') ∧ n'.frozen = false ∧
      n'.links.map ends = n.links.map ends ++ [((source,output),(target,input))] ∧
      ∀ id, (n'.nodes id).isSome = (n.nodes id).isSome := by
    unfold Network.connect
    rw [unfrozen]
    simp only [Bool.false_eq_true,↓reduceIte,isSource,isTarget,queueAt,Int.toNat_natCast,isOutput,isInput,sourceUnused,targetUnused,
      show ¬ (output : Int) < 0 by omega,show ¬ (input : Int) < 0 by omega,wire,dif_pos pos,connected,Option.map_some]
    refine ⟨_,rfl,unfrozen,?_,fun id => ?_⟩
    · rw [List.map_append]
      rfl
    · simp only [attach,Function.update_apply]
      split_ifs <;> simp_all
  obtain ⟨n',isConnected,rest⟩ := succeeds
  exact ⟨n',isConnected,.connect built (by simp) isConnected,rest⟩

end

/-! ### Neighbours -/

/-- The node to which the link of a direction leads. -/
def nextNode (nodeCount : Nat) (dir : Nat) (i : Int) : Int :=
  if dir = 0 then (i + 1).tmod nodeCount else (i - 1 + nodeCount).tmod nodeCount

/-- The ids of the nodes of the ring. -/
def OnRing (nodeCount : Nat) (id : Int) : Prop := 0 ≤ id ∧ id < nodeCount

section
variable {nodeCount dir : Nat} {i j : Int}

theorem tmod_of_lt (pos : 0 ≤ i) (below : i < nodeCount) : i.tmod nodeCount = i := by
  rw [Int.tmod_eq_emod_of_nonneg pos]
  exact Int.emod_eq_of_lt pos below

theorem tmod_of_ge (atLeast : (nodeCount : Int) ≤ i) (below : i < nodeCount + nodeCount) : i.tmod nodeCount = i - nodeCount := by
  rw [Int.tmod_eq_emod_of_nonneg (by omega),Int.emod_eq_sub_self_emod]
  exact Int.emod_eq_of_lt (by omega) (by omega)

theorem nextNode_clockwise (onRing : OnRing nodeCount i) :
    i + 1 = nodeCount ∧ nextNode nodeCount 0 i = 0 ∨ i + 1 < nodeCount ∧ nextNode nodeCount 0 i = i + 1 := by
  obtain ⟨pos,below⟩ := onRing
  rw [nextNode,if_pos rfl]
  by_cases last : i + 1 = nodeCount
  · refine .inl ⟨last,?_⟩
    rw [tmod_of_ge (by omega) (by omega)]
    omega
  · exact .inr ⟨by omega,tmod_of_lt (by omega) (by omega)⟩

theorem nextNode_counter (onRing : OnRing nodeCount i) (counter : dir ≠ 0) :
    i = 0 ∧ nextNode nodeCount dir i = nodeCount - 1 ∨ 0 < i ∧ nextNode nodeCount dir i = i - 1 := by
  obtain ⟨pos,below⟩ := onRing
  rw [nextNode,if_neg counter]
  by_cases first : i = 0
  · refine .inl ⟨first,?_⟩
    rw [tmod_of_lt (by omega) (by omega)]
    omega
  · refine .inr ⟨by omega,?_⟩
    rw [tmod_of_ge (by omega) (by omega)]
    omega

theorem OnRing.next (onRing : OnRing nodeCount i) (dir : Nat) : OnRing nodeCount (nextNode nodeCount dir i) := by
  have ⟨pos,below⟩ := onRing
  by_cases clockwise : dir = 0
  · subst clockwise
    have next := nextNode_clockwise onRing
    exact ⟨by omega,by omega⟩
  · have next := nextNode_counter onRing clockwise
    exact ⟨by omega,by omega⟩

theorem nextNode_injective (first : OnRing nodeCount i) (second : OnRing nodeCount j)
    (same : nextNode nodeCount dir i = nextNode nodeCount dir j) : i = j := by
  have ⟨pos₁,below₁⟩ := first
  have ⟨pos₂,below₂⟩ := second
  by_cases clockwise : dir = 0
  · subst clockwise
    have next₁ := nextNode_clockwise first
    have next₂ := nextNode_clockwise second
    omega
  · have next₁ := nextNode_counter first clockwise
    have next₂ := nextNode_counter second clockwise
    omega

/-- Every node is the next of one. -/
theorem nextNode_surjective (dir : Nat) (onRing : OnRing nodeCount i) : ∃ j, OnRing nodeCount j ∧ nextNode nodeCount dir j = i := by
  have ⟨pos,below⟩ := onRing
  have clockwise := nextNode_clockwise onRing
  have counter := nextNode_counter onRing one_ne_zero
  by_cases isClockwise : dir = 0
  · subst isClockwise
    have back := nextNode_clockwise (onRing.next 1)
    exact ⟨nextNode nodeCount 1 i,onRing.next 1,by omega⟩
  · have back := nextNode_counter (onRing.next 0) isClockwise
    exact ⟨nextNode nodeCount 0 i,onRing.next 0,by omega⟩

end

/-! ### The ring -/

/-- The link of a direction from a node, by the queues that it connects. -/
def linkFrom (nodeCount : Nat) (i : Int) (dir : Nat) : (Int × Nat) × (Int × Nat) := ((i,dir),(nextNode nodeCount dir i,dir))

/-- The links from the first nodes. -/
def linksFrom (nodeCount : Nat) (nodes : Nat) : List ((Int × Nat) × (Int × Nat)) :=
  (List.range nodes).flatMap fun i : Nat => [linkFrom nodeCount i 0,linkFrom nodeCount i 1]

/-- A ring with some of its links. -/
structure Laid (nodeCount : Nat) (intn : Int → Nat → Fin nodeCount) (links : List ((Int × Nat) × (Int × Nat)))
    (net : Network RingCounts) : Prop where
  built : net.Built
  unfrozen : net.frozen = false
  nodes : ∀ id handle, net.nodes id = some handle → ∃ i < nodeCount, ∃ connected, id = (i : Int) ∧
    handle = { ringNode nodeCount intn i with node := { (ringNode nodeCount intn i).node with connected } }
  present : ∀ i < nodeCount, (net.nodes (i : Int)).isSome = true
  links : net.links.map ends = links

variable {nodeCount : Nat} {intn : Int → Nat → Fin nodeCount} {net : Network RingCounts}
  {links : List ((Int × Nat) × (Int × Nat))}

theorem isNew_ringNode (i : Nat) : (ringNode nodeCount intn i).IsNew := by
  refine ⟨⟨_,_,_,rfl⟩,fun iq member => ?_⟩
  obtain rfl := List.eq_of_mem_replicate member
  exact ⟨rfl,queueCapacity_pos⟩

/-- The nodes alone. -/
theorem laid_nodes : ∃ net, (List.range nodeCount).foldlM (addRingNode nodeCount intn) Network.new = pure net ∧
    Laid nodeCount intn [] net := by
  let P (k : Nat) (net : Network RingCounts) : Prop := net.Built ∧ net.frozen = false ∧ net.links = [] ∧
    ∀ id, net.nodes id = if 0 ≤ id ∧ id < k then some (ringNode nodeCount intn id.toNat) else none
  have begins : P 0 Network.new := ⟨.new,rfl,rfl,fun id => (if_neg (by omega)).symm⟩
  have step : ∀ k < nodeCount, ∀ net, P k net → ∃ net', addRingNode nodeCount intn net k = pure net' ∧ P (k + 1) net' := by
    rintro k inside net ⟨built,unfrozen,noLinks,nodes⟩
    have absent : net.nodes (ringNode nodeCount intn k).node.id = none := (nodes k).trans (if_neg (by omega))
    have added : net.addNode (ringNode nodeCount intn k) =
        some (.ok { net with nodes := Function.update net.nodes k (some (ringNode nodeCount intn k)) }) := by
      unfold Network.addNode
      rw [unfrozen]
      simp only [Bool.false_eq_true,↓reduceIte,absent]
      rfl
    refine ⟨_,congrArg (wrap _) added,.addNode built (isNew_ringNode k) added,unfrozen,noLinks,fun id => ?_⟩
    show Function.update net.nodes k _ id = _
    by_cases here : id = k
    · subst here
      rw [Function.update_self,if_pos (by omega)]
      rfl
    · rw [Function.update_of_ne here,nodes]
      exact if_congr (by omega) rfl rfl
  obtain ⟨net,done,built,unfrozen,noLinks,nodes⟩ := foldlM_range P begins nodeCount step
  refine ⟨net,done,built,unfrozen,fun id handle found => ?_,fun i inside => ?_,by rw [noLinks]; rfl⟩
  · rw [nodes] at found
    split_ifs at found with onRing
    obtain rfl := Option.some.inj found
    exact ⟨id.toNat,by omega,_,by omega,rfl⟩
  · rw [nodes,if_pos (by omega)]
    rfl

/-- One more link. -/
theorem Laid.connect (laid : Laid nodeCount intn links net) {i dir : Nat} (inside : i < nodeCount) (isQueue : dir < 2)
    (sourceFree : ∀ l ∈ links, l.1 ≠ ((i : Int),dir)) (targetFree : ∀ l ∈ links, l.2 ≠ (nextNode nodeCount dir i,dir)) :
    ∃ net', net.connect i dir (nextNode nodeCount dir i) dir linkLatency 1 none = some (.ok net') ∧
      Laid nodeCount intn (links ++ [linkFrom nodeCount i dir]) net' := by
  have onRing : OnRing nodeCount (i : Int) := ⟨by omega,by omega⟩
  have ⟨nextPos,nextBelow⟩ := onRing.next dir
  obtain ⟨k,isNext⟩ : ∃ k : Nat, nextNode nodeCount dir i = k := ⟨(nextNode nodeCount dir i).toNat,by omega⟩
  obtain ⟨sourceHandle,isSource⟩ := Option.isSome_iff_exists.mp (laid.present i inside)
  obtain ⟨targetHandle,isTarget⟩ := Option.isSome_iff_exists.mp (laid.present k (by omega))
  obtain ⟨_,_,_,_,sourceEq⟩ := laid.nodes _ _ isSource
  obtain ⟨_,_,_,_,targetEq⟩ := laid.nodes _ _ isTarget
  have outputs : sourceHandle.node.queues.outputs[dir]? = some (.newOutputQueue queueCapacity 1 Nat.one_pos) := by
    rw [sourceEq]
    exact List.getElem?_replicate_of_lt isQueue
  have inputs : targetHandle.node.queues.inputs[dir]? = some (.newInputQueue queueCapacity 1 queueCapacity_pos Nat.one_pos) := by
    rw [targetEq]
    exact List.getElem?_replicate_of_lt isQueue
  have isEnd : ∀ l ∈ net.links, ends l ∈ links := fun l member => laid.links ▸ List.mem_map_of_mem member
  obtain ⟨net',connected,built,unfrozen,ends',present⟩ := connect_succeeds linkLatency 1 laid.built laid.unfrozen isSource
    isTarget outputs inputs (fun l member => sourceFree _ (isEnd l member)) (fun l member => isNext ▸ targetFree _ (isEnd l member))
    ⟨by decide,one_pos⟩ (by decide)
  rw [← isNext] at connected ends'
  refine ⟨net',connected,built,unfrozen,fun id handle found => ?_,fun j below => (present j).trans (laid.present j below),?_⟩
  · obtain ⟨handle',connected',before,rfl⟩ := nodes_of_connect connected found
    obtain ⟨j,below,_,rfl,rfl⟩ := laid.nodes id handle' before
    exact ⟨j,below,_,rfl,rfl⟩
  · rw [ends',laid.links]
    rfl

/-- One more round of links. -/
theorem Laid.connectNeighbours {i : Nat} (laid : Laid nodeCount intn (linksFrom nodeCount i) net) (inside : i < nodeCount) :
    ∃ net', connectNeighbours nodeCount net i = pure net' ∧ Laid nodeCount intn (linksFrom nodeCount (i + 1)) net' := by
  have onRing : OnRing nodeCount (i : Int) := ⟨by omega,by omega⟩
  have earlier : ∀ l ∈ linksFrom nodeCount i, ∃ (j : Nat) (dir : Nat), j < i ∧ l = linkFrom nodeCount j dir := by
    intro l member
    obtain ⟨j,below,isLink⟩ := List.mem_flatMap.mp member
    rw [List.mem_range] at below
    rcases List.mem_pair.mp isLink with rfl | rfl
    · exact ⟨j,0,below,rfl⟩
    · exact ⟨j,1,below,rfl⟩
  have fresh : ∀ dir : Nat, ∀ l ∈ linksFrom nodeCount i, l.1 ≠ ((i : Int),dir) ∧ l.2 ≠ (nextNode nodeCount dir i,dir) := by
    intro dir l member
    obtain ⟨j,dir',below,rfl⟩ := earlier l member
    refine ⟨fun same => ?_,fun same => ?_⟩
    · have same : (j : Int) = i := congrArg Prod.fst same
      omega
    · obtain ⟨same,rfl⟩ := Prod.mk.inj same
      have same := nextNode_injective ⟨by omega,by omega⟩ onRing same
      omega
  obtain ⟨net₁,first,laid₁⟩ := laid.connect inside Nat.two_pos (fun l member => (fresh 0 l member).1)
    (fun l member => (fresh 0 l member).2)
  have fresh₁ : ∀ l ∈ linksFrom nodeCount i ++ [linkFrom nodeCount i 0], l.1 ≠ ((i : Int),1) ∧ l.2 ≠ (nextNode nodeCount 1 i,1) := by
    intro l member
    rcases List.mem_append.mp member with old | new
    · exact fresh 1 l old
    · obtain rfl := List.mem_singleton.mp new
      simp [linkFrom]
  obtain ⟨net₂,second,laid₂⟩ := laid₁.connect inside Nat.one_lt_two (fun l member => (fresh₁ l member).1)
    (fun l member => (fresh₁ l member).2)
  refine ⟨net₂,?_,?_⟩
  · unfold Loadbench.connectNeighbours
    dsimp only
    have clockwise : wrap s!"Connect CW {i}->{nextNode nodeCount 0 i}" (net.connect i 0 (nextNode nodeCount 0 i) 0 linkLatency 1 none) =
        pure net₁ := congrArg (wrap _) first
    have counter : wrap s!"Connect CCW {i}->{nextNode nodeCount 1 i}" (net₁.connect i 1 (nextNode nodeCount 1 i) 1 linkLatency 1 none) =
        pure net₂ := congrArg (wrap _) second
    simp only [nextNode,↓reduceIte,one_ne_zero] at clockwise counter
    rw [clockwise,pure_bind,counter]
  · rw [linksFrom,List.range_succ,List.flatMap_append,List.flatMap_singleton]
    rwa [List.append_assoc] at laid₂

/-- A ring with all its links: every queue is connected, and the links lead to the next nodes. -/
structure IsRing (nodeCount : Nat) (intn : Int → Nat → Fin nodeCount) (net : Network RingCounts) : Prop where
  built : net.Built
  present : ∀ id, (net.nodes id).isSome = true ↔ OnRing nodeCount id
  nodes : ∀ id handle, net.nodes id = some handle → handle.handler = processHook nodeCount id (intn id) ∧
    handle.node.queues = ringQueues ∧ handle.node.state = ⟨[],[]⟩ ∧
    ∀ dir < 2, handle.node.connected (.input dir) = true ∧ handle.node.connected (.output dir) = true
  links : net.links.map ends = linksFrom nodeCount nodeCount

theorem mem_linksFrom {i : Int} {dir : Nat} (onRing : OnRing nodeCount i) (isQueue : dir < 2) :
    linkFrom nodeCount i dir ∈ linksFrom nodeCount nodeCount := by
  obtain ⟨pos,below⟩ := onRing
  refine List.mem_flatMap.mpr ⟨i.toNat,List.mem_range.mpr (by omega),?_⟩
  rw [Int.toNat_of_nonneg pos]
  interval_cases dir
  · exact List.mem_cons_self
  · exact List.mem_cons_of_mem _ (List.mem_singleton_self _)

theorem exists_ring (nodeCount : Nat) (intn : Int → Nat → Fin nodeCount) :
    ∃ net, buildBidirectionalRing nodeCount intn = pure net ∧ IsRing nodeCount intn net := by
  obtain ⟨net₀,nodes,laid₀⟩ := @laid_nodes nodeCount intn
  have round : ∀ i < nodeCount, ∀ net, Laid nodeCount intn (linksFrom nodeCount i) net →
      ∃ net', connectNeighbours nodeCount net i = pure net' ∧ Laid nodeCount intn (linksFrom nodeCount (i + 1)) net' :=
    fun i inside net laid => laid.connectNeighbours inside
  obtain ⟨net,links,laid⟩ := foldlM_range (fun i net => Laid nodeCount intn (linksFrom nodeCount i) net) laid₀ nodeCount round
  refine ⟨net,?_,laid.built,fun id => ⟨fun isSome => ?_,fun onRing => ?_⟩,fun id handle found => ?_,laid.links⟩
  · rw [buildBidirectionalRing,nodes,pure_bind,links]
  · obtain ⟨handle,found⟩ := Option.isSome_iff_exists.mp isSome
    obtain ⟨i,inside,_,rfl,_⟩ := laid.nodes id handle found
    exact ⟨by omega,by omega⟩
  · obtain ⟨pos,below⟩ := onRing
    have isSome := laid.present id.toNat (by omega)
    rwa [Int.toNat_of_nonneg pos] at isSome
  · obtain ⟨i,inside,connected,rfl,same⟩ := laid.nodes id handle found
    have onRing : OnRing nodeCount (i : Int) := ⟨by omega,by omega⟩
    refine ⟨by rw [same]; rfl,by rw [same]; rfl,by rw [same]; rfl,fun dir isQueue => ?_⟩
    obtain ⟨g,prepared⟩ := laid.built.prepared
    have attached := prepared.sound.attached _ handle found
    have isLink : ∀ {j : Int}, OnRing nodeCount j → ∃ l ∈ net.links, ends l = linkFrom nodeCount j dir := fun {j} onRing =>
      List.mem_map.mp (laid.links ▸ mem_linksFrom onRing isQueue)
    constructor
    · obtain ⟨j,onRing',isNext⟩ := nextNode_surjective dir onRing
      obtain ⟨l,member,here⟩ := isLink onRing'
      refine (attached _).mpr (wired_iff.mpr ⟨l,member,.downstream,?_⟩)
      have target : l.target = ((i : Int),dir) := (congrArg Prod.snd here).trans (by rw [linkFrom,isNext])
      rw [Connection.portAt,target]
    · obtain ⟨l,member,here⟩ := isLink onRing
      refine (attached _).mpr (wired_iff.mpr ⟨l,member,.upstream,?_⟩)
      have source : l.source = ((i : Int),dir) := congrArg Prod.fst here
      rw [Connection.portAt,source]

/-- A ring can be built of any number of nodes: no step of the construction fails or panics, and
    exactly one link leads from each output queue to the input queue of the next node in its
    direction, and exactly one to each input queue. -/
theorem ring_built (nodeCount : Nat) (intn : Int → Nat → Fin nodeCount) : ∃ net, buildBidirectionalRing nodeCount intn = pure net ∧
    net.Built ∧ (∀ id, (net.nodes id).isSome = true ↔ OnRing nodeCount id) ∧ net.links.length = 2 * nodeCount ∧
    ∀ i dir, OnRing nodeCount i → dir < 2 →
      (∃! l, l ∈ net.links ∧ l.source = (i,dir)) ∧ (∃! l, l ∈ net.links ∧ l.target = (i,dir)) ∧
      ∀ l ∈ net.links, l.source = (i,dir) → l.target = (nextNode nodeCount dir i,dir) := by
  obtain ⟨net,built,isRing⟩ := exists_ring nodeCount intn
  obtain ⟨g,prepared⟩ := isRing.built.prepared
  have sources := List.inj_on_of_nodup_map prepared.sound.apart.sources
  have targets := List.inj_on_of_nodup_map prepared.sound.apart.targets
  refine ⟨net,built,isRing.built,isRing.present,?_,fun i dir onRing isQueue => ?_⟩
  · have length := congrArg List.length isRing.links
    rw [List.length_map] at length
    rw [length,linksFrom,List.length_flatMap]
    simp [Nat.mul_comm]
  · have isLink : ∀ {j : Int}, OnRing nodeCount j → ∃ l ∈ net.links, ends l = linkFrom nodeCount j dir := fun {j} onRing =>
      List.mem_map.mp (isRing.links ▸ mem_linksFrom onRing isQueue)
    obtain ⟨l,member,here⟩ := isLink onRing
    have source : l.source = (i,dir) := congrArg Prod.fst here
    refine ⟨⟨l,⟨member,source⟩,?_⟩,?_,?_⟩
    · rintro l' ⟨member',source'⟩
      exact sources member' member (source'.trans source.symm)
    · obtain ⟨j,onRing',isNext⟩ := nextNode_surjective dir onRing
      obtain ⟨l,member,here⟩ := isLink onRing'
      have target : l.target = (i,dir) := (congrArg Prod.snd here).trans (by rw [linkFrom,isNext])
      refine ⟨l,⟨member,target⟩,?_⟩
      rintro l' ⟨member',target'⟩
      exact targets member' member (target'.trans target.symm)
    · intro l' member' source'
      obtain rfl := sources member' member (source'.trans source.symm)
      exact congrArg Prod.snd here

end FlowSim.Loadbench
