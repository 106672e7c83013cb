import FlowSim.MemSystem.SystemBuilder

/-!
Where the packets on the ring can leave it. A router ejects what has its worker's id as
its target, and the third-level caches and memory controllers are told the ids of routers
for their targets, so that no router of the ring ever ejects what they send
(`ring_packets_have_no_exit`).
-/
namespace FlowSim.MemSystem
open FlowSim.Lib FlowSim.Node FlowSim.Cache FlowSim.Queue
set_option linter.unusedSimpArgs false

/-! ### What a handler sends -/

section
variable {σ : Type}

/-- A state that the handler may be in later, whatever packets it is given and whatever its
    queues answer. -/
def Later (process : Handler σ) : σ → σ → Prop :=
  Relation.ReflTransGen fun h h' => ∃ cycle inputs error, (process cycle h inputs).Returns (error,h')

/-- In some later cycle the handler injects a batch with the packet into the output queue. -/
def Sends (process : Handler σ) (output : Nat) (h : σ) (pkt : Packet) : Prop :=
  ∃ h' cycle inputs batchCycle pkts, Later process h h' ∧
    (process cycle h' inputs).Issues (.injectPackets output batchCycle pkts) ∧ pkt ∈ pkts

/-- Every batch for the output queue has packets with this target only. -/
def Aimed (output : Nat) (target : Int) : NodeOp → Prop
  | .injectPackets k _ pkts => k = output → ∀ pkt ∈ pkts, pkt.targetID = target
  | _ => True

theorem Later.keeps {process : Handler σ} {allowed : NodeOp → Prop} {I : σ → Prop}
    (keeps : ∀ cycle h inputs, I h → Keeps (allowing allowed) (process cycle h inputs) (fun _ result => I result.2) ())
    {h h' : σ} (later : Later process h h') (now : I h) : I h' := by
  induction later with
  | refl => exact now
  | tail _ step ih =>
    obtain ⟨cycle,inputs,error,returned⟩ := step
    exact (keeps cycle _ inputs ih).returns returned

/-- A handler that keeps what it needs of its state, and then only sends packets with this
    target, sends no others. -/
theorem Sends.target {process : Handler σ} {output : Nat} {target : Int} {I : σ → Prop}
    (keeps : ∀ cycle h inputs, I h → Keeps (allowing (Aimed output target)) (process cycle h inputs) (fun _ result => I result.2) ())
    {h : σ} (now : I h) {pkt : Packet} (sends : Sends process output h pkt) : pkt.targetID = target := by
  obtain ⟨h',cycle,inputs,batchCycle,pkts,later,issued,member⟩ := sends
  exact (keeps cycle h' inputs (later.keeps keeps now)).issues issued rfl pkt member

variable {handle : σ → Packet → Prog nodeInterface (Option String × σ)} {output : Nat} {target : Int} {I : σ → Prop}

theorem keeps_handleInputs
    (step : ∀ h pkt, I h → Keeps (allowing (Aimed output target)) (handle h pkt) (fun _ result => I result.2) ()) :
    ∀ (refs : List PacketRef) (h : σ), I h →
      Keeps (allowing (Aimed output target)) (handleInputs handle h refs) (fun _ result => I result.2) ()
  | [], h, now => now
  | ref :: refs, h, now => by
    refine (step h ref.packet now).bind ?_
    rintro ⟨⟩ ⟨error,h'⟩ still
    cases error with
    | some err => exact still
    | none => exact ⟨trivial,fun _ _ => keeps_handleInputs step refs h' still⟩

theorem keeps_handleQueues {handle : Nat → σ → Packet → Prog nodeInterface (Option String × σ)}
    (step : ∀ i h pkt, I h → Keeps (allowing (Aimed output target)) (handle i h pkt) (fun _ result => I result.2) ()) :
    ∀ (inputs : List (List PacketRef)) (i : Nat) (h : σ), I h →
      Keeps (allowing (Aimed output target)) (handleQueues handle i h inputs) (fun _ result => I result.2) ()
  | [], _, h, now => now
  | refs :: inputs, i, h, now => by
    refine (keeps_handleInputs (step i) refs h now).bind ?_
    rintro ⟨⟩ ⟨error,h'⟩ still
    cases error with
    | some err => exact still
    | none => exact keeps_handleQueues step inputs (i + 1) h' still

end

/-! ### The shared cache -/

namespace L2CacheNodeHandler
variable {numCPUs : Nat} {memCtrlID : Int}

/-- The handler serves so many nodes, and misses go to this node. -/
def Serves (numCPUs : Nat) (memCtrlID : Int) (h : L2CacheNodeHandler) : Prop :=
  h.cpuNodeIDs.length = numCPUs ∧ h.memCtrlID = memCtrlID

theorem keeps_sendResponseToCPU {h : L2CacheNodeHandler} (serves : h.Serves numCPUs memCtrlID) (cycle cpuIndex : Nat)
    (address data instrID : UInt64) : Keeps (allowing (Aimed numCPUs memCtrlID))
      (h.sendResponseToCPU cycle cpuIndex address data instrID) (fun _ result => result.2.Serves numCPUs memCtrlID) () := by
  unfold sendResponseToCPU
  split_ifs with inside
  · refine ⟨fun same => ?_,fun _ _ => serves⟩
    rw [serves.1,same] at inside
    exact absurd inside (lt_irrefl _)
  · exact serves

theorem keeps_handleMemoryResponse {h : L2CacheNodeHandler} (serves : h.Serves numCPUs memCtrlID) (cycle : Nat)
    (pkt : Packet) : Keeps (allowing (Aimed numCPUs memCtrlID)) (handleMemoryResponse cycle h pkt)
      (fun _ result => result.2.Serves numCPUs memCtrlID) () := by
  unfold handleMemoryResponse
  split_ifs with type
  · exact serves
  · refine keeps_sendResponseToCPU ?_ ..
    exact serves

theorem keeps_handleCPURequest {h : L2CacheNodeHandler} (serves : h.Serves numCPUs memCtrlID) (cycle cpuIndex : Nat)
    (pkt : Packet) : Keeps (allowing (Aimed numCPUs memCtrlID)) (handleCPURequest cycle cpuIndex h pkt)
      (fun _ result => result.2.Serves numCPUs memCtrlID) () := by
  unfold handleCPURequest
  by_cases type : pkt.type ≠ packetTypeMemoryRequest
  · rw [if_pos type]
    exact serves
  · rw [if_neg type]
    dsimp only
    generalize h.l2Cache.access .. = made
    by_cases hit : made.1.hit = true
    · rw [if_pos hit]
      refine keeps_sendResponseToCPU ?_ ..
      exact serves
    · rw [if_neg hit]
      refine ⟨fun _ pkt' member => ?_,fun _ _ => serves⟩
      rw [List.mem_singleton.mp member]
      exact serves.2

/-- What is sent to memory has the node for misses as its target. -/
theorem keeps_process (cycle : Nat) (h : L2CacheNodeHandler) (inputs : List (List PacketRef))
    (serves : h.Serves numCPUs memCtrlID) : Keeps (allowing (Aimed numCPUs memCtrlID)) (process cycle h inputs)
      (fun _ result => result.2.Serves numCPUs memCtrlID) () := by
  refine (keeps_handleInputs (I := Serves numCPUs memCtrlID) (fun h pkt now => keeps_handleMemoryResponse now cycle pkt) _ h serves).bind ?_
  rintro ⟨⟩ ⟨error,h'⟩ still
  cases error with
  | some err => exact still
  | none => exact keeps_handleQueues (I := Serves numCPUs memCtrlID) (fun i h pkt now => keeps_handleCPURequest now cycle i pkt) _ 0 h' still

end L2CacheNodeHandler

/-! ### The memory controller -/

namespace MemoryControllerHandler
variable {upstreamID : Int}

theorem keeps_handleDRAMResponse {h : MemoryControllerHandler} (above : h.upstreamNodeIDs = [upstreamID]) (cycle : Nat)
    (pkt : Packet) : Keeps (allowing (Aimed 0 upstreamID)) (handleDRAMResponse cycle h pkt)
      (fun _ result => result.2.upstreamNodeIDs = [upstreamID]) () := by
  unfold handleDRAMResponse
  split_ifs with type
  · exact above
  · dsimp only
    split_ifs with inside
    · refine ⟨?_,fun _ _ => above⟩
      intro same pkt' member
      rw [List.mem_singleton.mp member,same]
      simp only [responseTo,newMemoryResponsePacket,above,List.getD_cons_zero]
    · exact above

theorem keeps_handleUpstreamRequest {h : MemoryControllerHandler} (above : h.upstreamNodeIDs = [upstreamID]) (cycle : Nat)
    (pkt : Packet) : Keeps (allowing (Aimed 0 upstreamID)) (handleUpstreamRequest cycle h pkt)
      (fun _ result => result.2.upstreamNodeIDs = [upstreamID]) () := by
  unfold handleUpstreamRequest
  split_ifs with type
  · exact above
  · cases h.selectChannel pkt.addr with
    | none => exact above
    | some channelIndex =>
      refine ⟨fun same => ?_,fun _ _ => above⟩
      rw [above,List.length_singleton] at same
      omega

/-- A controller with one node above it sends everything to that node. -/
theorem keeps_process (cycle : Nat) (h : MemoryControllerHandler) (inputs : List (List PacketRef))
    (above : h.upstreamNodeIDs = [upstreamID]) : Keeps (allowing (Aimed 0 upstreamID)) (process cycle h inputs)
      (fun _ result => result.2.upstreamNodeIDs = [upstreamID]) () := by
  refine (keeps_handleQueues (I := fun h => h.upstreamNodeIDs = [upstreamID]) (fun _ h pkt now => keeps_handleDRAMResponse now cycle pkt) _ _ h above).bind ?_
  rintro ⟨⟩ ⟨error,h'⟩ still
  cases error with
  | some err => exact still
  | none => exact keeps_handleQueues (I := fun h => h.upstreamNodeIDs = [upstreamID]) (fun _ h pkt now => keeps_handleUpstreamRequest now cycle pkt) _ 0 h' still

end MemoryControllerHandler

/-! ### The router -/

namespace Router
variable {w : Int}

theorem keeps_sortRing (r : BufferlessRingRouterNode) (here : r.workerID = w) (localOutFull : Bool) :
    ∀ (refs : List PacketRef) (forward eject : List Packet), (∀ pkt ∈ eject, pkt.targetID = w) →
      Keeps (allowing (Aimed 1 w)) (r.sortRing localOutFull refs forward eject)
        (fun _ sorted => ∀ pkt ∈ sorted.2, pkt.targetID = w) ()
  | [], _, _, aimed => aimed
  | ref :: refs, forward, eject, aimed => by
    unfold BufferlessRingRouterNode.sortRing
    dsimp only
    split_ifs with ejected
    · refine ⟨trivial,fun _ _ => keeps_sortRing r here localOutFull refs _ _ ?_⟩
      intro pkt member
      rcases List.mem_append.mp member with member | member
      · exact aimed pkt member
      · rw [List.mem_singleton.mp member,ejected.1,here]
    · exact ⟨trivial,fun _ _ => keeps_sortRing r here localOutFull refs _ _ aimed⟩

theorem keeps_takeLocal (ringOutFull : Bool) : ∀ (refs : List PacketRef) (r : BufferlessRingRouterNode) (inject : List Packet),
    r.workerID = w → Keeps (allowing (Aimed 1 w)) (BufferlessRingRouterNode.takeLocal ringOutFull refs r inject)
      (fun _ taken => taken.1.workerID = w) ()
  | [], _, _, here => here
  | ref :: refs, r, inject, here => by
    unfold BufferlessRingRouterNode.takeLocal
    dsimp only
    split_ifs with opened room
    · exact ⟨trivial,fun _ _ => keeps_takeLocal ringOutFull refs r _ here⟩
    · exact ⟨trivial,fun _ _ => keeps_takeLocal ringOutFull refs (r.enqueue ref.packet room) _ here⟩
    · exact keeps_takeLocal ringOutFull refs r _ here

theorem keeps_injectBatches (cycle : Nat) {eject : List Packet} (forward inject : List Packet)
    (aimed : ∀ pkt ∈ eject, pkt.targetID = w) : Keeps (allowing (Aimed 1 w))
      (BufferlessRingRouterNode.injectBatches cycle eject forward inject) (fun _ _ => True) () := by
  unfold BufferlessRingRouterNode.injectBatches
  have other : Aimed 1 w (.injectPackets 0 cycle (forward ++ inject)) := fun same => absurd same (by decide)
  split_ifs
  · exact ⟨fun _ => aimed,fun _ _ => ⟨other,fun _ _ => trivial⟩⟩
  · exact ⟨other,fun _ _ => trivial⟩
  · exact ⟨fun _ => aimed,fun _ _ => trivial⟩
  · trivial

/-- What is ejected has the worker's id as its target. -/
theorem keeps_process (cycle : Nat) (r : BufferlessRingRouterNode) (inputs : List (List PacketRef)) (here : r.workerID = w) :
    Keeps (allowing (Aimed 1 w)) (BufferlessRingRouterNode.process cycle r inputs) (fun _ result => result.2.workerID = w) () := by
  refine ⟨trivial,fun qs _ => ?_⟩
  simp only [Prog.bind]
  split
  · refine (keeps_sortRing r here _ _ [] [] (fun _ member => absurd member List.not_mem_nil)).bind ?_
    rintro ⟨⟩ ⟨forward,eject⟩ aimed
    have emptied : ∀ full : Bool, (if full = false then BufferlessRingRouterNode.takeBuffered r.count r [] else (r,[])).1.workerID = w := by
      intro full
      cases full with
      | false => exact (BufferlessRingRouterNode.takeBuffered_spec r.count r [] rfl).2.2.trans here
      | true => exact here
    refine (keeps_takeLocal _ _ _ _ (emptied _)).bind ?_
    rintro ⟨⟩ ⟨r',inject⟩ still
    refine (keeps_injectBatches cycle forward inject aimed).bind ?_
    rintro ⟨⟩ _ _
    exact still
  · exact here

end Router

/-! ### Packets on the ring -/

/-- The first request to a new cache goes to memory. -/
theorem L2CacheNodeHandler.sends_first {config : CacheConfig} {l2Cache : SetAssociativeCache}
    (made : SetAssociativeCache.newSetAssociativeCache config = .ok l2Cache) (nodeID memCtrlID cpuNodeID : Int) (others : List Int)
    (pkt : Packet) (type : pkt.type = packetTypeMemoryRequest) :
    let h := newL2CacheNodeHandler nodeID (cpuNodeID :: others) memCtrlID l2Cache
    Sends process h.cpuNodeIDs.length h (h.requestToMemory pkt) := by
  intro h
  refine ⟨h,0,[[⟨pkt,0,0⟩]],0,[h.requestToMemory pkt],.refl,?_,List.mem_singleton_self _⟩
  have missed : ¬ (h.l2Cache.access pkt.addr pkt.vAddr pkt.instrID.toNat (if pkt.op = opWrite then .store else .load) 0).1.hit =
      true := by
    rw [show h.l2Cache = l2Cache from rfl,SetAssociativeCache.hit_new made]
    decide
  have requested : ∃ h' : L2CacheNodeHandler, handleCPURequest 0 0 h pkt = sendRequestToMemory h' 0 pkt ∧
      h'.cpuNodeIDs = h.cpuNodeIDs ∧ h'.requestToMemory pkt = h.requestToMemory pkt := by
    unfold handleCPURequest
    rw [if_neg (not_not.mpr type)]
    dsimp only
    rw [if_neg missed]
    exact ⟨_,rfl,rfl,rfl⟩
  obtain ⟨h',sent,same,request⟩ := requested
  have nothing : [[(⟨pkt,0,0⟩ : PacketRef)]].getD h.cpuNodeIDs.length [] = [] := by
    simp [h,newL2CacheNodeHandler]
  have visited : [[(⟨pkt,0,0⟩ : PacketRef)]].take h.cpuNodeIDs.length = [[⟨pkt,0,0⟩]] := by
    simp [h,newL2CacheNodeHandler]
  unfold process
  rw [nothing]
  simp only [handleInputs,visited,handleQueues,sent,sendRequestToMemory,Prog.pure_eq,Prog.done_bind]
  rw [same,request]
  exact .inl rfl

/-- A response from its DRAM channel goes to the node above. -/
theorem MemoryControllerHandler.sends_first (nodeID upstreamID dramID : Int) (strategy : AddressMappingStrategy) (pkt : Packet)
    (type : pkt.type = packetTypeMemoryResponse) :
    let h := newMemoryControllerHandler nodeID [upstreamID] [dramID] strategy
    Sends process 0 h (h.responseTo 0 0 pkt) := by
  intro h
  refine ⟨h,0,[[],[⟨pkt,0,1⟩]],0,[h.responseTo 0 0 pkt],.refl,?_,List.mem_singleton_self _⟩
  have first : h.upstreamIndex pkt.targetID = 0 := by
    by_cases same : upstreamID = pkt.targetID
    · simp [h,upstreamIndex,newMemoryControllerHandler,List.findIdx?_cons,same]
    · simp [h,upstreamIndex,newMemoryControllerHandler,List.findIdx?_cons,same]
  have answered : handleDRAMResponse 0 h pkt = (do
      let _ ← injectPackets 0 0 [h.responseTo 0 0 pkt]
      return (none,h)) := by
    unfold handleDRAMResponse
    rw [if_neg (not_not.mpr type)]
    dsimp only
    rw [first]
    rfl
  have visited : ([[],[(⟨pkt,0,1⟩ : PacketRef)]].drop h.upstreamNodeIDs.length).take h.dramChannelIDs.length = [[⟨pkt,0,1⟩]] := rfl
  unfold process
  simp only [visited,handleInputs,handleQueues,answered,Prog.pure_eq,Prog.done_bind]
  exact .inl rfl

namespace ChampSimSystem

/-- What a third-level cache or a memory controller puts on the ring: the first sends on its
    last output queue, the second on its first one. -/
def OnRing (sys : ChampSimSystem) (pkt : Packet) : Prop :=
  (∃ l3 ∈ sys.l3s, Sends L2CacheNodeHandler.process l2sPerL3 l3.handler pkt) ∨
  ∃ mc ∈ sys.memCtrls, Sends MemoryControllerHandler.process 0 mc.handler pkt

end ChampSimSystem

section
variable {openTrace : Nat → Except String (Nat → Option Cpu.TraceInstr)} {packets : Dram.PacketRef → Dram.DRAMPacket}
  {numCPUs : Int} {sys : ChampSimSystem}

theorem Built.l3 {n : Nat} (built : Built openTrace packets n sys) {l3 : NodeHandle L2CacheNodeHandler} (member : l3 ∈ sys.l3s) :
    ∃ i l3WorkerID myL2NodeIDs l3Cache, SetAssociativeCache.newSetAssociativeCache l3Config = .ok l3Cache ∧
      myL2NodeIDs.length = l2sPerL3 ∧
      l3.handler = .newL2CacheNodeHandler l3WorkerID myL2NodeIDs ((200 + i * 2 : Nat) : Int) l3Cache := by
  obtain ⟨i,_,made⟩ := mem_of_mapM_ok built.l3s l3 member
  simp only [buildL3,bind_ok_iff] at made
  obtain ⟨l3Cache,cacheMade,same⟩ := made
  rw [← Except.ok.inj same]
  exact ⟨i,_,_,l3Cache,cacheMade,by rw [List.length_map,List.length_range],rfl⟩

theorem Built.memCtrl {n : Nat} (built : Built openTrace packets n sys) {mc : NodeHandle MemoryControllerHandler}
    (member : mc ∈ sys.memCtrls) : ∃ i nodeID dramID,
      mc.handler = .newMemoryControllerHandler nodeID [((200 + i * 2 + 1 : Nat) : Int)] [dramID] .mappingInterleaved := by
  rw [built.memCtrls] at member
  obtain ⟨i,_,rfl⟩ := List.mem_map.mp member
  exact ⟨i,_,_,rfl⟩

/-- The workers on the ring have small ids. -/
theorem Built.workerID_lt {n : Nat} (built : Built openTrace packets n sys) {router : NodeHandle BufferlessRingRouterNode}
    (member : router ∈ sys.ringRouters) : router.handler.workerID < 200 := by
  rw [built.ringRouters] at member
  obtain ⟨i,inside,rfl⟩ := List.mem_map.mp member
  have small := built.size.1
  have within : i < 16 := List.mem_range.mp inside
  have worker : (buildRouter n (n / cpusPerL2) i).handler.workerID = (routerWorkerID n (n / cpusPerL2) i : Nat) := rfl
  rw [worker]
  unfold routerWorkerID cpusPerL2 numL3s
  split_ifs <;> omega

/-- What is on the ring has the id of a router as its target. -/
theorem Built.target_ge {n : Nat} (built : Built openTrace packets n sys) {pkt : Packet} (onRing : sys.OnRing pkt) :
    200 ≤ pkt.targetID := by
  rcases onRing with ⟨l3,member,sends⟩ | ⟨mc,member,sends⟩
  · obtain ⟨i,_,_,_,_,four,handler⟩ := built.l3 member
    have serves : l3.handler.Serves l2sPerL3 ((200 + i * 2 : Nat) : Int) := by
      rw [handler]
      exact ⟨four,rfl⟩
    have target := sends.target L2CacheNodeHandler.keeps_process serves
    omega
  · obtain ⟨i,_,_,handler⟩ := built.memCtrl member
    have above : mc.handler.upstreamNodeIDs = [((200 + i * 2 + 1 : Nat) : Int)] := by
      rw [handler]
      rfl
    have target := sends.target MemoryControllerHandler.keeps_process above
    omega

theorem Built.l3_sends {n : Nat} (built : Built openTrace packets n sys) {l3 : NodeHandle L2CacheNodeHandler} (member : l3 ∈ sys.l3s) :
    ∃ pkt, Sends L2CacheNodeHandler.process l2sPerL3 l3.handler pkt := by
  obtain ⟨i,l3WorkerID,myL2NodeIDs,l3Cache,cacheMade,four,handler⟩ := built.l3 member
  cases myL2NodeIDs with
  | nil => exact absurd four (by decide)
  | cons first others =>
    have sends := L2CacheNodeHandler.sends_first cacheMade l3WorkerID ((200 + i * 2 : Nat) : Int) first others
      (newMemoryRequestPacket 0 0 0 0 0 false 0) rfl
    rw [handler,← four]
    exact ⟨_,sends⟩

theorem Built.memCtrl_sends {n : Nat} (built : Built openTrace packets n sys) {mc : NodeHandle MemoryControllerHandler}
    (member : mc ∈ sys.memCtrls) : ∃ pkt, Sends MemoryControllerHandler.process 0 mc.handler pkt := by
  obtain ⟨i,_,_,handler⟩ := built.memCtrl member
  rw [handler]
  exact ⟨_,MemoryControllerHandler.sends_first _ _ _ _ (newMemoryResponsePacket 0 0 0 0 0 0) rfl⟩

/-- For every number of cores for which the system is built, third-level caches and memory
    controllers put packets on the ring, and none of these has the id of a router's worker as
    its target: no router ever ejects it. -/
theorem ring_packets_have_no_exit (built : buildChampSimSystem openTrace packets numCPUs = .ok sys) :
    (∀ pkt, sys.OnRing pkt → ∀ router ∈ sys.ringRouters,
      pkt.targetID ≠ router.handler.workerID ∧ ¬ Sends BufferlessRingRouterNode.process 1 router.handler pkt) ∧
    (sys.l3s.length = 8 ∧ ∀ l3 ∈ sys.l3s, ∃ pkt, Sends L2CacheNodeHandler.process l2sPerL3 l3.handler pkt) ∧
    (sys.memCtrls.length = 8 ∧ ∀ mc ∈ sys.memCtrls, ∃ pkt, Sends MemoryControllerHandler.process 0 mc.handler pkt) := by
  obtain ⟨_,built⟩ := build_ok_iff.mp built
  refine ⟨?_,⟨built.length_l3s,fun l3 => built.l3_sends⟩,⟨by rw [built.memCtrls]; rfl,fun mc => built.memCtrl_sends⟩⟩
  intro pkt onRing router member
  have high := built.target_ge onRing
  have low := built.workerID_lt member
  refine ⟨by omega,?_⟩
  intro ejected
  have target := ejected.target Router.keeps_process rfl
  omega

end

/-- Traces without instructions. -/
def emptyTraces : Nat → Except String (Nat → Option Cpu.TraceInstr) := fun _ => .ok fun _ => none

def blankPackets : Dram.PacketRef → Dram.DRAMPacket := fun _ => ⟨0,0,false,false,0,false⟩

theorem ring_packets_have_no_exit_of_two : ∃ sys, buildChampSimSystem emptyTraces blankPackets 2 = .ok sys ∧
    ∀ pkt, sys.OnRing pkt → ∀ router ∈ sys.ringRouters,
      pkt.targetID ≠ router.handler.workerID ∧ ¬ Sends BufferlessRingRouterNode.process 1 router.handler pkt := by
  obtain ⟨sys,built⟩ := (@build_succeeds_iff emptyTraces blankPackets 2).mpr
    ⟨by decide,by decide,by decide,fun _ _ => ⟨_,rfl⟩⟩
  exact ⟨sys,built,(ring_packets_have_no_exit built).1⟩

/-- With 64 cores, the packets that the first third-level cache puts on the ring are for
    no worker of the ring. -/
theorem ring_packet_without_exit : ∃ sys, buildChampSimSystem emptyTraces blankPackets 64 = .ok sys ∧
    ¬ ∀ pkt, sys.OnRing pkt → ∃ router ∈ sys.ringRouters, pkt.targetID = router.handler.workerID := by
  obtain ⟨sys,succeeded⟩ := (@build_succeeds_iff emptyTraces blankPackets 64).mpr
    ⟨by decide,by decide,by decide,fun _ _ => ⟨_,rfl⟩⟩
  obtain ⟨_,built⟩ := build_ok_iff.mp succeeded
  refine ⟨sys,succeeded,?_⟩
  intro exits
  have some_l3 : 0 < sys.l3s.length := by
    rw [built.length_l3s]
    decide
  obtain ⟨pkt,sends⟩ := built.l3_sends (List.getElem_mem some_l3)
  have onRing : sys.OnRing pkt := .inl ⟨_,List.getElem_mem some_l3,sends⟩
  obtain ⟨router,member,same⟩ := exits pkt onRing
  have high := built.target_ge onRing
  have low := built.workerID_lt member
  omega

end FlowSim.MemSystem
