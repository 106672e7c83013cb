import FlowSim.MemSystem.Answers
import FlowSim.Dram.Contents

/-!
What each handler of the memory system takes, and what it answers. Shared caches and
memory controllers answer every packet they take at once; cores and DRAM channels take
packets in, and send what is pending in one batch.
-/
namespace FlowSim.MemSystem
open FlowSim.Lib FlowSim.Node FlowSim.Queue FlowSim.Cache
set_option linter.unusedSimpArgs false

/-! ### The shared cache -/

namespace L2CacheNodeHandler

def cpuAnswered (h : L2CacheNodeHandler) (cycle cpuIndex : Nat) (address data instrID : UInt64) :
    Except String (Option (Nat × Packet)) × L2CacheNodeHandler :=
  if cpuIndex < h.cpuNodeIDs.length then (.ok (some (cpuIndex,h.responseTo cycle cpuIndex address data instrID)),h)
  else (.error indexOutOfRange,h)

/-- What a memory response comes to. -/
def memoryAnswer (cycle : Nat) : Answer L2CacheNodeHandler := fun h pkt =>
  if pkt.type ≠ packetTypeMemoryResponse then (.error (invalidType "invalid response type for L2: " pkt),h)
  else cpuAnswered { h with l2Cache := h.l2Cache.handleFill pkt.addr cycle } cycle 0 pkt.addr pkt.data pkt.instrID

/-- What a core's request comes to. -/
def cpuAnswer (cycle cpuIndex : Nat) : Answer L2CacheNodeHandler := fun h pkt =>
  if pkt.type ≠ packetTypeMemoryRequest then (.error (invalidType "invalid packet type for L2: " pkt),h)
  else
    let accessType := if pkt.op = opWrite then .store else .load
    let (accessed,_,l2Cache) := h.l2Cache.access pkt.addr pkt.vAddr pkt.instrID.toNat accessType cycle
    let h := { h with l2Cache }
    if accessed.hit then
      let type : CoherenceMessageType := if pkt.op = opWrite then .write else .read
      let (_,mesiController) := h.mesiController.handleRequest { type, address := pkt.addr, requestorID := cpuIndex }
      cpuAnswered { h with mesiController } cycle cpuIndex pkt.addr pkt.data pkt.instrID
    else (.ok (some (h.cpuNodeIDs.length,h.requestToMemory pkt)),h)

/-- The packets that the handler takes in a cycle. -/
def takes (cycle : Nat) (h : L2CacheNodeHandler) (inputs : List (List PacketRef)) : Taking L2CacheNodeHandler :=
  (takeInputs (memoryAnswer cycle) h (inputs.getD h.cpuNodeIDs.length [])).andThen fun h =>
    takeQueues (cpuAnswer cycle) 0 h (inputs.take h.cpuNodeIDs.length)

theorem runOn_sendResponseToCPU (h : L2CacheNodeHandler) (cycle cpuIndex : Nat) (address data instrID : UInt64) (qs : Queues) :
    runOn (h.sendResponseToCPU cycle cpuIndex address data instrID) qs =
      outcome cycle qs (h.cpuAnswered cycle cpuIndex address data instrID) := by
  unfold sendResponseToCPU cpuAnswered
  split_ifs
  · rfl
  · rfl

theorem answers_handleMemoryResponse (cycle : Nat) : Answers cycle (handleMemoryResponse cycle) (memoryAnswer cycle) := by
  intro h pkt qs
  unfold handleMemoryResponse memoryAnswer
  split_ifs with type
  · rfl
  · exact runOn_sendResponseToCPU ..

theorem answers_handleCPURequest (cycle cpuIndex : Nat) :
    Answers cycle (handleCPURequest cycle cpuIndex) (cpuAnswer cycle cpuIndex) := by
  intro h pkt qs
  unfold handleCPURequest cpuAnswer
  by_cases type : pkt.type ≠ packetTypeMemoryRequest
  · rw [if_pos type,if_pos type]
    rfl
  · rw [if_neg type,if_neg type]
    dsimp only
    generalize h.l2Cache.access .. = made
    by_cases hit : made.1.hit = true
    · rw [if_pos hit,if_pos hit]
      exact runOn_sendResponseToCPU ..
    · rw [if_neg hit,if_neg hit]
      rfl

/-- What a cycle of the handler does. -/
theorem runOn_process (cycle : Nat) (h : L2CacheNodeHandler) (inputs : List (List PacketRef)) (qs : Queues) :
    runOn (process cycle h inputs) qs =
      (((h.takes cycle inputs).error,(h.takes cycle inputs).state),settle cycle qs (h.takes cycle inputs).taken) :=
  runOn_andThen (runOn_handleInputs (answers_handleMemoryResponse cycle) (inputs.getD h.cpuNodeIDs.length []) h qs)
    fun h qs => runOn_handleQueues (answers_handleCPURequest cycle) (inputs.take h.cpuNodeIDs.length) 0 h qs

theorem cpuAnswered_spec {h : L2CacheNodeHandler} {cycle cpuIndex : Nat} {address data instrID : UInt64} :
    (h.cpuAnswered cycle cpuIndex address data instrID).2 = h ∧
    ∀ {sent}, (h.cpuAnswered cycle cpuIndex address data instrID).1 = .ok sent →
      cpuIndex < h.cpuNodeIDs.length ∧ ∃ p, sent = some (cpuIndex,p) := by
  unfold cpuAnswered
  by_cases inside : cpuIndex < h.cpuNodeIDs.length
  · rw [if_pos inside]
    refine ⟨rfl,?_⟩
    rintro sent ⟨⟩
    exact ⟨inside,_,rfl⟩
  · rw [if_neg inside]
    exact ⟨rfl,fun answered => nomatch answered⟩

/-- A memory response is passed on to the first core. -/
theorem memoryAnswer_spec (cycle : Nat) (h : L2CacheNodeHandler) (pkt : Packet) :
    (memoryAnswer cycle h pkt).2.cpuNodeIDs = h.cpuNodeIDs ∧
    ∀ {sent}, (memoryAnswer cycle h pkt).1 = .ok sent → 0 < h.cpuNodeIDs.length ∧ ∃ p, sent = some (0,p) := by
  unfold memoryAnswer
  by_cases type : pkt.type ≠ packetTypeMemoryResponse
  · rw [if_pos type]
    exact ⟨rfl,fun answered => nomatch answered⟩
  · rw [if_neg type]
    exact ⟨congrArg (·.cpuNodeIDs) cpuAnswered_spec.1,cpuAnswered_spec.2⟩

/-- A core's request is answered to that core, or goes to memory. -/
theorem cpuAnswer_spec (cycle cpuIndex : Nat) (h : L2CacheNodeHandler) (pkt : Packet) :
    (cpuAnswer cycle cpuIndex h pkt).2.cpuNodeIDs = h.cpuNodeIDs ∧
    ∀ {sent}, (cpuAnswer cycle cpuIndex h pkt).1 = .ok sent →
      ∃ p, sent = some (cpuIndex,p) ∨ sent = some (h.cpuNodeIDs.length,p) := by
  unfold cpuAnswer
  by_cases type : pkt.type ≠ packetTypeMemoryRequest
  · rw [if_pos type]
    exact ⟨rfl,fun answered => nomatch answered⟩
  · rw [if_neg type]
    dsimp only
    generalize h.l2Cache.access .. = made
    by_cases hit : made.1.hit = true
    · rw [if_pos hit]
      refine ⟨congrArg (·.cpuNodeIDs) cpuAnswered_spec.1,?_⟩
      intro sent answered
      obtain ⟨_,p,sent⟩ := cpuAnswered_spec.2 answered
      exact ⟨p,.inl sent⟩
    · rw [if_neg hit]
      refine ⟨rfl,?_⟩
      rintro sent ⟨⟩
      exact ⟨_,.inr rfl⟩

/-- From which queue the handler takes a packet, and to which it answers. -/
theorem takes_spec (cycle : Nat) (h : L2CacheNodeHandler) (inputs : List (List PacketRef)) :
    (h.takes cycle inputs).state.cpuNodeIDs = h.cpuNodeIDs ∧
    ∀ taken ∈ (h.takes cycle inputs).taken, ∃ q k p, taken.1 ∈ inputs.getD q [] ∧ taken.2 = some (k,p) ∧
      (q = h.cpuNodeIDs.length ∧ 0 < h.cpuNodeIDs.length ∧ k = 0 ∨
        q < h.cpuNodeIDs.length ∧ (k = q ∨ k = h.cpuNodeIDs.length)) := by
  let same (h' : L2CacheNodeHandler) : Prop := h'.cpuNodeIDs = h.cpuNodeIDs
  refine @andThen_spec _ same _ _ _ ?_ ?_
  · have kept : ∀ h' pkt, same h' → same (memoryAnswer cycle h' pkt).2 :=
      fun h' pkt now => (memoryAnswer_spec cycle h' pkt).1.trans now
    obtain ⟨last,taken⟩ := takeInputs_spec kept (inputs.getD h.cpuNodeIDs.length []) rfl
    refine ⟨last,?_⟩
    intro t member
    obtain ⟨given,h',now,answered⟩ := taken t member
    obtain ⟨some_core,p,sent⟩ := (memoryAnswer_spec cycle h' t.1.packet).2 answered
    rw [now] at some_core
    exact ⟨_,0,p,given,sent,.inl ⟨rfl,some_core,rfl⟩⟩
  · intro h₁ now₁
    have kept : ∀ q h' pkt, same h' → same (cpuAnswer cycle q h' pkt).2 :=
      fun q h' pkt now => (cpuAnswer_spec cycle q h' pkt).1.trans now
    rw [now₁]
    obtain ⟨last,taken⟩ := takeQueues_window kept inputs 0 h.cpuNodeIDs.length 0 now₁
    refine ⟨last,?_⟩
    intro t member
    obtain ⟨q,inside,listed,h',now,answered⟩ := taken t member
    rw [Nat.zero_add] at listed
    obtain ⟨p,sent⟩ := (cpuAnswer_spec cycle (0 + q) h' t.1.packet).2 answered
    rw [Nat.zero_add,now] at sent
    rcases sent with sent | sent
    · exact ⟨q,q,p,listed,sent,.inr ⟨inside,.inl rfl⟩⟩
    · exact ⟨q,_,p,listed,sent,.inr ⟨inside,.inr rfl⟩⟩

theorem takes_isSome (cycle : Nat) (h : L2CacheNodeHandler) (inputs : List (List PacketRef)) :
    ∀ taken ∈ (h.takes cycle inputs).taken, taken.2.isSome = true := by
  intro taken member
  obtain ⟨_,_,_,_,sent,_⟩ := (h.takes_spec cycle inputs).2 taken member
  rw [sent,Option.isSome_some]

end L2CacheNodeHandler

/-! ### The memory controller -/

namespace MemoryControllerHandler

/-- What a response of a DRAM channel comes to. -/
def dramAnswer (cycle : Nat) : Answer MemoryControllerHandler := fun h pkt =>
  if pkt.type ≠ packetTypeMemoryResponse then
    (.error (invalidType "invalid response type for MemoryController: " pkt),h)
  else if h.upstreamIndex pkt.targetID < h.upstreamNodeIDs.length then
    (.ok (some (h.upstreamIndex pkt.targetID,h.responseTo cycle (h.upstreamIndex pkt.targetID) pkt)),h)
  else (.error indexOutOfRange,h)

/-- What a request from above comes to. -/
def upstreamAnswer : Answer MemoryControllerHandler := fun h pkt =>
  if pkt.type ≠ packetTypeMemoryRequest then (.error (invalidType "invalid packet type for MemoryController: " pkt),h)
  else match h.selectChannel pkt.addr with
  | none => (.error divideByZero,h)
  | some channelIndex => (.ok (some (h.upstreamNodeIDs.length + channelIndex,h.requestTo channelIndex pkt)),h)

/-- The packets that the handler takes in a cycle. -/
def takes (cycle : Nat) (h : MemoryControllerHandler) (inputs : List (List PacketRef)) : Taking MemoryControllerHandler :=
  (takeQueues (fun _ => dramAnswer cycle) h.upstreamNodeIDs.length h
    ((inputs.drop h.upstreamNodeIDs.length).take h.dramChannelIDs.length)).andThen fun h' =>
      takeQueues (fun _ => upstreamAnswer) 0 h' (inputs.take h.upstreamNodeIDs.length)

theorem answers_handleDRAMResponse (cycle : Nat) : Answers cycle (handleDRAMResponse cycle) (dramAnswer cycle) := by
  intro h pkt qs
  unfold handleDRAMResponse dramAnswer
  dsimp only
  split_ifs
  · rfl
  · rfl
  · rfl

theorem answers_handleUpstreamRequest (cycle : Nat) : Answers cycle (handleUpstreamRequest cycle) upstreamAnswer := by
  intro h pkt qs
  unfold handleUpstreamRequest upstreamAnswer
  split_ifs with type
  · rfl
  · rcases h.selectChannel pkt.addr with _ | channelIndex
    · rfl
    · rfl

/-- What a cycle of the handler does. -/
theorem runOn_process (cycle : Nat) (h : MemoryControllerHandler) (inputs : List (List PacketRef)) (qs : Queues) :
    runOn (process cycle h inputs) qs =
      (((h.takes cycle inputs).error,(h.takes cycle inputs).state),settle cycle qs (h.takes cycle inputs).taken) :=
  runOn_andThen (runOn_handleQueues (fun _ => answers_handleDRAMResponse cycle) _ _ h qs) fun h qs =>
    runOn_handleQueues (fun _ => answers_handleUpstreamRequest cycle) _ 0 h qs

theorem dramAnswer_spec (cycle : Nat) (h : MemoryControllerHandler) (pkt : Packet) :
    (dramAnswer cycle h pkt).2 = h ∧
    ∀ {sent}, (dramAnswer cycle h pkt).1 = .ok sent →
      h.upstreamIndex pkt.targetID < h.upstreamNodeIDs.length ∧ ∃ p, sent = some (h.upstreamIndex pkt.targetID,p) := by
  unfold dramAnswer
  split_ifs with type inside
  · exact ⟨rfl,fun answered => nomatch answered⟩
  · refine ⟨rfl,?_⟩
    rintro sent ⟨⟩
    exact ⟨inside,_,rfl⟩
  · exact ⟨rfl,fun answered => nomatch answered⟩

theorem upstreamAnswer_spec (h : MemoryControllerHandler) (pkt : Packet) :
    (upstreamAnswer h pkt).2 = h ∧
    ∀ {sent}, (upstreamAnswer h pkt).1 = .ok sent →
      ∃ c p, h.selectChannel pkt.addr = some c ∧ sent = some (h.upstreamNodeIDs.length + c,p) := by
  unfold upstreamAnswer
  split_ifs with type
  · exact ⟨rfl,fun answered => nomatch answered⟩
  · rcases h.selectChannel pkt.addr with _ | c
    · exact ⟨rfl,fun answered => nomatch answered⟩
    · refine ⟨rfl,?_⟩
      rintro sent ⟨⟩
      exact ⟨c,_,rfl,rfl⟩

/-- From which queue the handler takes a packet, and to which it answers. -/
theorem takes_spec (cycle : Nat) (h : MemoryControllerHandler) (inputs : List (List PacketRef)) :
    (h.takes cycle inputs).state = h ∧
    ∀ taken ∈ (h.takes cycle inputs).taken, ∃ q k p, taken.1 ∈ inputs.getD q [] ∧ taken.2 = some (k,p) ∧
      (q < h.upstreamNodeIDs.length ∧
          (∃ c, h.selectChannel taken.1.packet.addr = some c ∧ k = h.upstreamNodeIDs.length + c) ∨
        h.upstreamNodeIDs.length ≤ q ∧ k < h.upstreamNodeIDs.length ∧ k = h.upstreamIndex taken.1.packet.targetID) := by
  refine @andThen_spec _ (fun h' => h' = h) _ _ _ ?_ ?_
  · have kept : ∀ (q : Nat) h' pkt, h' = h → (dramAnswer cycle h' pkt).2 = h :=
      fun _ h' pkt now => (dramAnswer_spec cycle h' pkt).1.trans now
    obtain ⟨last,taken⟩ := takeQueues_window kept inputs h.upstreamNodeIDs.length h.dramChannelIDs.length
      h.upstreamNodeIDs.length rfl
    refine ⟨last,?_⟩
    intro t member
    obtain ⟨q,_,listed,h',now,answered⟩ := taken t member
    obtain ⟨inside,p,sent⟩ := (dramAnswer_spec cycle h' t.1.packet).2 answered
    rw [now] at inside sent
    exact ⟨_,_,p,listed,sent,.inr ⟨Nat.le_add_right _ _,inside,rfl⟩⟩
  · intro h₁ now₁
    have kept : ∀ (q : Nat) h' pkt, h' = h → (upstreamAnswer h' pkt).2 = h :=
      fun _ h' pkt now => (upstreamAnswer_spec h' pkt).1.trans now
    obtain ⟨last,taken⟩ := takeQueues_window kept inputs 0 h.upstreamNodeIDs.length 0 now₁
    refine ⟨last,?_⟩
    intro t member
    obtain ⟨q,inside,listed,h',now,answered⟩ := taken t member
    rw [Nat.zero_add] at listed
    obtain ⟨c,p,channel,sent⟩ := (upstreamAnswer_spec h' t.1.packet).2 answered
    rw [now] at channel sent
    exact ⟨q,_,p,listed,sent,.inl ⟨inside,c,channel,rfl⟩⟩

theorem takes_isSome (cycle : Nat) (h : MemoryControllerHandler) (inputs : List (List PacketRef)) :
    ∀ taken ∈ (h.takes cycle inputs).taken, taken.2.isSome = true := by
  intro taken member
  obtain ⟨_,_,_,_,sent,_⟩ := (h.takes_spec cycle inputs).2 taken member
  rw [sent,Option.isSome_some]

end MemoryControllerHandler

/-! ### Handlers that send a batch -/

/-- A handler that takes its packets without answering them, then ticks, and at last
    sends what is pending in one batch to its only output. -/
structure Batching (σ : Type) where
  work : σ → Packet → Option String × σ
  failed : String → String
  tick : σ → Option σ
  pending : σ → List Packet
  clear : σ → σ
  cleared : ∀ h, pending (clear h) = []

def sendBatch (cycle : Nat) (qs : Queues) (pkts : List Packet) : Queues :=
  if pkts.length = 0 then qs else (qs.injectPackets 0 cycle pkts).2

namespace Batching
variable {σ : Type} (b : Batching σ)

def takes (h : σ) (inputs : List (List PacketRef)) : Taking σ := takeInputs (silent b.work) h (inputs.headD [])

/-- The handler when it comes to send its batch, or the error that keeps it from that. -/
def prepared (h : σ) (inputs : List (List PacketRef)) : Option String × σ :=
  match (b.takes h inputs).error with
  | some err => (some (b.failed err),(b.takes h inputs).state)
  | none =>
    match b.tick (b.takes h inputs).state with
    | none => (some indexOutOfRange,(b.takes h inputs).state)
    | some h' => (none,h')

theorem prepared_cases (h : σ) (inputs : List (List PacketRef)) :
    (∃ err, b.prepared h inputs = (some err,(b.takes h inputs).state)) ∨
    ∃ h', b.tick (b.takes h inputs).state = some h' ∧ b.prepared h inputs = (none,h') := by
  unfold prepared
  rcases (b.takes h inputs).error with _ | err
  · rcases b.tick (b.takes h inputs).state with _ | h'
    · exact .inl ⟨_,rfl⟩
    · exact .inr ⟨h',rfl,rfl⟩
  · exact .inl ⟨_,rfl⟩

/-- The packets taken are of the first input queue, and get no answer. -/
theorem takes_spec (h : σ) (inputs : List (List PacketRef)) :
    ∀ taken ∈ (b.takes h inputs).taken, taken.1 ∈ inputs.getD 0 [] ∧ taken.2 = none := by
  intro taken member
  obtain ⟨given,h',_,answered⟩ :=
    (@takeInputs_spec _ (silent b.work) (fun _ => True) (fun _ _ _ => trivial) _ _ trivial).2 taken member
  refine ⟨?_,?_⟩
  · cases inputs with
    | nil => exact given
    | cons refs rest => exact given
  · unfold silent at answered
    split at answered
    · cases answered
    · exact (Except.ok.inj answered).symm

def result (cycle : Nat) (h : σ) (inputs : List (List PacketRef)) (qs : Queues) : (Option String × σ) × Queues :=
  let qs := settle cycle qs (b.takes h inputs).taken
  match b.prepared h inputs with
  | (some err,h') => ((some err,h'),qs)
  | (none,h') => ((none,b.clear h'),sendBatch cycle qs (b.pending h'))

end Batching

/-! ### The core -/

namespace CPUNodeHandler

def batching (answers : Nat → Nat) (cycle : Nat) : Batching CPUNodeHandler where
  work h pkt := h.handleMemoryResponse cycle pkt
  failed err := "failed to handle memory response: " ++ err
  tick h := h.tick answers
  pending h := h.memoryAdapter.requestQueue.map h.addressed
  clear h := { h with memoryAdapter := ⟨[]⟩ }
  cleared _ := rfl

theorem runOn_sendPendingRequests (answers : Nat → Nat) (cycle : Nat) (h : CPUNodeHandler) (qs : Queues) :
    runOn (h.sendPendingRequests cycle) qs =
      ((none,(batching answers cycle).clear h),sendBatch cycle qs ((batching answers cycle).pending h)) := by
  unfold sendPendingRequests sendBatch FlowSimMemoryAdapter.getPendingRequests
  simp only [batching,List.length_map]
  split_ifs
  · rfl
  · rfl

/-- What a cycle of the handler does. -/
theorem runOn_process (answers : Nat → Nat) (cycle : Nat) (h : CPUNodeHandler) (inputs : List (List PacketRef)) (qs : Queues) :
    runOn (process answers cycle h inputs) qs = (batching answers cycle).result cycle h inputs qs := by
  rw [process,runOn_bind,runOn_handleInputs (answers_silent cycle fun h pkt => handleMemoryResponse h cycle pkt),
    Batching.result,Batching.prepared,Batching.takes,batching]
  rcases takeInputs (silent fun h pkt => handleMemoryResponse h cycle pkt) h (inputs.headD []) with ⟨_ | err,h',refs⟩
  · dsimp only
    rcases h'.tick answers with _ | h''
    · rfl
    · exact runOn_sendPendingRequests answers cycle h'' _
  · rfl

end CPUNodeHandler

/-! ### The DRAM channel -/

namespace DRAMNodeHandler

def batching (cycle : Nat) : Batching DRAMNodeHandler where
  work := handleMemoryRequest
  failed err := "failed to handle memory request: " ++ err
  tick h := h.tick cycle
  pending h := h.pendingResponses.map h.addressed
  clear h := { h with pendingResponses := [] }
  cleared _ := rfl

theorem runOn_sendPendingResponses (cycle : Nat) (h : DRAMNodeHandler) (qs : Queues) :
    runOn (h.sendPendingResponses cycle) qs =
      ((none,(batching cycle).clear h),sendBatch cycle qs ((batching cycle).pending h)) := by
  unfold sendPendingResponses sendBatch
  simp only [batching,List.length_map]
  by_cases empty : h.pendingResponses.length = 0
  · have unchanged : { h with pendingResponses := [] } = h := by
      rw [← List.eq_nil_of_length_eq_zero empty]
    rw [if_neg (Nat.not_lt.mpr (Nat.le_of_eq empty)),if_pos empty,unchanged]
    rfl
  · rw [if_pos (Nat.pos_of_ne_zero empty),if_neg empty]
    rfl

/-- What a cycle of the handler does. -/
theorem runOn_process (cycle : Nat) (h : DRAMNodeHandler) (inputs : List (List PacketRef)) (qs : Queues) :
    runOn (process cycle h inputs) qs = (batching cycle).result cycle h inputs qs := by
  rw [process,runOn_bind,runOn_handleInputs (answers_silent cycle handleMemoryRequest),Batching.result,
    Batching.prepared,Batching.takes,batching]
  rcases takeInputs (silent handleMemoryRequest) h (inputs.headD []) with ⟨_ | err,h',refs⟩
  · dsimp only
    rcases h'.tick cycle with _ | h''
    · rfl
    · exact runOn_sendPendingResponses cycle h'' _
  · rfl

/-- The handler after a cycle. -/
def served (h : DRAMNodeHandler) (x : Nat × List (List PacketRef) × Queues) : Option DRAMNodeHandler :=
  some (runOn (process x.1 h x.2.1) x.2.2).1.2

/-- A handler of a new channel, after any cycles. -/
def Reached (h : DRAMNodeHandler) : Prop :=
  ∃ config packets dc nodeID cpuID, Dram.DRAMChannel.newDRAMChannel config packets = .ok dc ∧
    Reachable served (newDRAMNodeHandler nodeID cpuID dc) h

/-- The channel is consistent, and its packets are the handler's, with callbacks. -/
structure Stocked (h : DRAMNodeHandler) : Prop where
  consistent : Dram.Consistent h.dramChannel.dc h.dramChannel.accepted
  own : ∀ pkt ∈ h.dramChannel.accepted, pkt < h.nextPkt ∧ (h.dramChannel.dc.packets pkt).callback = true

theorem Stocked.new {config : Dram.DRAMConfig} {packets : Dram.PacketRef → Dram.DRAMPacket} {dc : Dram.DRAMChannel}
    (created : Dram.DRAMChannel.newDRAMChannel config packets = .ok dc) (nodeID cpuID : Int) :
    Stocked (newDRAMNodeHandler nodeID cpuID dc) :=
  ⟨Dram.consistent_new created,fun _ member => absurd member List.not_mem_nil⟩

/-- The request of the channel for a packet. -/
def requestOf (pkt : Packet) : Dram.DRAMPacket := {
  address := pkt.addr, data := pkt.data, isWrite := decide (pkt.op = opWrite), scheduled := false, readyTime := 0,
  callback := true }

/-- The handler after the channel was asked to add the request. -/
def added (h : DRAMNodeHandler) (pkt : Packet) : DRAMNodeHandler := { h with
  dramChannel := (h.dramChannel.addRequest h.nextPkt (requestOf pkt)).2
  nextPkt := h.nextPkt + 1
  instrIDs := Function.update h.instrIDs h.nextPkt pkt.instrID }

theorem handleMemoryRequest_cases (h : DRAMNodeHandler) (pkt : Packet) :
    (∃ err, h.handleMemoryRequest pkt = (some err,h)) ∨
    (h.dramChannel.addRequest h.nextPkt (requestOf pkt)).1 = false ∧
      h.handleMemoryRequest pkt = (some (queueFull pkt.addr),h.added pkt) ∨
    (h.dramChannel.addRequest h.nextPkt (requestOf pkt)).1 = true ∧ h.handleMemoryRequest pkt = (none,h.added pkt) := by
  unfold handleMemoryRequest
  by_cases type : pkt.type ≠ packetTypeMemoryRequest
  · rw [if_pos type]
    exact .inl ⟨_,rfl⟩
  · rw [if_neg type]
    rcases success : (h.dramChannel.addRequest h.nextPkt (requestOf pkt)).1 with _ | _
    · exact .inr (.inl ⟨rfl,if_neg (ne_true_of_eq_false success)⟩)
    · exact .inr (.inr ⟨rfl,if_pos success⟩)

theorem Stocked.added {h : DRAMNodeHandler} (stocked : Stocked h) (pkt : Packet) : Stocked (h.added pkt) := by
  have new : h.nextPkt ∉ h.dramChannel.accepted := fun member => Nat.lt_irrefl _ (stocked.own _ member).1
  have quiet := Dram.Quiet.addRequest (h.dramChannel.dc.setPacket h.nextPkt (requestOf pkt)) h.nextPkt
  have callback : ∀ ref, ((h.added pkt).dramChannel.dc.packets ref).callback =
      ((h.dramChannel.dc.setPacket h.nextPkt (requestOf pkt)).packets ref).callback :=
    fun ref => congrArg (fun asks => asks.2.2.2) (quiet.asks ref)
  refine ⟨@Dram.Consistent.step _ _ (.addRequest h.nextPkt (requestOf pkt)) stocked.consistent (if_pos ⟨new,rfl⟩),?_⟩
  intro ref member
  have before : ref ∈ h.dramChannel.accepted ∨ ref = h.nextPkt := by
    have among : ref ∈ if (h.dramChannel.addRequest h.nextPkt (requestOf pkt)).1 = true then
      h.dramChannel.accepted ++ [h.nextPkt] else h.dramChannel.accepted := member
    split_ifs at among
    · rwa [List.mem_append,List.mem_singleton] at among
    · exact .inl among
  rcases before with old | rfl
  · obtain ⟨below,set⟩ := stocked.own ref old
    rw [callback,Dram.packets_setPacket_of_ne _ (Nat.ne_of_lt below)]
    exact ⟨Nat.lt_succ_of_lt below,set⟩
  · rw [callback,Dram.packets_setPacket_self]
    exact ⟨Nat.lt_succ_self _,rfl⟩

theorem calls_added (h : DRAMNodeHandler) (pkt : Packet) :
    (h.added pkt).dramChannel.dc.calls = h.dramChannel.dc.calls :=
  (Dram.Quiet.addRequest (h.dramChannel.dc.setPacket h.nextPkt (requestOf pkt)) h.nextPkt).calls

theorem accepted_added (h : DRAMNodeHandler) (pkt : Packet) : (h.added pkt).dramChannel.accepted =
    if (h.dramChannel.addRequest h.nextPkt (requestOf pkt)).1 = true then h.dramChannel.accepted ++ [h.nextPkt]
    else h.dramChannel.accepted := rfl

/-- The packets taken become requests of the channel, numbered in turn. -/
theorem Stocked.takes : ∀ (refs : List PacketRef) {h : DRAMNodeHandler}, Stocked h →
    Stocked (takeInputs (silent DRAMNodeHandler.handleMemoryRequest) h refs).state ∧
      (takeInputs (silent DRAMNodeHandler.handleMemoryRequest) h refs).state.dramChannel.dc.calls = h.dramChannel.dc.calls ∧
      (takeInputs (silent DRAMNodeHandler.handleMemoryRequest) h refs).state.cpuID = h.cpuID ∧
      (takeInputs (silent DRAMNodeHandler.handleMemoryRequest) h refs).state.dramChannel.accepted = h.dramChannel.accepted ++
        List.range' h.nextPkt (takeInputs (silent DRAMNodeHandler.handleMemoryRequest) h refs).taken.length
  | [], _, stocked => ⟨stocked,rfl,rfl,(List.append_nil _).symm⟩
  | ref :: refs, h, stocked => by
    rw [takeInputs,silent]
    rcases handleMemoryRequest_cases h ref.packet with ⟨err,worked⟩ | ⟨full,worked⟩ | ⟨success,worked⟩
    · rw [worked]
      exact ⟨stocked,rfl,rfl,(List.append_nil _).symm⟩
    · rw [worked]
      refine ⟨stocked.added ref.packet,calls_added h ref.packet,rfl,?_⟩
      exact ((accepted_added h ref.packet).trans (if_neg (ne_true_of_eq_false full))).trans (List.append_nil _).symm
    · rw [worked]
      obtain ⟨later,calls,cpuID,accepted⟩ := Stocked.takes refs (stocked.added ref.packet)
      refine ⟨later,calls.trans (calls_added h ref.packet),cpuID,?_⟩
      dsimp only
      rw [List.length_cons,List.range'_succ,accepted,accepted_added,if_pos success,List.append_assoc]
      rfl

theorem Stocked.tick {h h' : DRAMNodeHandler} (stocked : Stocked h) {cycle : Nat} (ticked : h.tick cycle = some h') :
    Stocked h' ∧ h'.cpuID = h.cpuID ∧ h'.dramChannel.accepted = h.dramChannel.accepted ∧
      (∀ call ∈ h'.dramChannel.dc.calls.drop h.dramChannel.dc.calls.length, call.pkt ∈ h.dramChannel.accepted) ∧
      h'.pendingResponses =
        h.pendingResponses ++ (h'.dramChannel.dc.calls.drop h.dramChannel.dc.calls.length).map h'.responseOf := by
  obtain ⟨dc,moved,rfl⟩ := Option.map_eq_some_iff.mp ticked
  obtain ⟨asks,new,calls,answered⟩ := Dram.tick_calls stocked.consistent moved
  have consistent := stocked.consistent.tick moved
  refine ⟨⟨consistent.modes _ dc.writeMode dc.dbusAvailable,?_⟩,rfl,rfl,?_,rfl⟩
  · intro ref member
    obtain ⟨below,set⟩ := stocked.own ref member
    exact ⟨below,(congrArg (fun asks => asks.2.2.2) (asks ref)).trans set⟩
  · intro call member
    have among : call ∈ new := by
      rw [Dram.DRAMChannel.setCycle,calls,List.drop_left] at member
      exact member
    exact (stocked.consistent.kept _ (answered call among).1).1

/-- The handler when it comes to send its batch, or stops before. -/
theorem Stocked.prepared {h : DRAMNodeHandler} (stocked : Stocked h) (cycle : Nat) (inputs : List (List PacketRef)) :
    let h' := ((batching cycle).prepared h inputs).2
    Stocked h' ∧ h'.cpuID = h.cpuID ∧
      h'.dramChannel.accepted =
        h.dramChannel.accepted ++ List.range' h.nextPkt ((batching cycle).takes h inputs).taken.length ∧
      ∀ call ∈ h'.dramChannel.dc.calls.drop h.dramChannel.dc.calls.length,
        call.pkt ∈ h'.dramChannel.accepted ∧ h'.responseOf call ∈ h'.pendingResponses := by
  obtain ⟨took,calls,cpuID,accepted⟩ := Stocked.takes (inputs.headD []) stocked
  rcases (batching cycle).prepared_cases h inputs with ⟨err,ready⟩ | ⟨h',ticked,ready⟩
  · rw [ready]
    refine ⟨took,cpuID,accepted,?_⟩
    intro call member
    rw [Batching.takes,batching,calls,List.drop_length] at member
    exact absurd member List.not_mem_nil
  · obtain ⟨now,cpuID',same,called,pending⟩ := Stocked.tick took ticked
    rw [ready]
    refine ⟨now,cpuID'.trans cpuID,same.trans accepted,?_⟩
    intro call member
    rw [← calls] at member
    rw [same,pending]
    exact ⟨called call member,List.mem_append_right _ (List.mem_map_of_mem member)⟩

theorem Stocked.result {h : DRAMNodeHandler} (stocked : Stocked h) (cycle : Nat) (inputs : List (List PacketRef)) (qs : Queues) :
    Stocked ((batching cycle).result cycle h inputs qs).1.2 := by
  have now := (stocked.prepared cycle inputs).1
  rcases ready : (batching cycle).prepared h inputs with ⟨_ | err,h'⟩
  · rw [ready] at now
    rw [Batching.result,ready]
    exact ⟨now.consistent,now.own⟩
  · rw [ready] at now
    rw [Batching.result,ready]
    exact now

theorem Reached.stocked {h : DRAMNodeHandler} (reached : Reached h) : Stocked h := by
  obtain ⟨config,packets,dc,nodeID,cpuID,created,reach⟩ := reached
  refine reach.invariant (Stocked.new created nodeID cpuID) ?_
  rintro s s' ⟨cycle,inputs,qs⟩ stocked _ stepped
  obtain rfl := Option.some.inj stepped
  dsimp only
  rw [runOn_process]
  exact stocked.result cycle inputs qs

end DRAMNodeHandler
end FlowSim.MemSystem
