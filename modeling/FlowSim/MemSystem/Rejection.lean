import FlowSim.MemSystem.Takes

/-!
What the handlers lose. None of them looks at the answer of `InjectPackets`: a packet
that an output queue rejects is gone, since the packet it answers has been freed, or the
list it was pending in has been emptied. So a handler keeps all that it has taken, and
all that it has to send, exactly when its output queues have room for it.
-/
namespace FlowSim.MemSystem
open FlowSim.Lib FlowSim.Node FlowSim.Queue FlowSim.Cache
set_option linter.unusedSimpArgs false

/-- Only the packets taken have left the input queues. -/
def OnlyTaken (before after : Queues) (refs : List PacketRef) : Prop :=
  after.inputs = refs.foldl (fun inputs ref => inputs.modify ref.queue fun iq => iq.free ref.slot) before.inputs

def Taking.refs {σ : Type} (t : Taking σ) : List PacketRef := t.taken.map Prod.fst

def Taking.due {σ : Type} (t : Taking σ) (output : Nat) : List Packet := sentOn output t.taken

/-- Every packet taken is answered, only these have left the input queues, and the answers
    are all in the output queues. -/
structure Taking.Kept {σ : Type} (t : Taking σ) (before after : Queues) : Prop where
  only : OnlyTaken before after t.refs
  answered : ∀ taken ∈ t.taken, taken.2.isSome = true
  kept : MemSystem.Kept before after t.due (fun _ => [])

/-- A handler that answers every packet it takes keeps the answers exactly when they fit. -/
theorem Taking.kept_iff {σ : Type} {t : Taking σ} {before : Queues} (cycle : Nat)
    (answered : ∀ taken ∈ t.taken, taken.2.isSome = true) :
    t.Kept before (settle cycle before t.taken) ↔ Fit before t.due := by
  have kept := @kept_iff_fit before (settle cycle before t.taken) t.due
    (fun output => (t.due output).map fun pkt => [pkt]) (fun output => by simp [← List.flatMap_def])
    (fun output => (settle_outputs cycle t.taken before).2)
  constructor
  · exact fun all => kept.mp all.kept
  · exact fun fit => ⟨settle_inputs cycle t.taken before,answered,kept.mpr fit⟩

/-! ### Handlers that send a batch -/

/-- Packets for the first output. -/
def onFirst (pkts : List Packet) (output : Nat) : List Packet := if output = 0 then pkts else []

section
variable {before mid : Queues}

theorem batch_kept_iff (cycle : Nat) (pkts : List Packet) (same : ∀ output, waiting mid output = waiting before output)
    (room : ∀ output, places mid output = places before output) :
    Kept before (sendBatch cycle mid pkts) (onFirst pkts) (fun _ => []) ↔ Fit before (onFirst pkts) := by
  refine @kept_iff_fit before _ _ (fun output => if output = 0 then [pkts] else []) ?_ ?_
  · intro output
    unfold onFirst
    split_ifs
    · exact (List.flatten_singleton ..).symm
    · rfl
  · intro output
    unfold sendBatch
    by_cases empty : pkts.length = 0
    · obtain rfl := List.eq_nil_of_length_eq_zero empty
      rw [if_pos empty,same output]
      split_ifs
      · exact (offer_nil ..).symm
      · rfl
    · rw [if_neg empty,waiting_injectPackets,same output,room output]
      by_cases first : output = 0
      · rw [if_pos first.symm,if_pos first]
        rfl
      · rw [if_neg (Ne.symm first),if_neg first]
        rfl

/-- A handler that sends nothing, and still holds what it owes, loses nothing. -/
theorem held_kept (owed : Nat → List Packet) (same : ∀ output, waiting mid output = waiting before output) :
    Kept before mid owed owed ∧ Fit before (fun _ => []) := by
  refine ⟨?_,?_⟩
  · intro output
    rw [same output]
  · intro output
    exact waiting_le before output

end

namespace Batching
variable {σ : Type} (b : Batching σ)

/-- The packets that are to be sent. -/
def owed (h : σ) (inputs : List (List PacketRef)) : Nat → List Packet := onFirst (b.pending (b.prepared h inputs).2)

/-- The packets that are sent. -/
def due (h : σ) (inputs : List (List PacketRef)) : Nat → List Packet :=
  if (b.prepared h inputs).1 = none then b.owed h inputs else fun _ => []

/-- Only the packets taken have left the input queue, and what was to be sent is in the
    output queue or still pending. -/
structure Keeps (h : σ) (inputs : List (List PacketRef)) (before : Queues) (after : (Option String × σ) × Queues) : Prop where
  only : OnlyTaken before after.2 (b.takes h inputs).refs
  kept : Kept before after.2 (b.owed h inputs) (onFirst (b.pending after.1.2))

theorem settle_takes (cycle : Nat) (h : σ) (inputs : List (List PacketRef)) (qs : Queues) (output : Nat) :
    waiting (settle cycle qs (b.takes h inputs).taken) output = waiting qs output ∧
      places (settle cycle qs (b.takes h inputs).taken) output = places qs output := by
  have sent : sentOn output (b.takes h inputs).taken = [] := by
    refine List.filterMap_eq_nil_iff.mpr ?_
    intro taken member
    rw [(b.takes_spec h inputs taken member).2]
    rfl
  obtain ⟨same,now⟩ := @settle_outputs output cycle (b.takes h inputs).taken qs
  rw [sent] at now
  exact ⟨now,same⟩

theorem inputs_sendBatch (cycle : Nat) (qs : Queues) (pkts : List Packet) : (sendBatch cycle qs pkts).inputs = qs.inputs := by
  unfold sendBatch Queues.injectPackets
  split_ifs
  · rfl
  · cases qs.outputs[0]? with
    | none => rfl
    | some oq => rfl

/-- The batch is kept exactly when it fits, or is not sent at all. -/
theorem keeps_iff (cycle : Nat) (h : σ) (inputs : List (List PacketRef)) (qs : Queues) :
    b.Keeps h inputs qs (b.result cycle h inputs qs) ↔ Fit qs (b.due h inputs) := by
  have same := fun output => (b.settle_takes cycle h inputs qs output).1
  have room := fun output => (b.settle_takes cycle h inputs qs output).2
  have freed := settle_inputs cycle (b.takes h inputs).taken qs
  rcases ready : b.prepared h inputs with ⟨_ | err,h'⟩
  · have due : b.due h inputs = onFirst (b.pending h') := by rw [due,owed,ready,if_pos rfl]
    have batch := batch_kept_iff cycle (b.pending h') same room
    have nothing : onFirst [] = fun _ => [] := funext fun output => ite_self _
    rw [due,← batch,result,ready]
    constructor
    · intro keeps
      have kept := keeps.kept
      rw [owed,ready,b.cleared,nothing] at kept
      exact kept
    · intro kept
      refine ⟨(inputs_sendBatch ..).trans freed,?_⟩
      rw [owed,ready,b.cleared,nothing]
      exact kept
  · have due : b.due h inputs = fun _ => [] := by
      rw [due,ready]
      exact if_neg (Option.some_ne_none err)
    obtain ⟨kept,fit⟩ := held_kept (onFirst (b.pending h')) same
    rw [due,result,ready]
    refine iff_of_true ⟨freed,?_⟩ fit
    rw [owed,ready]
    exact kept

end Batching

namespace DRAMNodeHandler

/-- What is taken is stored: each packet taken becomes a request of the channel, which is
    in its queue until its callback is called; and what the callbacks of the cycle ask for
    is sent, or pending. -/
structure Stores (h : DRAMNodeHandler) (cycle : Nat) (inputs : List (List PacketRef)) (h' : DRAMNodeHandler) : Prop where
  counted : h'.dramChannel.accepted.length = h.dramChannel.accepted.length + ((batching cycle).takes h inputs).taken.length
  stored : ∀ pkt ∈ h'.dramChannel.accepted,
    pkt ∈ h'.dramChannel.dc.queued ∨ ∃ call ∈ h'.dramChannel.dc.calls, call.pkt = pkt
  answered : ∀ call ∈ h'.dramChannel.dc.calls.drop h.dramChannel.dc.calls.length,
    h'.addressed (h'.responseOf call) ∈ (batching cycle).owed h inputs 0

theorem Stocked.stored {h : DRAMNodeHandler} (stocked : Stocked h) : ∀ pkt ∈ h.dramChannel.accepted,
    pkt ∈ h.dramChannel.dc.queued ∨ ∃ call ∈ h.dramChannel.dc.calls, call.pkt = pkt := by
  intro pkt accepted
  by_cases queued : pkt ∈ h.dramChannel.dc.queued
  · exact .inl queued
  · have once := stocked.consistent.finished accepted queued (stocked.own pkt accepted).2
    have member : pkt ∈ h.dramChannel.dc.calls.map Dram.Call.pkt :=
      List.count_pos_iff.mp (Nat.lt_of_lt_of_eq Nat.one_pos once.symm)
    exact .inr (List.mem_map.mp member)

theorem Stocked.stores {h : DRAMNodeHandler} (stocked : Stocked h) (cycle : Nat) (inputs : List (List PacketRef)) (qs : Queues) :
    Stores h cycle inputs ((batching cycle).result cycle h inputs qs).1.2 := by
  obtain ⟨now,_,accepted,called⟩ := stocked.prepared cycle inputs
  have counted := congrArg List.length accepted
  rw [List.length_append,List.length_range'] at counted
  have answered : ∀ call ∈ ((batching cycle).prepared h inputs).2.dramChannel.dc.calls.drop h.dramChannel.dc.calls.length,
      ((batching cycle).prepared h inputs).2.addressed (((batching cycle).prepared h inputs).2.responseOf call) ∈
        (batching cycle).owed h inputs 0 := by
    intro call member
    rw [Batching.owed,onFirst,if_pos rfl]
    exact List.mem_map_of_mem (called call member).2
  rcases ready : (batching cycle).prepared h inputs with ⟨_ | err,h'⟩
  · rw [ready] at now counted answered
    rw [Batching.result,ready]
    exact ⟨counted,now.stored,answered⟩
  · rw [ready] at now counted answered
    rw [Batching.result,ready]
    exact ⟨counted,now.stored,answered⟩

end DRAMNodeHandler

/-! ### All handlers -/

/-- Each handler loses nothing in a cycle exactly when every output queue has room for
    all the packets that the handler has for it in the cycle. -/
theorem handlers_keep_iff (cycle : Nat) (qs : Queues) :
    (∀ answers (h : CPUNodeHandler) inputs,
      (CPUNodeHandler.batching answers cycle).Keeps h inputs qs (runOn (CPUNodeHandler.process answers cycle h inputs) qs) ↔
        Fit qs ((CPUNodeHandler.batching answers cycle).due h inputs)) ∧
    (∀ (h : L2CacheNodeHandler) inputs,
      (h.takes cycle inputs).Kept qs (runOn (L2CacheNodeHandler.process cycle h inputs) qs).2 ↔
        Fit qs (h.takes cycle inputs).due) ∧
    (∀ (h : MemoryControllerHandler) inputs,
      (h.takes cycle inputs).Kept qs (runOn (MemoryControllerHandler.process cycle h inputs) qs).2 ↔
        Fit qs (h.takes cycle inputs).due) ∧
    (∀ (h : DRAMNodeHandler) inputs, h.Reached →
      ((DRAMNodeHandler.batching cycle).Keeps h inputs qs (runOn (DRAMNodeHandler.process cycle h inputs) qs) ∧
        h.Stores cycle inputs (runOn (DRAMNodeHandler.process cycle h inputs) qs).1.2 ↔
          Fit qs ((DRAMNodeHandler.batching cycle).due h inputs))) := by
  refine ⟨?_,?_,?_,?_⟩
  · intro answers h inputs
    rw [CPUNodeHandler.runOn_process]
    exact (CPUNodeHandler.batching answers cycle).keeps_iff cycle h inputs qs
  · intro h inputs
    rw [L2CacheNodeHandler.runOn_process]
    exact Taking.kept_iff cycle (h.takes_isSome cycle inputs)
  · intro h inputs
    rw [MemoryControllerHandler.runOn_process]
    exact Taking.kept_iff cycle (h.takes_isSome cycle inputs)
  · intro h inputs reached
    have stores := reached.stocked.stores cycle inputs qs
    rw [DRAMNodeHandler.runOn_process]
    exact (and_iff_left stores).trans ((DRAMNodeHandler.batching cycle).keeps_iff cycle h inputs qs)

/-- A controller of one DRAM channel for one node above. -/
def oneChannel : MemoryControllerHandler where
  nodeID := 2
  upstreamNodeIDs := [1]
  dramChannelIDs := [3]
  addressMapping := .mappingInterleaved

def request : Packet := newMemoryRequestPacket 1 2 64 64 7 false 0

def earlier : Packet := { request with instrID := 6 }

/-- The request waits in the input queue; the queue to the channel has one place, where an
    earlier request waits. -/
def queueTaken : Queues where
  inputs := [{
    slots := [{ stored := ⟨0,request⟩, free := false, blockReasons := 0 }], inBandwidth := 1, nextUpdateCycle := 0,
    length := 1, lastCyclePackets := [], length_eq := rfl, slots_pos := Nat.one_pos, inBandwidth_pos := Nat.one_pos }]
  outputs := [.newOutputQueue 1 1 Nat.one_pos,((OutputQueue.newOutputQueue 1 1 Nat.one_pos).injectPackets 0 [earlier]).2]

def requestTaken : Queues :=
  (runOn (MemoryControllerHandler.process 1 oneChannel [[⟨request,0,0⟩],[]]) queueTaken).2

/-- The controller takes the request from its input queue, and it is nowhere afterwards. -/
theorem request_dropped :
    requestTaken.inputs.map InputQueue.packets = [[]] ∧ requestTaken.outputs.map OutputQueue.packets = [[],[earlier]] ∧
    ¬ (oneChannel.takes 1 [[⟨request,0,0⟩],[]]).Kept queueTaken requestTaken := by
  refine ⟨by decide +kernel,by decide +kernel,?_⟩
  intro kept
  have fewer := (kept.kept 1).length_le
  exact absurd fewer (by decide +kernel)

/-- The queues of the controller when a place is left for its request. -/
def placeLeft : Queues := { queueTaken with
  outputs := [.newOutputQueue 2 1 Nat.one_pos,((OutputQueue.newOutputQueue 2 1 Nat.one_pos).injectPackets 0 [earlier]).2] }

/-- The queues of a DRAM node with a request to take and a place for a response. -/
def responseDue : Queues := { queueTaken with outputs := placeLeft.outputs.drop 1 }

/-- A DRAM node that has taken a read, which is done in the next cycle. -/
def readServed : DRAMNodeHandler :=
  (runActions DRAMNodeHandler.served (fun _ _ => True)
    [(0,[[⟨earlier,0,0⟩]],responseDue),(32,[[]],responseDue),(33,[[]],responseDue),(50,[[]],responseDue)]
    (DRAMNodeHandler.newDRAMNodeHandler 3 2 Dram.newChannel)).get (by decide +kernel)

theorem readServed_reached : readServed.Reached :=
  ⟨Dram.defaultDRAMConfig,fun _ => Dram.readAt 0,Dram.newChannel,3,2,rfl,reaches_runActions _ (Option.some_get _).symm⟩

theorem placeLeft_fit : Fit placeLeft (oneChannel.takes 1 [[⟨request,0,0⟩],[]]).due := by
  intro output
  rcases output with _ | _ | output
  · decide +kernel
  · decide +kernel
  · have none_due : (oneChannel.takes 1 [[⟨request,0,0⟩],[]]).due (output + 1 + 1) = [] := by rfl
    rw [none_due]
    exact waiting_le _ _

theorem responseDue_fit : Fit responseDue ((DRAMNodeHandler.batching 51).due readServed [[⟨request,0,0⟩]]) := by
  intro output
  rcases output with _ | output
  · decide +kernel
  · have none_due : (DRAMNodeHandler.batching 51).due readServed [[⟨request,0,0⟩]] (output + 1) = [] := by
      unfold Batching.due
      split <;> rfl
    rw [none_due]
    exact waiting_le _ _

/-- The controller passes the request on; the DRAM node takes it while it answers the read
    before it. -/
theorem handlers_keep_iff_taken :
    ((runOn (MemoryControllerHandler.process 1 oneChannel [[⟨request,0,0⟩],[]]) placeLeft).2.outputs.map
        (fun oq => oq.packets.map Packet.instrID) = [[],[6,7]] ∧
      (oneChannel.takes 1 [[⟨request,0,0⟩],[]]).Kept placeLeft
        (runOn (MemoryControllerHandler.process 1 oneChannel [[⟨request,0,0⟩],[]]) placeLeft).2) ∧
    ((runOn (DRAMNodeHandler.process 51 readServed [[⟨request,0,0⟩]]) responseDue).2.outputs.map
        (fun oq => oq.packets.map Packet.type) = [[packetTypeMemoryRequest,packetTypeMemoryResponse]] ∧
      (DRAMNodeHandler.batching 51).Keeps readServed [[⟨request,0,0⟩]] responseDue
        (runOn (DRAMNodeHandler.process 51 readServed [[⟨request,0,0⟩]]) responseDue) ∧
      readServed.Stores 51 [[⟨request,0,0⟩]]
        (runOn (DRAMNodeHandler.process 51 readServed [[⟨request,0,0⟩]]) responseDue).1.2) :=
  ⟨⟨by decide +kernel,((handlers_keep_iff 1 placeLeft).2.2.1 oneChannel [[⟨request,0,0⟩],[]]).mpr placeLeft_fit⟩,
    by decide +kernel,((handlers_keep_iff 51 responseDue).2.2.2 readServed [[⟨request,0,0⟩]] readServed_reached).mpr responseDue_fit⟩

end FlowSim.MemSystem

