import FlowSim.AheadPort.Carriage
import FlowSim.Node.Conduct
import FlowSim.Node.RingRouter
import FlowSim.Queue.Custody

/-!
The packets that a node carries. Its queues take packets from their ports and give packets to
them; between the two stands the handler, which has to account for its packets: what it finds in
the queues or creates it leaves in the queues or consumes (`Handler.Accounts`). Then the node
accounts for the packets of any stretch of time (`carries_advanceTo`).
-/
namespace FlowSim.Queue
open FlowSim.Lib FlowSim.AheadPort
set_option linter.unusedSimpArgs false

variable {may : Packet → Prop} {a : Account (Multiset Packet)} {start rest : Multiset Packet} {cycle : Nat}

/-! ### Queues -/

theorem keeps_updates_carrying {now : Multiset Packet} : ∀ (cycles : List Nat) {a : Account (Multiset Packet)}, a.Balances start now →
    Keeps (carrying may) (cycles.forM fun i => updateReady i true) (fun a _ => a.Balances start now) a
  | [], _, balances => balances
  | i :: later, _, balances => by
    rw [List.forM_eq_forM,List.forM_cons]
    exact (keeps_updateReady_carrying balances i true).bind fun _ _ balances => keeps_updates_carrying later balances

theorem InputQueue.keeps_updateUpstream_carrying {now : Multiset Packet} (iq : InputQueue) (balances : a.Balances start now) :
    Keeps (carrying may) (iq.updateUpstream cycle) (fun a iq' => a.Balances start now ∧ iq'.packets = iq.packets) a := by
  unfold InputQueue.updateUpstream
  split
  · exact (keeps_updateReady_carrying balances _ _).bind fun _ _ balances => ⟨balances,rfl⟩
  · exact (keeps_updates_carrying _ balances).bind fun _ _ balances => ⟨balances,rfl⟩

/-- An input queue has what it had and what it receives, unless it overflows. -/
theorem InputQueue.keeps_tick_carrying (iq : InputQueue) (balances : a.Balances start (rest + (iq.packets : Multiset Packet)))
    (placed : ∀ pkt ∈ iq.packets, may pkt) : Keeps (carrying may) (iq.tick cycle) (fun a result => result.1 = none →
      a.Balances start (rest + (result.2.packets : Multiset Packet)) ∧ ∀ pkt ∈ result.2.packets, may pkt) a := by
  rw [InputQueue.tick]
  refine (keeps_receive_carrying balances cycle).bind ?_
  rintro a pkts ⟨balances,received⟩
  rcases stored : InputQueue.storeAll cycle pkts iq with ⟨error | error,iq₁⟩
  · obtain ⟨iq₂,all,perm,_⟩ := InputQueue.storeAll_fits cycle pkts iq (InputQueue.fits_of_storeAll cycle pkts stored)
    obtain rfl : iq₁ = iq₂ := (Prod.mk.inj (stored.symm.trans all)).2
    have packets : (iq₁.packets : Multiset Packet) = (iq.packets : Multiset Packet) + (pkts : Multiset Packet) := by
      rw [Multiset.coe_eq_coe.mpr perm,← Multiset.coe_add,add_comm]
    rw [add_assoc,← packets] at balances
    refine (keeps_updateUpstream_carrying { iq₁ with lastCyclePackets := pkts } balances).bind ?_
    rintro a iq' ⟨balances,same⟩ _
    have same : iq'.packets = iq₁.packets := same
    refine ⟨same ▸ balances,fun pkt member => ?_⟩
    rcases List.mem_append.mp (perm.mem_iff.mp (same ▸ member)) with new | old
    · exact received pkt new
    · exact placed pkt old
  · intro failed
    cases failed

/-- An output queue has what it had, less what it sends. -/
theorem OutputQueue.keeps_sendUpTo_carrying : ∀ (left : Nat) (oq : OutputQueue) {a : Account (Multiset Packet)},
    a.Balances start (rest + (oq.packets : Multiset Packet)) → (∀ pkt ∈ oq.packets, may pkt) →
    Keeps (carrying may) (oq.sendUpTo cycle left)
      (fun a oq' => a.Balances start (rest + (oq'.packets : Multiset Packet)) ∧ ∀ pkt ∈ oq'.packets, may pkt) a
  | 0, _, _, balances, placed => ⟨balances,placed⟩
  | left + 1, oq, a, balances, placed => by
    rw [OutputQueue.sendUpTo]
    split_ifs with some_left
    · have waiting : oq.packets = (oq.front some_left).packet :: OutputQueue.packets { oq with toRingBuffer := oq.pop some_left } := by
        show oq.toRingBuffer.toList.map _ = _
        rw [oq.toRingBuffer.toList_pop some_left]
        rfl
      have moved : (oq.packets : Multiset Packet) =
          (OutputQueue.packets { oq with toRingBuffer := oq.pop some_left } : Multiset Packet) + {(oq.front some_left).packet} := by
        rw [waiting,← Multiset.cons_coe,← Multiset.singleton_add,add_comm]
      have allowed := placed _ (waiting ▸ List.mem_cons_self)
      rw [moved,← add_assoc] at balances
      refine (keeps_trySend_carrying ⟨cycle,_⟩ balances allowed cycle).bind ?_
      intro a sent balances
      cases sent with
      | true =>
        exact keeps_sendUpTo_carrying left _ balances fun pkt member => placed pkt (waiting ▸ List.mem_cons_of_mem _ member)
      | false =>
        refine ⟨?_,placed⟩
        rw [moved,← add_assoc]
        exact balances
    · exact ⟨balances,placed⟩

theorem OutputQueue.keeps_tick_carrying (oq : OutputQueue) (balances : a.Balances start (rest + (oq.packets : Multiset Packet)))
    (placed : ∀ pkt ∈ oq.packets, may pkt) : Keeps (carrying may) (oq.tick cycle)
      (fun a oq' => a.Balances start (rest + (oq'.packets : Multiset Packet)) ∧ ∀ pkt ∈ oq'.packets, may pkt) a := by
  refine (keeps_sendUpTo_carrying oq.outBandwidth oq balances placed).bind ?_
  rintro a oq' ⟨balances,placed⟩
  exact (keeps_markDone_carrying balances cycle).bind fun _ _ balances => ⟨balances,placed⟩

end FlowSim.Queue

namespace FlowSim.Node
open FlowSim.Lib FlowSim.AheadPort FlowSim.Queue
open BufferlessRingRouterNode (peekAll queue_peekPickTo)
set_option linter.unusedSimpArgs false

/-! ### The packets of a node -/

/-- The packets in input queues. -/
def received (inputs : List InputQueue) : Multiset Packet := (inputs.map fun iq => (iq.packets : Multiset Packet)).sum

/-- The packets in output queues. -/
def toSend (outputs : List OutputQueue) : Multiset Packet := (outputs.map fun oq => (oq.packets : Multiset Packet)).sum

/-- The packets in the queues of a node. -/
def Queues.packets (qs : Queues) : Multiset Packet := received qs.inputs + toSend qs.outputs

/-- The packets of the queues, the first of which is number `i`, may be there. -/
def PlacedFrom (may : Nat → Packet → Prop) : Nat → List (List Packet) → Prop
  | _, [] => True
  | i, pkts :: rest => (∀ pkt ∈ pkts, may i pkt) ∧ PlacedFrom may (i + 1) rest

/-- The packets of a node may be where they are. -/
structure Queues.Placed (may : NodePort → Packet → Prop) (qs : Queues) : Prop where
  inputs : PlacedFrom (fun i => may (.input i)) 0 (qs.inputs.map InputQueue.packets)
  outputs : PlacedFrom (fun i => may (.output i)) 0 (qs.outputs.map OutputQueue.packets)

/-! ### What a handler does to them -/

section
variable {may : Nat → Packet → Prop} {i : Nat}

theorem placedFrom_iff : ∀ {queues : List (List Packet)} {i : Nat},
    PlacedFrom may i queues ↔ ∀ (k : Nat) (pkts : List Packet), queues[k]? = some pkts → ∀ pkt ∈ pkts, may (i + k) pkt
  | [], i => by simp [PlacedFrom]
  | pkts :: rest, i => by
    rw [PlacedFrom,placedFrom_iff]
    constructor
    · rintro ⟨here,later⟩ (_ | k) pkts' found
      · obtain rfl := Option.some.inj found
        exact here
      · have placed := later k pkts' found
        rwa [Nat.add_right_comm] at placed
    · intro all
      refine ⟨all 0 pkts rfl,fun k pkts' found => ?_⟩
      have placed := all (k + 1) pkts' found
      rwa [Nat.add_right_comm]

theorem PlacedFrom.set {queues : List (List Packet)} (placed : PlacedFrom may i queues) (k : Nat) {pkts : List Packet}
    (new : ∀ pkt ∈ pkts, may (i + k) pkt) : PlacedFrom may i (queues.set k pkts) := by
  refine placedFrom_iff.mpr fun j pkts' found => ?_
  by_cases here : k = j
  · subst here
    rw [List.getElem?_set_self'] at found
    obtain ⟨_,_,rfl⟩ := Option.map_eq_some_iff.mp found
    exact new
  · rw [List.getElem?_set_ne here] at found
    exact placedFrom_iff.mp placed j pkts' found

theorem sum_set {A : Type} [AddCommMonoid A] : ∀ {l : List A} {i : Nat} {x : A}, l[i]? = some x → ∀ y, (l.set i y).sum + x = l.sum + y
  | [], _, _, found, _ => by cases found
  | a :: l, 0, x, found, y => by
    obtain rfl := Option.some.inj found
    rw [List.set_cons_zero,List.sum_cons,List.sum_cons]
    abel
  | a :: l, i + 1, x, found, y => by
    have later := sum_set (l := l) found y
    rw [List.set_cons_succ,List.sum_cons,List.sum_cons,add_assoc,later,add_assoc]

end

namespace Queues
variable {may : NodePort → Packet → Prop} {qs : Queues} {output cycle : Nat} {oq : OutputQueue} {pkts : List Packet}

/-- Packets that are injected and fit join the others. -/
theorem packets_injectPackets (found : qs.outputs[output]? = some oq) (room : oq.count + pkts.length ≤ oq.capacity) :
    (qs.injectPackets output cycle pkts).2.packets = qs.packets + (pkts : Multiset Packet) := by
  have outputs : (qs.injectPackets output cycle pkts).2.outputs = qs.outputs.set output (oq.injectPackets cycle pkts).2 := by
    unfold injectPackets
    rw [found]
  have inputs : (qs.injectPackets output cycle pkts).2.inputs = qs.inputs := by
    unfold injectPackets
    rw [found]
  have isQueue : (qs.outputs.map fun oq => (oq.packets : Multiset Packet))[output]? = some (oq.packets : Multiset Packet) := by
    rw [List.getElem?_map,found]
    rfl
  have sum := sum_set isQueue ((oq.injectPackets cycle pkts).2.packets : Multiset Packet)
  rw [OutputQueue.injectPackets_fits cycle room,← Multiset.coe_add] at sum
  refine add_right_cancel (b := (oq.packets : Multiset Packet)) ?_
  rw [packets,packets,inputs,outputs,toSend,List.map_set,OutputQueue.injectPackets_fits cycle room,← Multiset.coe_add,add_assoc,sum,toSend]
  abel

/-- Packets that are injected and do not fit change nothing. -/
theorem injectPackets_full (found : qs.outputs[output]? = some oq) (full : ¬ oq.count + pkts.length ≤ oq.capacity) :
    (qs.injectPackets output cycle pkts).2 = qs := by
  obtain ⟨inside,rfl⟩ := List.getElem?_eq_some_iff.mp found
  unfold injectPackets
  rw [found]
  dsimp only
  rw [OutputQueue.injectPackets_full cycle full,List.set_getElem_self]

theorem injectPackets_absent (absent : qs.outputs[output]? = none) : (qs.injectPackets output cycle pkts).2 = qs := by
  unfold injectPackets
  rw [absent]

theorem Placed.injectPackets (placed : qs.Placed may) (allowed : ∀ pkt ∈ pkts, may (.output output) pkt) :
    (qs.injectPackets output cycle pkts).2.Placed may := by
  rcases found : qs.outputs[output]? with _ | oq
  · rwa [injectPackets_absent found]
  · by_cases room : oq.count + pkts.length ≤ oq.capacity
    · have before : ∀ pkt ∈ oq.packets, may (.output output) pkt := by
        have here := placedFrom_iff.mp placed.outputs output oq.packets (by rw [List.getElem?_map,found]; rfl)
        rwa [Nat.zero_add] at here
      unfold Queues.injectPackets
      rw [found]
      refine ⟨placed.inputs,?_⟩
      show PlacedFrom _ 0 (List.map _ (qs.outputs.set output (oq.injectPackets cycle pkts).2))
      rw [List.map_set,OutputQueue.injectPackets_fits cycle room]
      refine placed.outputs.set output fun pkt member => ?_
      rw [Nat.zero_add]
      rcases List.mem_append.mp member with old | new
      · exact before pkt old
      · exact allowed pkt new
    · rwa [injectPackets_full found room]

/-- Freeing a slot takes its packet out. -/
theorem packets_free {ref : PacketRef} {iq : InputQueue} (found : qs.inputs[ref.queue]? = some iq)
    (occupied : ∃ inside : ref.slot < iq.slots.length, iq.slots[ref.slot].free = false ∧ iq.slots[ref.slot].stored.packet = ref.packet) :
    qs.packets = (qs.free ref.queue ref.slot).packets + {ref.packet} := by
  obtain ⟨inside,isUsed,stored⟩ := occupied
  have inputs : (qs.free ref.queue ref.slot).inputs = qs.inputs.set ref.queue (iq.free ref.slot) := by
    obtain ⟨isQueue,rfl⟩ := List.getElem?_eq_some_iff.mp found
    show qs.inputs.modify ref.queue _ = _
    rw [List.modify_eq_take_cons_drop isQueue,List.set_eq_take_append_cons_drop,if_pos isQueue]
  have moved : (iq.packets : Multiset Packet) = ((iq.free ref.slot).packets : Multiset Packet) + {ref.packet} := by
    rw [Multiset.coe_eq_coe.mpr (iq.packets_free inside isUsed),stored,← Multiset.cons_coe,← Multiset.singleton_add,add_comm]
  have isQueue : (qs.inputs.map fun iq => (iq.packets : Multiset Packet))[ref.queue]? = some (iq.packets : Multiset Packet) := by
    rw [List.getElem?_map,found]
    rfl
  have sum := sum_set isQueue ((iq.free ref.slot).packets : Multiset Packet)
  refine add_right_cancel (b := ((iq.free ref.slot).packets : Multiset Packet)) ?_
  rw [packets,packets,inputs,received,received,List.map_set]
  show _ + toSend qs.outputs + _ = _ + toSend qs.outputs + _ + _
  rw [add_right_comm,← sum,moved]
  abel

theorem Placed.free (placed : qs.Placed may) (queue slot : Nat) : (qs.free queue slot).Placed may := by
  refine ⟨placedFrom_iff.mpr fun k pkts found => ?_,placed.outputs⟩
  have found : ((qs.inputs.modify queue fun iq => iq.free slot).map InputQueue.packets)[k]? = some pkts := found
  rw [List.getElem?_map,List.getElem?_modify] at found
  obtain ⟨iq',isChanged,rfl⟩ := Option.map_eq_some_iff.mp found
  obtain ⟨iq,isQueue,rfl⟩ := Option.map_eq_some_iff.mp isChanged
  have before := placedFrom_iff.mp placed.inputs k iq.packets (by rw [List.getElem?_map,isQueue]; rfl)
  split_ifs
  · intro pkt member
    by_cases occupied : iq.Occupied slot
    · obtain ⟨_,found,isUsed⟩ := occupied
      obtain ⟨inside,rfl⟩ := List.getElem?_eq_some_iff.mp found
      exact before pkt ((iq.packets_free inside isUsed).mem_iff.mpr (List.mem_cons_of_mem _ member))
    · rw [InputQueue.free_of_vacant occupied] at member
      exact before pkt member
  · exact before

/-- References to different occupied slots of the input queues, with what is stored there. -/
structure RefsTo (qs : Queues) (refs : List PacketRef) : Prop where
  distinct : refs.Pairwise fun r s => ¬ (r.queue = s.queue ∧ r.slot = s.slot)
  stored : ∀ ref ∈ refs, ∃ iq, qs.inputs[ref.queue]? = some iq ∧ ∃ inside : ref.slot < iq.slots.length,
    iq.slots[ref.slot].free = false ∧ iq.slots[ref.slot].stored.packet = ref.packet

variable {refs : List PacketRef} {ref : PacketRef}

theorem refsTo_peekAll (sortSlice : SliceSort) (qs : Queues) : qs.RefsTo (peekAll sortSlice qs).flatten := by
  have each : ∀ (i : Nat) (here : List PacketRef), (peekAll sortSlice qs)[i]? = some here →
      ∃ iq, qs.inputs[i]? = some iq ∧ here = iq.peekPickTo sortSlice i iq.capacity := by
    intro i here found
    rw [peekAll,List.getElem?_mapIdx] at found
    obtain ⟨iq,isQueue,rfl⟩ := Option.map_eq_some_iff.mp found
    exact ⟨iq,isQueue,rfl⟩
  constructor
  · refine List.pairwise_flatten.mpr ⟨fun here member => ?_,List.pairwise_iff_getElem.mpr fun i j isFirst isSecond before => ?_⟩
    · obtain ⟨i,found⟩ := List.getElem?_of_mem member
      obtain ⟨iq,_,rfl⟩ := each i here found
      exact (refsTo_peekPickTo sortSlice iq i iq.capacity).distinct.imp fun different same => different same.2
    · obtain ⟨_,_,first⟩ := each i _ (List.getElem?_eq_getElem isFirst)
      obtain ⟨_,_,second⟩ := each j _ (List.getElem?_eq_getElem isSecond)
      rw [first,second]
      rintro r isRef r' isRef' ⟨same,_⟩
      rw [queue_peekPickTo isRef,queue_peekPickTo isRef'] at same
      omega
  · intro ref member
    obtain ⟨here,isHere,inside⟩ := List.mem_flatten.mp member
    obtain ⟨i,found⟩ := List.getElem?_of_mem isHere
    obtain ⟨iq,isQueue,rfl⟩ := each i here found
    have stored := (refsTo_peekPickTo sortSlice iq i iq.capacity).occupied ref inside
    rw [← queue_peekPickTo inside] at isQueue
    exact ⟨iq,isQueue,stored⟩

theorem RefsTo.tail (all : qs.RefsTo (ref :: refs)) : qs.RefsTo refs :=
  ⟨(List.pairwise_cons.mp all.distinct).2,fun other member => all.stored other (List.mem_cons_of_mem _ member)⟩

/-- Freeing the slot of a reference leaves the others. -/
theorem RefsTo.free (all : qs.RefsTo (ref :: refs)) : (qs.free ref.queue ref.slot).RefsTo refs := by
  refine ⟨all.tail.distinct,fun other member => ?_⟩
  obtain ⟨iq,isQueue,inside,isUsed,stored⟩ := all.tail.stored other member
  have inputs : (qs.free ref.queue ref.slot).inputs[other.queue]? = some (if ref.queue = other.queue then iq.free ref.slot else iq) := by
    show (qs.inputs.modify ref.queue _)[other.queue]? = _
    rw [List.getElem?_modify,isQueue]
    rfl
  refine ⟨_,inputs,?_⟩
  split_ifs with here
  · have different : ref.slot ≠ other.slot := fun same => (List.pairwise_cons.mp all.distinct).1 other member ⟨here,same⟩
    obtain ⟨inside',same⟩ := InputQueue.slots_free_ne iq different inside
    exact ⟨inside',by rw [same]; exact isUsed,by rw [same]; exact stored⟩
  · exact ⟨inside,isUsed,stored⟩

theorem RefsTo.congr {qs' : Queues} (all : qs.RefsTo refs) (same : qs'.inputs = qs.inputs) : qs'.RefsTo refs :=
  ⟨all.distinct,by rw [same]; exact all.stored⟩

/-- What is referred to may be where it is. -/
theorem Placed.of_ref (placed : qs.Placed may) (all : qs.RefsTo refs) (member : ref ∈ refs) : may (.input ref.queue) ref.packet := by
  obtain ⟨iq,isQueue,inside,isUsed,stored⟩ := all.stored ref member
  have here := placedFrom_iff.mp placed.inputs ref.queue iq.packets (by rw [List.getElem?_map,isQueue]; rfl) ref.packet
  rw [Nat.zero_add] at here
  refine here (List.mem_filterMap.mpr ⟨iq.slots[ref.slot],List.getElem_mem inside,?_⟩)
  rw [if_neg (by simp [isUsed]),stored]

end Queues

/-- What the state of a node says of the packets that the node has consumed and created. -/
structure Books (σ : Type) where
  consumed : σ → Multiset Packet
  created : σ → Multiset Packet

/-- A handler that does not fail accounts for its packets: what was in the queues or is created
    is in the queues or consumed, and the packets are where they may be. -/
def Handler.Accounts {σ : Type} (handler : Handler σ) (sortSlice : SliceSort) (may : NodePort → Packet → Prop) (books : Books σ) :
    Prop :=
  ∀ (cycle : Nat) (state : σ) (qs : Queues), qs.Placed may → ∀ (state' : σ) (qs' : Queues),
    runOn (handler cycle state (peekAll sortSlice qs)) qs = ((none,state'),qs') → qs'.Placed may ∧
      qs'.packets + books.consumed state' + books.created state = qs.packets + books.consumed state + books.created state'

namespace BaseNode
variable {σ : Type} {may : NodePort → Packet → Prop} {a : Account (Multiset Packet)} {start rest : Multiset Packet} {cycle : Nat}

/-! ### One cycle -/

theorem carries_tickInput (connected : Bool) (i : Nat) (iq : InputQueue)
    (balances : a.Balances start (rest + (iq.packets : Multiset Packet))) (placed : ∀ pkt ∈ iq.packets, may (.input i) pkt) :
    Keeps (carryingEach may) (tickInput connected i cycle iq) (fun a result => result.1 = none →
      a.Balances start (rest + (result.2.packets : Multiset Packet)) ∧ ∀ pkt ∈ result.2.packets, may (.input i) pkt) a := by
  unfold tickInput
  split_ifs
  · rw [atPort_eq]
    exact keeps_inside_carrying may (iq.keeps_tick_carrying balances placed)
  · exact fun _ => ⟨balances,placed⟩

/-- What the handler is given, the first queue being number `i`. -/
theorem carries_tickInputQueues (sortSlice : SliceSort) (connected : NodePort → Bool) :
    ∀ (inputs : List InputQueue) (i : Nat) (rest : Multiset Packet) {a : Account (Multiset Packet)},
      a.Balances start (rest + received inputs) → PlacedFrom (fun i => may (.input i)) i (inputs.map InputQueue.packets) →
      Keeps (carryingEach may) (tickInputQueues sortSlice connected cycle i inputs) (fun a result => result.1 = none →
        a.Balances start (rest + received result.2.1) ∧
          PlacedFrom (fun i => may (.input i)) i (result.2.1.map InputQueue.packets) ∧
          result.2.2 = result.2.1.mapIdx fun k iq => iq.peekPickTo sortSlice (i + k) iq.capacity) a
  | [], _, _, _, balances, _ => fun _ => ⟨balances,trivial,rfl⟩
  | iq :: inputs, i, rest, a, balances, placed => by
    rw [tickInputQueues]
    have here : a.Balances start (rest + received inputs + (iq.packets : Multiset Packet)) := by
      refine balances.congr ?_
      rw [received,List.map_cons,List.sum_cons,received]
      abel
    refine (carries_tickInput (connected (.input i)) i iq here placed.1).bind ?_
    rintro a ⟨error | error,iq'⟩ fine
    · obtain ⟨balances,placedHere⟩ := fine rfl
      refine (carries_tickInputQueues sortSlice connected inputs (i + 1) (rest + (iq'.packets : Multiset Packet)) ?_ placed.2).bind ?_
      · exact balances.congr (add_right_comm ..)
      · rintro a ⟨error,inputs',refs⟩ fine isFine
        obtain ⟨balances,placedLater,same⟩ := fine isFine
        refine ⟨?_,⟨placedHere,placedLater⟩,?_⟩
        · refine balances.congr ?_
          show rest + (iq'.packets : Multiset Packet) + received inputs' = rest + received (iq' :: inputs')
          rw [received,received,List.map_cons,List.sum_cons,add_assoc]
        · have same : refs = inputs'.mapIdx fun k iq => iq.peekPickTo sortSlice (i + 1 + k) iq.capacity := same
          rw [List.mapIdx_cons,same]
          simp only [Nat.add_zero,Nat.add_assoc,Nat.add_comm 1]
    · intro failed
      cases failed

theorem carries_tickOutput (connected : Bool) (i : Nat) (oq : OutputQueue)
    (balances : a.Balances start (rest + (oq.packets : Multiset Packet))) (placed : ∀ pkt ∈ oq.packets, may (.output i) pkt) :
    Keeps (carryingEach may) (tickOutput connected i cycle oq)
      (fun a oq' => a.Balances start (rest + (oq'.packets : Multiset Packet)) ∧ ∀ pkt ∈ oq'.packets, may (.output i) pkt) a := by
  unfold tickOutput
  split_ifs
  · rw [atPort_eq]
    exact keeps_inside_carrying may (oq.keeps_tick_carrying balances placed)
  · exact ⟨balances,placed⟩

theorem carries_tickAhead (connected : Bool) (i : Nat) : ∀ (remaining curr ahead : Nat) (oq : OutputQueue)
    {a : Account (Multiset Packet)}, a.Balances start (rest + (oq.packets : Multiset Packet)) →
      (∀ pkt ∈ oq.packets, may (.output i) pkt) → Keeps (carryingEach may) (tickAhead connected i cycle remaining curr ahead oq)
        (fun a result => a.Balances start (rest + (result.1.packets : Multiset Packet)) ∧
          ∀ pkt ∈ result.1.packets, may (.output i) pkt) a
  | 0, _, _, _, _, balances, placed => ⟨balances,placed⟩
  | remaining + 1, curr, ahead, oq, a, balances, placed => by
    rw [tickAhead]
    split_ifs
    · exact ⟨balances,placed⟩
    · refine (carries_tickOutput connected i oq balances placed).bind ?_
      rintro a oq' ⟨balances,placed⟩
      exact carries_tickAhead connected i remaining _ _ oq' balances placed

theorem carries_tickOutputQueues (connected : NodePort → Bool) (advanceTarget : Nat) :
    ∀ (outputs : List OutputQueue) (aheads : List Nat) (i : Nat) (rest : Multiset Packet) {a : Account (Multiset Packet)},
      a.Balances start (rest + toSend outputs) → PlacedFrom (fun i => may (.output i)) i (outputs.map OutputQueue.packets) →
      Keeps (carryingEach may) (tickOutputQueues connected cycle advanceTarget i outputs aheads) (fun a result =>
        a.Balances start (rest + toSend result.1) ∧
          PlacedFrom (fun i => may (.output i)) i (result.1.map OutputQueue.packets)) a
  | [], aheads, i, _, _, balances, placed => by
    rw [tickOutputQueues]
    · exact ⟨balances,placed⟩
    · simp
  | oq :: outputs, [], i, _, _, balances, placed => by
    rw [tickOutputQueues]
    · exact ⟨balances,placed⟩
    · simp
  | oq :: outputs, ahead :: aheads, i, rest, a, balances, placed => by
    rw [tickOutputQueues]
    have here : a.Balances start (rest + toSend outputs + (oq.packets : Multiset Packet)) := by
      refine balances.congr ?_
      rw [toSend,List.map_cons,List.sum_cons,toSend]
      abel
    refine (carries_tickAhead (connected (.output i)) i _ _ ahead oq here placed.1).bind ?_
    rintro a ⟨oq',ahead'⟩ ⟨balances,placedHere⟩
    refine (carries_tickOutputQueues connected advanceTarget outputs aheads (i + 1) (rest + (oq'.packets : Multiset Packet)) ?_
      placed.2).bind ?_
    · exact balances.congr (add_right_comm ..)
    · rintro a ⟨outputs',aheads'⟩ ⟨balances,placedLater⟩
      refine ⟨balances.congr ?_,placedHere,placedLater⟩
      show rest + (oq'.packets : Multiset Packet) + toSend outputs' = rest + toSend (oq' :: outputs')
      rw [toSend,toSend,List.map_cons,List.sum_cons,add_assoc]

/-- The packets of a node are where they may be, and accounted for: `owed` is what it had
    created at the start. -/
structure Carries (may : NodePort → Packet → Prop) (books : Books σ) (start owed : Multiset Packet) (a : Account (Multiset Packet))
    (n : BaseNode σ) : Prop where
  balances : a.Balances (start + books.created n.state) (owed + (n.queues.packets + books.consumed n.state))
  placed : n.queues.Placed may

variable {books : Books σ} {owed : Multiset Packet}

theorem carries_tick {handler : Handler σ} {sortSlice : SliceSort} (accounts : handler.Accounts sortSlice may books) (n : BaseNode σ)
    (carries : n.Carries may books start owed a) (cycle : Nat) : Keeps (carryingEach may) (n.tick handler sortSlice cycle)
      (fun a result => result.1 = none → result.2.Carries may books start owed a) a := by
  rw [tick]
  have receives : a.Balances (start + books.created n.state)
      (owed + toSend n.queues.outputs + books.consumed n.state + received n.queues.inputs) := by
    refine carries.balances.congr ?_
    rw [Queues.packets]
    abel
  refine (carries_tickInputQueues sortSlice n.connected n.queues.inputs 0 _ receives carries.placed.inputs).bind ?_
  rintro a ⟨error | error,inputs,refs⟩ fine
  · obtain ⟨balances,placed,isPeek⟩ := fine rfl
    have isPeek : refs = peekAll sortSlice { n.queues with inputs } := by
      refine isPeek.trans ?_
      simp only [peekAll,Nat.zero_add]
    dsimp only
    rcases worked : runOn (handler cycle n.state refs) { n.queues with inputs } with ⟨⟨error | error,state⟩,queues⟩
    · rw [isPeek] at worked
      obtain ⟨placed,gained⟩ := accounts cycle n.state { n.queues with inputs } ⟨placed,carries.placed.outputs⟩ state queues worked
      have sends : a.Balances (start + books.created state) (owed + books.consumed state + received queues.inputs + toSend queues.outputs) := by
        refine balances.gain ?_
        have gained : queues.packets + books.consumed state + books.created n.state =
          received inputs + toSend n.queues.outputs + books.consumed n.state + books.created state := gained
        calc owed + books.consumed state + received queues.inputs + toSend queues.outputs + (start + books.created n.state)
          _ = owed + start + (queues.packets + books.consumed state + books.created n.state) := by rw [Queues.packets]; abel
          _ = owed + toSend n.queues.outputs + books.consumed n.state + received inputs + (start + books.created state) := by
            rw [gained]
            abel
      refine (carries_tickOutputQueues n.connected n.advanceTarget queues.outputs n.outputQueueAhead 0 _ sends placed.outputs).bind ?_
      rintro a ⟨outputs,aheads⟩ ⟨balances,placedOutputs⟩ _
      refine ⟨balances.congr ?_,placed.inputs,placedOutputs⟩
      show _ = owed + (received queues.inputs + toSend outputs + books.consumed state)
      abel
    · intro failed
      cases failed
  · intro failed
    cases failed

/-! ### A stretch of time -/

theorem carries_advanceLoop {handler : Handler σ} {sortSlice : SliceSort} (accounts : handler.Accounts sortSlice may books) :
    ∀ (remaining : Nat) (n : BaseNode σ) {a : Account (Multiset Packet)}, n.Carries may books start owed a →
      Keeps (carryingEach may) (advanceLoop handler sortSlice remaining n)
        (fun a result => result.1 = none → result.2.Carries may books start owed a) a
  | 0, _, _, carries => fun _ => carries
  | remaining + 1, n, a, carries => by
    rw [advanceLoop]
    refine (carries_tick accounts n carries n.currentCycle).bind ?_
    rintro a ⟨error | error,n'⟩ fine
    · exact carries_advanceLoop accounts remaining _ ⟨(fine rfl).balances,(fine rfl).placed⟩
    · intro failed
      cases failed

/-- A node that does not fail accounts for its packets. -/
theorem carries_advanceTo {handler : Handler σ} {sortSlice : SliceSort} (accounts : handler.Accounts sortSlice may books)
    (targetCycle : Nat) (n : BaseNode σ) (carries : n.Carries may books start owed a) :
    Keeps (carryingEach may) (n.advanceTo handler sortSlice targetCycle)
      (fun a result => result.1 = none → result.2.Carries may books start owed a) a := by
  rw [advanceTo]
  split_ifs
  · exact fun _ => carries
  · exact carries_advanceLoop accounts _ _ ⟨carries.balances,carries.placed⟩

end BaseNode
end FlowSim.Node
