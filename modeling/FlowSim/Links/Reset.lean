import FlowSim.Links.BufferedTick
import FlowSim.Queue.Sending

/-!
Resetting a buffered link type. A link type that is reset answers later calls as a new one
does exactly when no packet waited behind its slots; a packet that did is sent by a later call.
-/
namespace FlowSim.Links
open FlowSim.Lib FlowSim.AheadPort FlowSim.Queue
set_option linter.unusedSimpArgs false

/-! ### What a link does at its ends -/

/-- An event of a port, at one end of the link. -/
def atLinkEnd (side : LinkEnd) (event : Event portInterface) : Event linkPorts := ⟨(side,event.op),event.answer⟩

/-- The packets sent downstream, in order. -/
def sentDownstream (events : List (Event linkPorts)) : List PacketWithCycle :=
  events.filterMap fun event =>
    match event.op with
    | (.downstream,.send pwc) => some pwc
    | _ => none

theorem does_atEnd (side : LinkEnd) {α : Type} {p : Prog portInterface α} : ∀ {events : List (Event linkPorts)} {value : α},
    (atEnd side p).Does events value → ∃ portEvents, p.Does portEvents value ∧ events = portEvents.map (atLinkEnd side) := by
  induction p with
  | done value =>
    rintro events result ⟨rfl,rfl⟩
    exact ⟨[],⟨rfl,rfl⟩,rfl⟩
  | call op next ih =>
    rintro events result ⟨answer,rest,rfl,later⟩
    obtain ⟨portEvents,does,rfl⟩ := ih answer later
    exact ⟨⟨op,answer⟩ :: portEvents,⟨answer,portEvents,rfl,does⟩,rfl⟩

theorem sentDownstream_append (before after : List (Event linkPorts)) :
    sentDownstream (before ++ after) = sentDownstream before ++ sentDownstream after := List.filterMap_append

theorem sentDownstream_downstream (portEvents : List (Event portInterface)) :
    sentDownstream (portEvents.map (atLinkEnd .downstream)) = sentPackets portEvents := by
  unfold sentDownstream sentPackets
  rw [List.filterMap_map]
  refine List.filterMap_congr fun event _ => ?_
  obtain ⟨op,answer⟩ := event
  cases op <;> rfl

theorem sentDownstream_upstream (portEvents : List (Event portInterface)) :
    sentDownstream (portEvents.map (atLinkEnd .upstream)) = [] := by
  unfold sentDownstream
  rw [List.filterMap_map]
  exact List.filterMap_eq_nil_iff.mpr fun _ _ => rfl

namespace BufferedLinkType

/-! ### Calls -/

/-- A call of `process`, with what the ports answer in it. -/
structure Call where
  cycle : Nat
  targetCycle : Nat
  incoming : List Packet
  answers : Answers linkPorts

def called (h : BufferedLinkType) (call : Call) : Option BufferedLinkType × List (Event linkPorts) :=
  (h.process call.cycle call.targetCycle call.incoming).under call.answers

/-- The calls in turn, up to one that panics, with what each does at the ports. -/
def calls (h : BufferedLinkType) : List Call → Option BufferedLinkType × List (List (Event linkPorts))
  | [] => (some h,[])
  | call :: rest =>
    match h.called call with
    | (none,events) => (none,[events])
    | (some h,events) => ((calls h rest).1,events :: (calls h rest).2)

/-- After a reset every later calls are answered as by a new link type, and what they send
    downstream is among what they are given. -/
def Forgets (h : BufferedLinkType) : Prop :=
  ∀ later : List Call,
    (h.reset.calls later).2 = ((newBufferedLinkType h.latency h.bandwidth h.latency_pos h.bandwidth_pos).calls later).2 ∧
    (((h.reset.calls later).2.flatMap sentDownstream).map PacketWithCycle.packet).Subperm (later.flatMap Call.incoming)

/-! ### Nothing is lost or made -/

/-- The packets in the slots and those that wait. -/
def contents (h : BufferedLinkType) : List Packet := (h.slots.flatten ++ h.pendingPackets).map PacketWithCycle.packet

/-- Packets were added to the contents; the size of the link type is the same. -/
structure Gained (h : BufferedLinkType) (pkts : List Packet) (h' : BufferedLinkType) : Prop where
  contents : h'.contents.Perm (h.contents ++ pkts)
  latency : h'.latency = h.latency
  bandwidth : h'.bandwidth = h.bandwidth

/-- A list that is put into the place of another takes its part. -/
theorem perm_flatten_set {α : Type} (list : List α) : ∀ {lists : List (List α)} {i : Nat}, i < lists.length →
    ((lists.set i list).flatten ++ lists.getD i []).Perm (lists.flatten ++ list)
  | [], _, inside => absurd inside (Nat.not_lt_zero _)
  | first :: rest, 0, _ => by
    show ((list ++ rest.flatten) ++ first).Perm ((first ++ rest.flatten) ++ list)
    classical
    refine List.perm_iff_count.mpr fun a => ?_
    simp only [List.count_append]
    omega
  | first :: rest, i + 1, inside => by
    have others := perm_flatten_set list (Nat.lt_of_succ_lt_succ inside)
    show ((first ++ (rest.set i list).flatten) ++ rest.getD i []).Perm ((first ++ rest.flatten) ++ list)
    rw [List.append_assoc,List.append_assoc]
    exact others.append_left first

section
variable {h h₁ h₂ : BufferedLinkType} {cycle : Nat} {pkts more : List Packet}

theorem Gained.trans (first : Gained h pkts h₁) (second : Gained h₁ more h₂) : Gained h (pkts ++ more) h₂ where
  contents := by
    rw [← List.append_assoc]
    exact second.contents.trans (first.contents.append_right more)
  latency := second.latency.trans first.latency
  bandwidth := second.bandwidth.trans first.bandwidth

/-- What a slot holds in the end is what it held before and what has come. -/
theorem contents_updateSlot {packets : List PacketWithCycle} :
    ((h.updateSlot cycle packets).contents ++ (h.getSlot cycle).map PacketWithCycle.packet).Perm
      (h.contents ++ packets.map PacketWithCycle.packet) := by
  have swapped := perm_flatten_set packets (h.slotIndex_lt cycle)
  have all : ((h.slots.set (h.slotIndex cycle) packets).flatten ++ h.pendingPackets ++ h.getSlot cycle).Perm
      (h.slots.flatten ++ h.pendingPackets ++ packets) := by
    classical
    refine List.perm_iff_count.mpr fun pkt => ?_
    have counted := List.perm_iff_count.mp swapped pkt
    simp only [List.count_append] at counted ⊢
    unfold getSlot
    omega
  rw [contents,contents,← List.map_append,← List.map_append]
  exact all.map _

theorem gained_place (cycle : Nat) (h : BufferedLinkType) (pkt : PacketWithCycle) :
    ∃ h', h.place cycle pkt = some h' ∧ Gained h [pkt.packet] h' := by
  unfold place
  by_cases accepted : h.canAcceptPacket cycle pkt.cycle = true
  · have space : (h.getSlot pkt.cycle).length < h.bandwidth := by
      unfold canAcceptPacket at accepted
      split at accepted
      · cases accepted
      · exact of_decide_eq_true accepted
    rw [if_pos accepted,addToSlot,if_neg (by omega)]
    refine ⟨_,rfl,?_,rfl,rfl⟩
    have held := @contents_updateSlot h pkt.cycle (h.getSlot pkt.cycle ++ [pkt])
    rw [List.map_append,← List.append_assoc] at held
    refine (List.perm_append_right_iff ((h.getSlot pkt.cycle).map PacketWithCycle.packet)).mp (held.trans ?_)
    rw [List.append_assoc,List.append_assoc]
    exact List.perm_append_comm.append_left _
  · rw [if_neg accepted]
    refine ⟨_,rfl,?_,rfl,rfl⟩
    show ((h.slots.flatten ++ (h.pendingPackets ++ [pkt])).map _).Perm ((h.slots.flatten ++ h.pendingPackets).map _ ++ _)
    rw [← List.append_assoc,List.map_append]
    exact List.Perm.refl _

theorem gained_placeAll (cycle : Nat) : ∀ (pkts : List PacketWithCycle) (h : BufferedLinkType),
    ∃ h', pkts.foldlM (place cycle) h = some h' ∧ Gained h (pkts.map PacketWithCycle.packet) h'
  | [], h => ⟨h,rfl,by rw [List.map_nil,List.append_nil],rfl,rfl⟩
  | pkt :: rest, h => by
    obtain ⟨h₁,placed,first⟩ := gained_place cycle h pkt
    obtain ⟨h₂,others,second⟩ := gained_placeAll cycle rest h₁
    refine ⟨h₂,?_,first.trans second⟩
    rw [List.foldlM_cons,placed]
    exact others

/-- Placing never fails, and neither loses nor makes a packet. -/
theorem gained_takeIn (h : BufferedLinkType) (cycle : Nat) (incoming : List Packet) :
    ∃ h', h.takeIn cycle incoming = some h' ∧ Gained h incoming h' := by
  obtain ⟨h₁,waited,first⟩ := gained_placeAll cycle (h.pendingPackets.map (retarget cycle)) { h with pendingPackets := [] }
  obtain ⟨h₂,fresh,second⟩ := gained_placeAll cycle (incoming.map (PacketWithCycle.mk cycle)) h₁
  refine ⟨h₂,?_,?_,second.latency.trans first.latency,second.bandwidth.trans first.bandwidth⟩
  · unfold takeIn
    rw [waited]
    exact fresh
  · have all := (first.trans second).contents
    have emptied : contents { h with pendingPackets := [] } ++ h.pendingPackets.map PacketWithCycle.packet = h.contents := by
      unfold contents
      rw [List.append_nil,List.map_append]
    have packets : (incoming.map (PacketWithCycle.mk cycle)).map PacketWithCycle.packet = incoming := by
      rw [List.map_map]
      exact List.map_id _
    rwa [packet_retarget,packets,← List.append_assoc,emptied] at all

/-! ### Sending -/

/-- What is refused and what is sent are the packets. -/
theorem does_sendAll (cycle : Nat) : ∀ {pkts refused : List PacketWithCycle} {events : List (Event portInterface)},
    (sendAll cycle pkts).Does events refused → (refused ++ sentPackets events).Perm pkts
  | [], refused, events, does => by
    obtain ⟨rfl,rfl⟩ := does
    exact List.Perm.refl _
  | pwc :: rest, refused, events, does => by
    obtain ⟨first,sent,second,rfl,tried,does⟩ := Prog.does_bind.mp does
    obtain ⟨later,pending,last,rfl,others,rfl,rfl⟩ := Prog.does_bind.mp does
    have both := does_sendAll cycle others
    rw [OutputQueue.does_trySend tried,List.append_nil,sentPackets_append]
    cases sent with
    | true => exact List.perm_middle.trans (both.cons pwc)
    | false => exact both.cons pwc

theorem does_sendSlot {events : List (Event linkPorts)} (does : (h.sendSlot cycle).Does events h₁) :
    (h₁.contents ++ (sentDownstream events).map PacketWithCycle.packet).Perm h.contents ∧ h₁.latency = h.latency ∧
      h₁.bandwidth = h.bandwidth := by
  obtain ⟨first,ready,second,rfl,asked,later⟩ := Prog.does_bind.mp does
  obtain ⟨portEvents,⟨answer,_,rfl,rfl,rfl⟩,rfl⟩ := does_atEnd .downstream asked
  rw [sentDownstream_append,sentDownstream_downstream]
  cases ready with
  | false =>
    obtain ⟨rfl,rfl⟩ := later
    refine ⟨?_,rfl,rfl⟩
    show (h.contents ++ []).Perm h.contents
    rw [List.append_nil]
  | true =>
    obtain ⟨sent,refused,last,rfl,tried,ends⟩ := Prog.does_bind.mp later
    obtain ⟨slotEvents,offered,rfl⟩ := does_atEnd .downstream tried
    have split := (does_sendAll cycle offered).map PacketWithCycle.packet
    rw [List.map_append] at split
    -- what is left of the slot when it is sent, and what was sent, are the slot
    have left : ((h.updateSlot cycle refused).contents ++ (sentPackets slotEvents).map PacketWithCycle.packet).Perm h.contents := by
      classical
      refine List.perm_iff_count.mpr fun pkt => ?_
      have parts := List.perm_iff_count.mp split pkt
      have swapped := List.perm_iff_count.mp (@contents_updateSlot h cycle refused) pkt
      simp only [List.count_append] at parts swapped ⊢
      omega
    rw [sentDownstream_append,sentDownstream_downstream]
    by_cases all : refused.isEmpty = true
    · rw [if_pos all] at ends
      obtain ⟨rfl,rfl⟩ := ends
      obtain rfl := List.isEmpty_iff.mp all
      refine ⟨?_,rfl,rfl⟩
      show ((h.updateSlot cycle []).contents ++ (sentPackets slotEvents ++ []).map _).Perm _
      rwa [List.append_nil]
    · rw [if_neg all] at ends
      obtain ⟨rfl,rfl⟩ := ends
      refine ⟨?_,rfl,rfl⟩
      show ((h.updateSlot cycle refused).contents ++ (sentPackets slotEvents ++ []).map _).Perm _
      rwa [List.append_nil]

/-- A call never panics, and what it keeps and sends is what it held and was given. -/
theorem called_spec (h : BufferedLinkType) (call : Call) : ∃ h', (h.called call).1 = some h' ∧
    (h'.contents ++ (sentDownstream (h.called call).2).map PacketWithCycle.packet).Perm (h.contents ++ call.incoming) ∧
    h'.latency = h.latency ∧ h'.bandwidth = h.bandwidth := by
  obtain ⟨h₁,placed,gained⟩ := gained_takeIn h call.cycle call.incoming
  have does := Prog.does_under (h.process call.cycle call.targetCycle call.incoming) call.answers
  change (h.process call.cycle call.targetCycle call.incoming).Does (h.called call).2 (h.called call).1 at does
  unfold process at does
  rw [placed] at does
  obtain ⟨first,h₂,second,events,sent,does⟩ := Prog.does_bind.mp does
  obtain ⟨third,⟨⟩,last,rfl,signalled,rfl,same⟩ := Prog.does_bind.mp does
  obtain ⟨portEvents,_,rfl⟩ := does_atEnd .upstream signalled
  have nothing : sentDownstream (portEvents.map (atLinkEnd .upstream)) = [] := sentDownstream_upstream portEvents
  have kept := does_sendSlot sent
  refine ⟨h₂,same,?_,kept.2.1.trans gained.latency,kept.2.2.trans gained.bandwidth⟩
  rw [events,sentDownstream_append,List.append_nil,nothing,List.append_nil]
  exact kept.1.trans gained.contents

theorem calls_spec : ∀ (history : List Call) (h : BufferedLinkType), ∃ h', (h.calls history).1 = some h' ∧
    (h'.contents ++ ((h.calls history).2.flatMap sentDownstream).map PacketWithCycle.packet).Perm
      (h.contents ++ history.flatMap Call.incoming) ∧ h'.latency = h.latency ∧ h'.bandwidth = h.bandwidth
  | [], h => ⟨h,rfl,List.Perm.refl _,rfl,rfl⟩
  | call :: rest, h => by
    obtain ⟨h₁,returned,first,latency,bandwidth⟩ := called_spec h call
    obtain ⟨h₂,finished,later,latency',bandwidth'⟩ := calls_spec rest h₁
    have split : h.called call = (some h₁,(h.called call).2) := Prod.ext returned rfl
    refine ⟨h₂,?_,?_,latency'.trans latency,bandwidth'.trans bandwidth⟩
    · rw [calls,split]
      exact finished
    · rw [calls,split,List.flatMap_cons,List.flatMap_cons,List.map_append]
      classical
      refine List.perm_iff_count.mpr fun pkt => ?_
      have one := List.perm_iff_count.mp first pkt
      have others := List.perm_iff_count.mp later pkt
      simp only [List.count_append] at one others ⊢
      omega

/-! ### After a reset -/

theorem reset_eq_new (nothing : h.pendingPackets = []) :
    h.reset = newBufferedLinkType h.latency h.bandwidth h.latency_pos h.bandwidth_pos := by
  have emptied : h.slots.map (fun _ => ([] : List PacketWithCycle)) = List.replicate h.latency [] := by
    rw [List.map_const',h.slots_length]
  unfold reset newBufferedLinkType
  simp only [mk.injEq,emptied,nothing,and_self]

theorem forgets_of_nothing (nothing : h.pendingPackets = []) : h.Forgets := by
  intro later
  rw [reset_eq_new nothing]
  refine ⟨rfl,?_⟩
  obtain ⟨h',_,kept,_,_⟩ := calls_spec later (newBufferedLinkType h.latency h.bandwidth h.latency_pos h.bandwidth_pos)
  have empty : (newBufferedLinkType h.latency h.bandwidth h.latency_pos h.bandwidth_pos).contents = [] := by
    unfold contents newBufferedLinkType
    simp
  rw [empty,List.nil_append] at kept
  exact (List.sublist_append_right _ _).subperm.trans kept.subperm

/-- The answers of a downstream component that is always ready, or never. -/
def answering (ready : Bool) : Answers linkPorts := fun _ op =>
  match op with
  | (_,.isReady _) => ready
  | (_,.retrieve _) => []
  | (_,.drainChannel) | (_,.waitDone _) | (_,.updateReady _ _) | (_,.send _) | (_,.markDone _) => ()

/-- All packets are sent when the downstream component is always ready. -/
theorem agreed_sendAll (cycle : Nat) : ∀ {pkts refused : List PacketWithCycle} {events : List (Event portInterface)},
    (sendAll cycle pkts).Does events refused → (∀ answer, ⟨.isReady cycle,answer⟩ ∈ events → answer = true) → refused = []
  | [], refused, events, does, _ => does.2
  | pwc :: rest, refused, events, does, agreed => by
    obtain ⟨first,sent,second,rfl,tried,does⟩ := Prog.does_bind.mp does
    obtain ⟨later,pending,last,rfl,others,rfl,rfl⟩ := Prog.does_bind.mp does
    have nothing := agreed_sendAll cycle others fun answer member => agreed answer (by simp [member])
    cases sent with
    | true => exact nothing
    | false =>
      rw [OutputQueue.does_trySend tried] at agreed
      cases agreed false (by simp)

theorem agreed_sendSlot {events : List (Event linkPorts)} (does : (h.sendSlot cycle).Does events h₁)
    (agreed : ∀ answer, ⟨(.downstream,.isReady cycle),answer⟩ ∈ events → answer = true) :
    (sentDownstream events).Perm (h.getSlot cycle) := by
  obtain ⟨first,ready,second,rfl,asked,later⟩ := Prog.does_bind.mp does
  obtain ⟨portEvents,⟨answer,_,rfl,rfl,rfl⟩,rfl⟩ := does_atEnd .downstream asked
  obtain rfl : ready = true := agreed ready (List.mem_cons_self ..)
  obtain ⟨sent,refused,last,rfl,tried,ends⟩ := Prog.does_bind.mp later
  obtain ⟨slotEvents,offered,rfl⟩ := does_atEnd .downstream tried
  have nothing : refused = [] := by
    refine agreed_sendAll cycle offered fun answer member => agreed answer ?_
    exact List.mem_append_right _ (List.mem_append_left _ (List.mem_map.mpr ⟨_,member,rfl⟩))
  subst nothing
  obtain ⟨rfl,rfl⟩ := ends
  rw [sentDownstream_append,sentDownstream_downstream,sentDownstream_append,sentDownstream_downstream]
  show (sentPackets slotEvents ++ []).Perm _
  rw [List.append_nil]
  exact does_sendAll cycle offered

/-- The first packet that waits finds room in an empty slot. -/
theorem reset_takeIn (waits : h.pendingPackets ≠ []) (late : ∀ pkt ∈ h.pendingPackets, pkt.cycle ≤ cycle) :
    ∃ h', h.reset.takeIn cycle [] = some h' ∧ h'.getSlot cycle ≠ [] := by
  have empty : ∀ i, h.reset.slots.getD i [] = [] := by
    intro i
    show (h.slots.map (fun _ => [])).getD i [] = []
    rw [List.getD_eq_getElem?_getD,List.getElem?_map]
    rcases h.slots[i]? with _ | slot <;> rfl
  have room : (h.reset.getSlot cycle).length ≤ h.reset.bandwidth := by
    rw [show h.reset.getSlot cycle = [] from empty _]
    exact Nat.zero_le _
  obtain ⟨h',placed,held,settled,_⟩ := takeIn_spec [] room (fun i _ => empty i) late
  refine ⟨h',placed,fun nothing => ?_⟩
  rw [nothing,show h.reset.getSlot cycle = [] from empty _,List.map_nil,List.append_nil,List.nil_append,List.nil_append] at held
  have left : h'.pendingPackets ≠ [] := by
    rw [held]
    exact fun none_ => waits (List.map_eq_nil_iff.mp none_)
  have full : ¬ (h'.getSlot cycle).length < h'.bandwidth := of_decide_eq_false (settled.full left)
  rw [nothing] at full
  exact full h'.bandwidth_pos

/-- A packet that waits is sent by a later call that is given nothing. -/
theorem sends_waiting (waits : h.pendingPackets ≠ []) :
    ∃ call : Call, call.incoming = [] ∧ sentDownstream (h.reset.called call).2 ≠ [] := by
  obtain ⟨cycle,late⟩ : ∃ cycle, ∀ pkt ∈ h.pendingPackets, pkt.cycle ≤ cycle :=
    ⟨(h.pendingPackets.map PacketWithCycle.cycle).sum,fun pkt member =>
      List.single_le_sum (fun _ _ => Nat.zero_le _) _ (List.mem_map.mpr ⟨pkt,member,rfl⟩)⟩
  obtain ⟨h',placed,slot⟩ := reset_takeIn waits late
  refine ⟨⟨cycle,cycle,[],answering true⟩,rfl,fun nothing => slot ?_⟩
  have does := Prog.does_under (h.reset.process cycle cycle []) (answering true)
  have given := @Prog.answer_of_under _ _ (h.reset.process cycle cycle []) (answering true)
  change sentDownstream ((h.reset.process cycle cycle []).under (answering true)).2 = [] at nothing
  generalize ((h.reset.process cycle cycle []).under (answering true)).2 = all at does given nothing
  unfold process at does
  rw [placed] at does
  obtain ⟨first,h₂,second,rfl,sent,_⟩ := Prog.does_bind.mp does
  have agreed := agreed_sendSlot sent fun answer member => by
    obtain ⟨n,same⟩ := given (List.mem_append_left _ member)
    exact same
  rw [sentDownstream_append] at nothing
  rw [(List.append_eq_nil_iff.mp nothing).1] at agreed
  exact List.nil_perm.mp agreed

end

/-- After every history of calls, none of which panics, a link type that is reset forgets
    the past exactly when no packet waited behind its slots. -/
theorem reset_forgets_iff (latency bandwidth : Nat) (pos : 0 < latency) (bandwidthPos : 0 < bandwidth) (history : List Call) :
    ∃ h, ((newBufferedLinkType latency bandwidth pos bandwidthPos).calls history).1 = some h ∧ h.latency = latency ∧
      h.bandwidth = bandwidth ∧ (h.Forgets ↔ h.pendingPackets = []) := by
  obtain ⟨h,returned,_,sameLatency,sameBandwidth⟩ := calls_spec history (newBufferedLinkType latency bandwidth pos bandwidthPos)
  refine ⟨h,returned,sameLatency,sameBandwidth,fun forgets => ?_,forgets_of_nothing⟩
  by_contra waits
  obtain ⟨call,given,sends⟩ := sends_waiting waits
  obtain ⟨h',called_,_⟩ := called_spec h.reset call
  have among := (forgets [call]).2
  have split : h.reset.called call = (some h',(h.reset.called call).2) := Prod.ext called_ rfl
  rw [calls,split,List.flatMap_cons,List.flatMap_cons,given,List.map_append] at among
  have none_ := List.subperm_nil.mp among
  exact sends (List.map_eq_nil_iff.mp (List.append_eq_nil_iff.mp none_).1)

/-- A packet in the slot is forgotten. -/
theorem reset_forgets_slot : ∃ h, ((newBufferedLinkType 1 1 (by decide) (by decide)).calls
    [⟨0,0,[{ sourceID := 0, targetID := 1 }],answering false⟩]).1 = some h ∧ h.getOccupancy 1 = [1] ∧ h.Forgets := by
  obtain ⟨h,returned,_,_,forgets⟩ := reset_forgets_iff 1 1 (by decide) (by decide)
    [⟨0,0,[{ sourceID := 0, targetID := 1 }],answering false⟩]
  have held : ((newBufferedLinkType 1 1 (by decide) (by decide)).calls
      [⟨0,0,[{ sourceID := 0, targetID := 1 }],answering false⟩]).1.map (fun h => (h.getOccupancy 1,h.pendingPackets)) =
        some ([1],[]) := by decide +kernel
  rw [returned,Option.map_some] at held
  obtain ⟨slots,nothing⟩ := Prod.mk.inj (Option.some.inj held)
  exact ⟨h,returned,slots,forgets.mpr nothing⟩

/-- Of two packets received in a cycle in which the downstream component is not ready the
    second waits behind the slot, and is sent after the reset. -/
theorem reset_sends_old : ∃ h, ((newBufferedLinkType 1 1 (by decide) (by decide)).calls
    [⟨0,0,[{ sourceID := 0, targetID := 1 },{ sourceID := 0, targetID := 2 }],answering false⟩]).1 = some h ∧
    (h.reset.calls [⟨0,0,[],answering true⟩]).2.flatMap sentDownstream = [⟨0,{ sourceID := 0, targetID := 2 }⟩] ∧
    ¬ h.Forgets := by
  have sends : ((newBufferedLinkType 1 1 (by decide) (by decide)).calls
      [⟨0,0,[{ sourceID := 0, targetID := 1 },{ sourceID := 0, targetID := 2 }],answering false⟩]).1.map
        (fun h => (h.reset.calls [⟨0,0,[],answering true⟩]).2.flatMap sentDownstream) =
          some [⟨0,{ sourceID := 0, targetID := 2 }⟩] := by decide +kernel
  obtain ⟨h,returned,sent⟩ := Option.map_eq_some_iff.mp sends
  refine ⟨h,returned,sent,fun forgets => ?_⟩
  have among := (forgets [⟨0,0,[],answering true⟩]).2
  rw [sent] at among
  exact absurd (List.subperm_nil.mp among) (by simp)

end BufferedLinkType
end FlowSim.Links
