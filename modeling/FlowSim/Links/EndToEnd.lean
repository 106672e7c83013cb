import FlowSim.Links.Backlog
import FlowSim.Links.Downstream
import FlowSim.Queue.Taking

/-!
A buffered link from end to end. Packets that wait in their slot keep the cycle they were
stamped with, and once the queue has read that cycle it never looks for them again. As long
as nothing is due in the cycles that the queue refuses, every packet is stamped with the
cycle in which it is handed on, and the queue receives and stores it there (`end_to_end`).
-/
namespace FlowSim.Links
open FlowSim.Lib FlowSim.AheadPort FlowSim.Queue
set_option linter.unusedSimpArgs false

namespace BufferedLinkType

/-- By the end of the cycle everything received is handed on, or a full bandwidth in it. -/
def Onward (received : Nat → List Packet) (bandwidth cycle : Nat) (pkts : List PacketWithCycle) : Prop :=
  (pkts.filter (fun pwc => pwc.cycle ≤ cycle)).length = (received (cycle + 1)).length ∨ (stamped cycle pkts).length = bandwidth

/-- Nothing is due in a cycle that is refused. -/
def Idle (_cycle : Nat) (ready : Bool) (due : Nat) : Prop := ready = false → due = 0

instance (cycle : Nat) (ready : Bool) (due : Nat) : Decidable (Idle cycle ready due) :=
  inferInstanceAs (Decidable (_ → _))

theorem Onward.stays {received : Nat → List Packet} {bandwidth cycle : Nat} {pwc : PacketWithCycle} {pkts : List PacketWithCycle}
    (later : cycle < pwc.cycle) (onward : Onward received bandwidth cycle pkts) : Onward received bandwidth cycle (pkts ++ [pwc]) := by
  have new : [pwc].filter (fun pwc => pwc.cycle ≤ cycle) = [] := List.filter_cons_of_neg (by simpa using later)
  have unstamped : stamped cycle [pwc] = [] := by
    rw [stamped_singleton,if_neg (by omega)]
  unfold Onward
  rw [List.filter_append,new,List.append_nil,stamped_append,unstamped,List.append_nil]
  exact onward

/-- How a buffered link at which these packets arrive hands them on. -/
def passing (arrivals : Nat → List Packet) (latency bandwidth : Nat) : Manner where
  received := receivedBefore arrivals latency
  room := fun _ => bandwidth
  condition := Idle
  through := Onward (receivedBefore arrivals latency) bandwidth
  grows := receivedBefore_prefix arrivals latency
  stays := Onward.stays

section
variable {arrivals : Nat → List Packet} {latency bandwidth : Nat}

/-- What holds of a link before the tick of a cycle. -/
structure Between (arrivals : Nat → List Packet) (latency cycle : Nat) (h : BufferedLinkType) (s : EndRecord) : Prop where
  marked : s.marked + 1 = cycle
  asked : s.asked < cycle
  refused : s.refused ≤ s.asked
  upTo : ∀ pwc ∈ s.accepted, pwc.cycle < cycle
  empty : ∀ i, h.slots.getD i [] = []
  early : ∀ pkt ∈ h.pendingPackets, pkt.cycle ≤ cycle
  held : s.accepted.map PacketWithCycle.packet ++ h.pendingPackets.map PacketWithCycle.packet =
    receivedBefore arrivals latency cycle

/-- The programs of a tick at the downstream port, once the packets are placed. -/
theorem downstreamOf_tick {l : Link BufferedLinkType} {cycle : Nat} {h : BufferedLinkType}
    (placed : l.state.takeIn cycle (incomingAt arrivals l.latency cycle) = some h) (targetCycle : Nat) :
    downstreamOf arrivals (l.tick linkType cycle targetCycle) = (do
      let ready ← isReady cycle
      let h ← if ready then do
          let pendingInSlot ← sendAll cycle (h.getSlot cycle)
          if pendingInSlot.isEmpty then pure (h.clearSlot cycle)
          else pure { h.updateSlot cycle pendingInSlot with totalBackpressure := h.totalBackpressure + 1 }
        else pure { h with totalBackpressure := h.totalBackpressure + 1 }
      markDone cycle
      return some { l with currentCycle := cycle, state := h }) := by
  rw [Link.tick,downstreamOf_bind,downstreamOf_incoming,Prog.done_bind,downstreamOf_bind]
  show downstreamOf arrivals (process l.state cycle targetCycle (incomingAt arrivals l.latency cycle)) >>= _ = _
  unfold process
  rw [placed]
  dsimp only
  unfold sendSlot
  simp only [downstreamOf_bind,downstreamOf_atEnd,Prog.bind_assoc]
  congr 1
  funext ready
  cases ready with
  | true =>
    simp only [if_true,downstreamOf_bind,downstreamOf_atEnd,Prog.bind_assoc]
    congr 1
    funext pendingInSlot
    split_ifs
    · rfl
    · rfl
  | false => rfl

variable {cycle : Nat} {s : EndRecord}

/-- Sending packets of a cycle that was granted. -/
theorem keeps_sendAll : ∀ (pkts : List PacketWithCycle) (rest : List Packet) {s : EndRecord}, s.marked + 1 = cycle →
    s.asked = cycle → s.granted = cycle → s.refused < cycle → (∀ pwc ∈ pkts, pwc.cycle = cycle) →
    (s.acceptedFor cycle).length + pkts.length ≤ bandwidth →
    s.accepted.map PacketWithCycle.packet ++ pkts.map PacketWithCycle.packet ++ rest = receivedBefore arrivals latency (cycle + 1) →
      Keeps (handing (passing arrivals latency bandwidth)) (sendAll cycle pkts)
        (fun s' pending => pending = [] ∧ s' = { s with accepted := s.accepted ++ pkts }) s
  | [], _, _, _, _, _, _, _, _, _ => by
    rw [List.append_nil]
    exact ⟨rfl,rfl⟩
  | pwc :: pkts, rest, s, marked, asked, granted, refused, now, fits, order => by
    obtain ⟨here,others⟩ := List.forall_mem_cons.mp now
    rw [sendAll]
    refine ⟨marked.symm,fun ready learned => ?_⟩
    obtain rfl : ready = true := learned.2 asked
    have same : s.grow (.isReady cycle) true = s := by
      have again : max s.asked (cycle : Int) = s.asked := by omega
      show { s with asked := max s.asked (cycle : Int), granted := (cycle : Int) } = s
      rw [again,← granted]
    rw [handing_grow,same]
    have few : (s.acceptedFor pwc.cycle).length < bandwidth := by
      rw [here]
      rw [List.length_cons] at fits
      omega
    have before : s.accepted.map PacketWithCycle.packet ++ [pwc.packet] <+: receivedBefore arrivals latency (pwc.cycle + 1) := by
      refine ⟨pkts.map PacketWithCycle.packet ++ rest,?_⟩
      rw [here,← order,List.map_cons]
      simp only [List.append_assoc,List.cons_append,List.nil_append]
    refine ⟨⟨by omega,by rw [here]; exact granted,by omega,few,before⟩,fun _ _ => ?_⟩
    have grown : s.grow (.send pwc) () = { s with accepted := s.accepted ++ [pwc] } := if_pos (by omega)
    rw [handing_grow,grown]
    refine (@keeps_sendAll pkts rest { s with accepted := s.accepted ++ [pwc] } marked asked granted refused others ?_ ?_).bind ?_
    · show (stamped cycle (s.accepted ++ [pwc])).length + _ ≤ _
      rw [stamped_append,stamped_singleton,if_pos here,List.length_append,List.length_singleton]
      rw [List.length_cons] at fits
      exact (Nat.add_right_comm ..).trans_le (by simpa [EndRecord.acceptedFor,Nat.add_assoc] using fits)
    · rw [← order]
      simp
    · rintro _ _ ⟨rfl,rfl⟩
      refine ⟨rfl,?_⟩
      simp only [List.append_assoc,List.singleton_append]

/-- What is placed in the tick of a cycle. -/
theorem Between.takeIn {h : BufferedLinkType} (between : Between arrivals latency cycle h s) : ∃ h',
    h.takeIn cycle (incomingAt arrivals latency cycle) = some h' ∧ Settled cycle h' ∧ h'.bandwidth = h.bandwidth ∧
      (∀ pwc ∈ h'.getSlot cycle, pwc.cycle = cycle) ∧
      s.accepted.map PacketWithCycle.packet ++ (h'.getSlot cycle).map PacketWithCycle.packet ++
        h'.pendingPackets.map PacketWithCycle.packet = receivedBefore arrivals latency (cycle + 1) := by
  have nothing : h.getSlot cycle = [] := between.empty _
  obtain ⟨h',placed,held,settled,_,_,bandwidth⟩ := takeIn_spec (incomingAt arrivals latency cycle)
    (by rw [nothing]; exact Nat.zero_le _) (fun i _ => between.empty i) between.early
  rw [nothing,List.nil_append] at held
  refine ⟨h',placed,settled,bandwidth,fun pwc member => ?_,?_⟩
  · have all : pwc ∈ h.pendingPackets.map (retarget cycle) ++ (incomingAt arrivals latency cycle).map (PacketWithCycle.mk cycle) :=
      held ▸ List.mem_append_left _ member
    rcases List.mem_append.mp all with waited | fresh
    · obtain ⟨old,waits,rfl⟩ := List.mem_map.mp waited
      have early := between.early old waits
      unfold retarget
      split_ifs with late
      · rfl
      · omega
    · obtain ⟨_,_,rfl⟩ := List.mem_map.mp fresh
      rfl
  · have fresh : ((incomingAt arrivals latency cycle).map (PacketWithCycle.mk cycle)).map PacketWithCycle.packet =
        incomingAt arrivals latency cycle := by
      rw [List.map_map]
      exact List.map_id _
    rw [List.append_assoc,← List.map_append,held,List.map_append,packet_retarget,fresh,← List.append_assoc,between.held,
      receivedBefore_succ]

/-- At the end of a tick the slot was full, or nothing waits. -/
theorem onward_of_settled {h : BufferedLinkType} (settled : Settled cycle h)
    (now : ∀ pwc ∈ h.getSlot cycle, pwc.cycle = cycle) (upTo : ∀ pwc ∈ s.accepted, pwc.cycle < cycle)
    (order : s.accepted.map PacketWithCycle.packet ++ (h.getSlot cycle).map PacketWithCycle.packet ++
      h.pendingPackets.map PacketWithCycle.packet = receivedBefore arrivals latency (cycle + 1)) :
    Onward (receivedBefore arrivals latency) h.bandwidth cycle (s.accepted ++ h.getSlot cycle) := by
  by_cases nothing : h.pendingPackets = []
  · left
    have all : (s.accepted ++ h.getSlot cycle).filter (fun pwc => pwc.cycle ≤ cycle) = s.accepted ++ h.getSlot cycle := by
      refine List.filter_eq_self.mpr fun pwc member => decide_eq_true ?_
      rcases List.mem_append.mp member with old | new
      · exact (upTo pwc old).le
      · exact (now pwc new).le
    rw [all,← order,nothing,List.map_nil,List.append_nil,← List.map_append,List.length_map]
  · right
    have old : stamped cycle s.accepted = [] :=
      stamped_eq_nil fun pwc member same => Nat.lt_irrefl _ (same ▸ upTo pwc member)
    have new : (h.getSlot cycle).filter (fun pwc => pwc.cycle = cycle) = h.getSlot cycle :=
      List.filter_eq_self.mpr fun pwc member => decide_eq_true (now pwc member)
    have full : ¬ (h.getSlot cycle).length < h.bandwidth := of_decide_eq_false (settled.full nothing)
    have room := settled.room
    rw [stamped_append,old,List.nil_append,stamped,new,List.length_map]
    omega

/-- A tick hands on as it should, if it finds nothing due when it is refused. -/
theorem keeps_tick {l : Link BufferedLinkType} (targetCycle : Nat)
    (between : Between arrivals l.latency l.currentCycle l.state s) :
    Keeps (handing (passing arrivals l.latency l.state.bandwidth))
      (downstreamOf arrivals (l.tick linkType l.currentCycle targetCycle))
      (fun s' answer => ∃ h, answer = some { l with state := h } ∧ h.bandwidth = l.state.bandwidth ∧
        Between arrivals l.latency (l.currentCycle + 1) h s') s := by
  obtain ⟨h,placed,settled,bandwidth,now,order⟩ := between.takeIn
  have marked := between.marked
  have asked := between.asked
  have refused := between.refused
  have onward := onward_of_settled settled now between.upTo order
  rw [bandwidth] at onward
  rw [downstreamOf_tick placed]
  refine ⟨marked.symm,fun ready learned => ?_⟩
  have idle : Idle l.currentCycle ready (due (receivedBefore arrivals l.latency) s l.currentCycle) := learned.1 asked
  have latest : max s.asked (l.currentCycle : Int) = l.currentCycle := by omega
  cases ready with
  | true =>
    refine (@keeps_sendAll _ _ _ _ (h.getSlot l.currentCycle) (h.pendingPackets.map PacketWithCycle.packet)
      (s.grow (.isReady l.currentCycle) true) marked latest rfl ?_ now ?_ order).bind ?_
    · show s.refused < (l.currentCycle : Int)
      omega
    · have unsent : s.acceptedFor l.currentCycle = [] :=
        stamped_eq_nil fun pwc member same => Nat.lt_irrefl _ (same ▸ between.upTo pwc member)
      show (s.acceptedFor l.currentCycle).length + _ ≤ _
      rw [unsent,List.length_nil,Nat.zero_add,← bandwidth]
      exact settled.room
    · rintro _ _ ⟨rfl,rfl⟩
      refine ⟨⟨marked.symm,onward⟩,fun _ _ => ⟨h.clearSlot l.currentCycle,rfl,bandwidth,rfl,?_,?_,?_,?_,?_,?_⟩⟩
      · show max s.asked (l.currentCycle : Int) < ((l.currentCycle + 1 : Nat) : Int)
        omega
      · show s.refused ≤ max s.asked (l.currentCycle : Int)
        omega
      · intro pwc member
        rcases List.mem_append.mp member with old | new
        · exact Nat.lt_succ_of_lt (between.upTo pwc old)
        · exact (now pwc new).trans_lt (Nat.lt_succ_self _)
      · exact settled.alone.clearSlot
      · exact fun pkt waits => (settled.due pkt waits).le.trans (Nat.le_succ _)
      · show (s.accepted ++ h.getSlot l.currentCycle).map PacketWithCycle.packet ++ h.pendingPackets.map _ = _
        rw [List.map_append]
        exact order
  | false =>
    -- nothing is due, so the slot is empty and nothing waits
    have none_due := idle rfl
    unfold due at none_due
    rw [← order] at none_due
    simp only [List.length_append,List.length_map] at none_due
    have empty : h.getSlot l.currentCycle = [] := List.length_eq_zero_iff.mp (by omega)
    have nothing : h.pendingPackets = [] := List.length_eq_zero_iff.mp (by omega)
    rw [empty,List.append_nil] at onward
    refine ⟨⟨marked.symm,onward⟩,fun _ _ =>
      ⟨{ h with totalBackpressure := h.totalBackpressure + 1 },rfl,bandwidth,rfl,?_,?_,?_,?_,?_,?_⟩⟩
    · show max s.asked (l.currentCycle : Int) < ((l.currentCycle + 1 : Nat) : Int)
      omega
    · exact le_max_right _ _
    · exact fun pwc member => Nat.lt_succ_of_lt (between.upTo pwc member)
    · intro i
      by_cases here : i = h.slotIndex l.currentCycle
      · rw [here]
        exact empty
      · exact settled.alone i here
    · intro pkt waits
      rw [show ({ h with totalBackpressure := h.totalBackpressure + 1 } : BufferedLinkType).pendingPackets = [] from nothing] at waits
      cases waits
    · rw [empty,List.map_nil,List.append_nil] at order
      exact order

theorem keeps_tickCycles (targetCycle : Nat) : ∀ (cycles : Nat) (l : Link BufferedLinkType) {s : EndRecord},
    Between arrivals l.latency l.currentCycle l.state s →
      Keeps (handing (passing arrivals l.latency l.state.bandwidth))
        (downstreamOf arrivals (l.tickCycles linkType targetCycle cycles)) (fun _ _ => True) s
  | 0, _, _, _ => trivial
  | cycles + 1, l, s, between => by
    rw [Link.tickCycles,downstreamOf_bind]
    refine (keeps_tick targetCycle between).bind ?_
    rintro s' _ ⟨h,rfl,kept,after⟩
    rw [← kept]
    exact keeps_tickCycles targetCycle cycles { l with currentCycle := l.currentCycle + 1, state := h } after

theorem between_new (pos : 0 < latency) (bandwidthPos : 0 < bandwidth) :
    Between arrivals latency 0 (newBufferedLinkType latency bandwidth pos bandwidthPos) .initial where
  marked := rfl
  asked := by decide
  refused := le_refl _
  upTo := fun _ member => absurd member List.not_mem_nil
  empty := by
    intro i
    show (List.replicate latency []).getD i [] = []
    rw [List.getD_eq_getElem?_getD,List.getElem?_replicate]
    split_ifs
    · rfl
    · rfl
  early := fun _ member => absurd member List.not_mem_nil
  held := rfl

end
/-! ### Whole runs -/

/-- What a sender and a watched queue behind it return. -/
abbrev Watched (α : Type) : Side → Type
  | .sender => α
  | .receiver => Option String × InputQueue × List Packet

/-- A new link at which these packets arrive, and a new queue behind it that is watched, on
    a port. -/
def linkAndQueue (sync : ComponentSync) (sortSlice : SliceSort) (calls : Nat → InputQueue → List InputQueue.QueueCall)
    (arrivals : Nat → List Packet) (latency bandwidth : Nat) (pos : 0 < latency) (bandwidthPos : 0 < bandwidth)
    (targetCycle cycles capacity inBandwidth : Nat) (capacityPos : 0 < capacity) (inBandwidthPos : 0 < inBandwidth) :
    Config portInterface Port (Watched (Option (Link BufferedLinkType))) :=
  Config.start { Port.newPort with downstreamSync := sync } fun
    | .sender => downstreamOf arrivals
        ((Link.newLink latency (newBufferedLinkType latency bandwidth pos bandwidthPos)).advanceTo linkType targetCycle)
    | .receiver => InputQueue.watchedQueue sortSlice calls cycles 0
        (InputQueue.newInputQueue capacity inBandwidth capacityPos inBandwidthPos) []

/-- What is handed on by the end of a cycle was sent at least the latency before, and keeps
    its order; the link goes on with all it has or with a full bandwidth; what is handed on
    in a cycle is what the queue receives in that cycle, or is still on its way for it; and
    what the queue has received waits or was taken out. -/
structure EndToEnd {α : Type} (arrivals : Nat → List Packet) (latency bandwidth cycles : Nat)
    (c : Config portInterface Port (Watched α)) : Prop where
  delayed : ∀ cycle, ((handedOn (c.log .sender)).filter (fun pwc => pwc.cycle ≤ cycle)).map PacketWithCycle.packet <+:
    (List.range (cycle + 1 - latency)).flatMap arrivals
  onward : ∀ cycle < marks (c.log .sender), Onward (receivedBefore arrivals latency) bandwidth cycle (handedOn (c.log .sender))
  read : ∀ cycle pkts, (taken c).returned[cycle]? = some pkts → pkts = stamped cycle (handedOn (c.log .sender))
  unread : ∀ cycle, (taken c).returned.length ≤ cycle → c.shared.inFlight cycle = stamped cycle (handedOn (c.log .sender))
  stored : ∀ error iq out, c.prog .receiver = .done (error,iq,out) → error = none ∧
    (iq.packets ++ out).Perm ((List.range cycles).flatMap fun cycle => stamped cycle (handedOn (c.log .sender)))

/-- A list is what its entries are, in turn. -/
theorem flatten_eq_flatMap {α : Type} (f : Nat → List α) : ∀ (lists : List (List α)),
    (∀ i list, lists[i]? = some list → list = f i) → lists.flatten = (List.range lists.length).flatMap f := by
  intro lists
  induction lists using List.reverseRecOn with
  | nil => exact fun _ => rfl
  | append_singleton lists last ih =>
    intro entries
    rw [List.flatten_append,List.length_append,List.length_singleton,List.range_succ,List.flatMap_append,
      ih fun i list found => entries i list ((List.getElem?_append_left (List.getElem?_eq_some_iff.mp found).1).trans found),
      entries lists.length last List.getElem?_concat_length]
    simp

/-- In a run in which nothing is due in the cycles that the queue refuses, whatever arrives
    and whatever the node takes out of the queue, a packet goes through the link and into
    the queue without loss. -/
theorem end_to_end (sortSlice : SliceSort) (calls : Nat → InputQueue → List InputQueue.QueueCall)
    (arrivals : Nat → List Packet) (latency bandwidth : Nat) (pos : 0 < latency) (bandwidthPos : 0 < bandwidth)
    (targetCycle cycles capacity inBandwidth : Nat) (capacityPos : 0 < capacity) (inBandwidthPos : 0 < inBandwidth)
    (wide : bandwidth ≤ inBandwidth) (large : 2 * inBandwidth ≤ capacity) :
    ∃ sync, (InputQueue.newInputQueue capacity inBandwidth capacityPos inBandwidthPos).setUpstreamPort
        Port.newPort.downstreamSync = some sync ∧
      ∀ c, Reaches (fun c side => portMachine.step side c) (Finds Idle (receivedBefore arrivals latency))
        (linkAndQueue sync sortSlice calls arrivals latency bandwidth pos bandwidthPos targetCycle cycles capacity inBandwidth
          capacityPos inBandwidthPos) c →
      EndToEnd arrivals latency bandwidth cycles c := by
  have room : (InputQueue.newInputQueue capacity inBandwidth capacityPos inBandwidthPos).length <
      (InputQueue.newInputQueue capacity inBandwidth capacityPos inBandwidthPos).capacity := by
    simpa [InputQueue.capacity,InputQueue.newInputQueue] using capacityPos
  have both : (InputQueue.newInputQueue capacity inBandwidth capacityPos inBandwidthPos).setUpstreamPort
      Port.newPort.downstreamSync = some { done := -1, readyUntil := 2, readyStates := [] } := by
    rw [InputQueue.setUpstreamPort,decide_eq_true room]
    rfl
  refine ⟨_,both,fun c reach => ?_⟩
  have standing := InputQueue.standing_new capacityPos inBandwidthPos large
  have started : Joined (passing arrivals latency bandwidth) inBandwidth
      (fun r op => some inBandwidth ≠ none → KeepsPromises r op)
      (fun r result => result.1 = none ∧ r.returned.length = 0 + cycles ∧
        (result.2.1.packets ++ result.2.2).Perm r.returned.flatten)
      (fun _ _ => True)
      (linkAndQueue { done := -1, readyUntil := 2, readyStates := [] } sortSlice calls arrivals latency bandwidth pos bandwidthPos
        targetCycle cycles capacity inBandwidth capacityPos inBandwidthPos) := by
    refine ⟨⟨InputQueue.setUpstreamPort_linked _ room both,?_⟩,?_,handed_new⟩
    · refine InputQueue.keeps_watchedQueue sortSlice calls cycles standing ?_
      have empty : (InputQueue.newInputQueue capacity inBandwidth capacityPos inBandwidthPos).packets = [] := by
        rw [← List.length_eq_zero_iff,InputQueue.length_packets]
        rfl
      rw [empty]
      exact .refl _
    · exact keeps_tickCycles targetCycle _ (Link.newLink latency (newBufferedLinkType latency bandwidth pos bandwidthPos))
        (between_new pos bandwidthPos)
  have joined := started.reach (fun _ => wide) reach
  have told := joined.told
  have linked : Linked (some inBandwidth) c.shared.exchange (Links.handed c) (taken c) := joined.attended.linked
  have read : ∀ cycle pkts, (taken c).returned[cycle]? = some pkts → pkts = stamped cycle (handedOn (c.log .sender)) := by
    intro cycle pkts found
    obtain ⟨inside,rfl⟩ := List.getElem?_eq_some_iff.mp found
    rw [told.sent]
    exact linked.returned cycle inside
  refine ⟨?_,?_,read,?_,?_⟩
  · rw [told.sent]
    intro cycle
    rw [← receivedBefore_eq]
    exact told.delayed cycle
  · rw [told.sent]
    intro cycle done
    have marked := told.marked
    exact told.through cycle (by omega)
  · rw [told.sent]
    exact linked.inFlight
  · intro error iq out finished
    have keeps := joined.attended.keeps
    rw [finished,keeps_done] at keeps
    obtain ⟨fine,length,all⟩ := keeps
    refine ⟨fine,?_⟩
    have length : (taken c).returned.length = cycles := length.trans (Nat.zero_add _)
    have received := flatten_eq_flatMap (fun cycle => stamped cycle (handedOn (c.log .sender))) (taken c).returned read
    rw [length] at received
    exact received ▸ all

/-- The packet that is sent in one of the first cycles. -/
def numbered (count cycle : Nat) : List Packet :=
  if cycle < count then [{ sourceID := 0, targetID := 1, data := cycle.toUInt64 }] else []

/-- Two packets, and a queue with room for them that refuses cycle 3. -/
theorem end_to_end_two_packets : ∃ c,
    Reaches (fun c side => portMachine.step side c) (Finds Idle (receivedBefore (numbered 2) 1))
      (linkAndQueue { done := -1, readyUntil := 2, readyStates := [] } stableSort (fun _ _ => []) (numbered 2) 1 1
        (by decide) (by decide) 3 4 2 1 (by decide) (by decide)) c ∧
    (handedOn (c.log .sender)).length = 2 ∧ (Links.taken c).decisions[3]? = some false ∧ EndToEnd (numbered 2) 1 1 4 c := by
  obtain ⟨sync,connected,whole⟩ := end_to_end stableSort (fun _ _ => []) (numbered 2) 1 1 (by decide) (by decide) 3 4 2 1
    (by decide) (by decide) (by decide) (by decide)
  obtain rfl : { done := -1, readyUntil := 2, readyStates := [] } = sync := Option.some.inj connected
  -- the link goes on until it has to wait, and then the queue does
  let schedule : List Side := (List.zipWith List.replicate [6,11,4,5,2,3]
    [.sender,.receiver,.sender,.receiver,.sender,.receiver]).flatten
  have counts : (runActions (fun c side => portMachine.step side c) (Finds Idle (receivedBefore (numbered 2) 1)) schedule
      (linkAndQueue { done := -1, readyUntil := 2, readyStates := [] } stableSort (fun _ _ => []) (numbered 2) 1 1
        (by decide) (by decide) 3 4 2 1 (by decide) (by decide))).map
      (fun c => ((handedOn (c.log .sender)).length,(Links.taken c).decisions[3]?)) = some (2,some false) := by decide +kernel
  obtain ⟨c,ran,both⟩ := Option.map_eq_some_iff.mp counts
  obtain ⟨sent,refused⟩ := Prod.mk.inj both
  have reached := reaches_runActions schedule ran
  exact ⟨c,reached,sent,refused,whole c reached⟩

/-- Three packets, each sent in a cycle that the link has signalled ready. The third is due in
    cycle 3, which the queue refuses until the node has picked the other two; it is handed on
    in cycle 4 with the stamp of cycle 3, and the queue, which has read that cycle, never
    receives it. -/
theorem stale_packet_lost :
    let start := linkAndQueue { done := -1, readyUntil := 2, readyStates := [] } stableSort
      (fun cycle _ => if cycle = 2 then [.pick] else []) (numbered 3) 1 1 (by decide) (by decide) 4 5 2 1 (by decide) (by decide)
    let pkt : Packet := { sourceID := 0, targetID := 1, data := 2 }
    (∃ s, Reaches (LinkSession.step linkType) (LinkSession.Obedient 1)
        (LinkSession.connected 1 1 (by decide) (by decide)) s ∧ s.world.received = [0,1,2].flatMap (numbered 3)) ∧
    (InputQueue.newInputQueue 2 1 (by decide) (by decide)).setUpstreamPort Port.newPort.downstreamSync =
      some start.shared.downstreamSync ∧
    ∃ c, portMachine.Reach start c ∧ c.Finished .sender ∧ c.Finished .receiver ∧ ⟨4,pkt⟩ ∈ handedOn (c.log .sender) ∧
      (Links.taken c).returned[4]? = some [] ∧ c.shared.pendingPackets 3 = [pkt] ∧ ¬ EndToEnd (numbered 3) 1 1 5 c := by
  intro start pkt
  refine ⟨?_,rfl,?_⟩
  · let pwc (cycle : Nat) : PacketWithCycle := ⟨cycle,{ sourceID := 0, targetID := 1, data := cycle.toUInt64 }⟩
    let actions : List LinkAction := [.upstream (.send (pwc 0)),.upstream (.markDone 0),.upstream (.send (pwc 1)),
      .upstream (.markDone 1),.downstream (.updateReady 0 true),.downstream (.updateReady 1 true),.tick 4,.tick 4,
      .upstream (.send (pwc 2)),.upstream (.markDone 2),.downstream (.updateReady 2 true),.tick 4,
      .downstream (.updateReady 3 false),.tick 4]
    have all : (runActions (LinkSession.step linkType) (LinkSession.Obedient 1) actions
        (LinkSession.connected 1 1 (by decide) (by decide))).map (fun s => s.world.received) =
        some ([0,1,2].flatMap (numbered 3)) := by decide +kernel
    obtain ⟨s,ran,received⟩ := Option.map_eq_some_iff.mp all
    exact ⟨s,reaches_runActions actions ran,received⟩
  · let schedule : List Side := (List.replicate 60 [Side.sender,Side.receiver]).flatten
    obtain ⟨c,reached,sent,received,waits,ended⟩ : ∃ c, portMachine.Reach start c ∧ ⟨4,pkt⟩ ∈ handedOn (c.log .sender) ∧
        (Links.taken c).returned[4]? = some [] ∧ c.shared.pendingPackets 3 = [pkt] ∧
        c.Finished .sender ∧ c.Finished .receiver :=
      ⟨_,Machine.reach_run schedule start,by decide +kernel⟩
    refine ⟨c,reached,ended.1,ended.2,sent,received,waits,fun whole => ?_⟩
    have nothing := whole.read 4 [] received
    have here : pkt ∈ stamped 4 (handedOn (c.log .sender)) := List.mem_map_of_mem (List.mem_filter.mpr ⟨sent,rfl⟩)
    rw [← nothing] at here
    cases here

end BufferedLinkType
end FlowSim.Links
