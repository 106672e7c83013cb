import FlowSim.Links.BufferlessLinkType
import FlowSim.Links.Downstream

/-!
When a bufferless link respects the readiness of the queue behind it. A refused question
makes the next one for the same cycle succeed, so the link hands on all but the first of the
packets that are due in a refused cycle; and in a cycle that is granted it hands on
everything. `readiness_respected` says which runs keep to what the queue has promised.
-/
namespace FlowSim.Links
open FlowSim.Lib FlowSim.AheadPort FlowSim.Queue
set_option linter.unusedSimpArgs false

namespace BufferlessLinkType

/-- What is handed on in a tick of a link at which these packets arrive. -/
theorem downstreamOf_tick (arrivals : Nat → List Packet) (l : Link BufferlessLinkType) (cycle targetCycle : Nat) :
    downstreamOf arrivals (l.tick linkType cycle targetCycle) = (do
      let h ← l.state.retry cycle
      let h ← (incomingAt arrivals l.latency cycle).foldlM (offer cycle) h
      markDone cycle
      return some { l with currentCycle := cycle, state := h }) := by
  rw [Link.tick,downstreamOf_bind,downstreamOf_incoming,Prog.done_bind,downstreamOf_bind]
  show downstreamOf arrivals (process l.state cycle targetCycle (incomingAt arrivals l.latency cycle)) >>= _ = _
  unfold process
  simp only [downstreamOf_bind,downstreamOf_atEnd,downstreamOf_updateReady,Prog.bind_assoc,Prog.done_bind,Prog.pure_eq,
    downstreamOf_done]

/-- A full burst, and in cycle 0 no more than the queue can hold. -/
def burst (capacity inBandwidth cycle : Nat) : Nat := if cycle = 0 then min inBandwidth capacity else inBandwidth

/-- The packets that are due fit into a burst when the cycle is granted, and there is at most
    one of them when it is refused. -/
def Fits (capacity inBandwidth cycle : Nat) (ready : Bool) (due : Nat) : Prop :=
  due ≤ if ready then burst capacity inBandwidth cycle else 1

instance (capacity inBandwidth cycle : Nat) (ready : Bool) (due : Nat) : Decidable (Fits capacity inBandwidth cycle ready due) :=
  inferInstanceAs (Decidable (_ ≤ _))

theorem burst_le (capacity inBandwidth cycle : Nat) : burst capacity inBandwidth cycle ≤ inBandwidth := by
  unfold burst
  split_ifs
  · exact Nat.min_le_left _ _
  · exact le_refl _

/-- How a link at which these packets arrive hands them on. -/
def respectful (arrivals : Nat → List Packet) (latency capacity inBandwidth : Nat) : Manner where
  received := receivedBefore arrivals latency
  room := burst capacity inBandwidth
  condition := Fits capacity inBandwidth
  through := fun _ _ => True
  grows := receivedBefore_prefix arrivals latency
  stays := fun _ _ => trivial

section
variable {arrivals : Nat → List Packet} {latency capacity inBandwidth : Nat}

/-- The discipline of such a link. -/
abbrev respecting (arrivals : Nat → List Packet) (latency capacity inBandwidth : Nat) : Discipline portInterface EndRecord :=
  handing (respectful arrivals latency capacity inBandwidth)

/-- What holds of a link before the tick of a cycle. -/
structure Between (arrivals : Nat → List Packet) (latency cycle : Nat) (h : BufferlessLinkType) (s : EndRecord) : Prop where
  marked : s.marked + 1 = cycle
  asked : s.asked < cycle
  granted : s.granted ≤ s.asked
  refused : s.refused ≤ s.asked
  upTo : ∀ pwc ∈ s.accepted, pwc.cycle < cycle
  now : ∀ k, k ≠ cycle → h.waiting k = []
  held : s.accepted.map PacketWithCycle.packet ++ (h.waiting cycle).map PacketWithCycle.packet =
    receivedBefore arrivals latency cycle

/-- How far the link has got with the packets due in a cycle: it has not asked, it was granted
    the cycle and sends, or it was refused and keeps the only packet. -/
inductive Stage (capacity inBandwidth cycle : Nat) (h : BufferlessLinkType) (s : EndRecord) (rest : List Packet) : Prop where
  | unasked (asked : s.asked < cycle) (nothing : h.waiting (cycle + 1) = []) (unsent : s.acceptedFor cycle = [])
  | granted (asked : s.asked = cycle) (granted : s.granted = cycle) (refused : s.refused < cycle)
      (nothing : h.waiting (cycle + 1) = [])
      (fits : (s.acceptedFor cycle).length + rest.length ≤ burst capacity inBandwidth cycle)
  | refused (asked : s.asked = cycle) (granted : s.granted < cycle) (only : rest = [])

/-- What holds within the tick of a cycle, with the packets that are still to be offered. -/
structure Offering (arrivals : Nat → List Packet) (latency capacity inBandwidth cycle : Nat) (h : BufferlessLinkType)
    (s : EndRecord) (rest : List Packet) : Prop where
  marked : s.marked + 1 = cycle
  granted : s.granted ≤ s.asked
  refused : s.refused ≤ s.asked
  upTo : ∀ pwc ∈ s.accepted, pwc.cycle ≤ cycle
  now : ∀ k, k ≠ cycle + 1 → h.waiting k = []
  held : s.accepted.map PacketWithCycle.packet ++ (h.waiting (cycle + 1)).map PacketWithCycle.packet ++ rest =
    receivedBefore arrivals latency (cycle + 1)
  stage : Stage capacity inBandwidth cycle h s rest

variable {cycle : Nat} {h : BufferlessLinkType} {s : EndRecord} {pkt : Packet} {rest : List Packet}

/-- The packet is sent in a cycle that was granted. -/
theorem Offering.send (offering : Offering arrivals latency capacity inBandwidth cycle h s (pkt :: rest))
    (asked : s.asked = cycle) (granted : s.granted = cycle) (refused : s.refused < cycle) (nothing : h.waiting (cycle + 1) = [])
    (fits : (s.acceptedFor cycle).length + rest.length + 1 ≤ burst capacity inBandwidth cycle) :
    (respecting arrivals latency capacity inBandwidth).pre s (.send ⟨cycle,pkt⟩) ∧
      Offering arrivals latency capacity inBandwidth cycle h (s.grow (.send ⟨cycle,pkt⟩) ()) rest := by
  have marked := offering.marked
  have held := offering.held
  rw [nothing,List.map_nil,List.append_nil] at held
  have order : s.accepted.map PacketWithCycle.packet ++ [pkt] ++ rest = receivedBefore arrivals latency (cycle + 1) := by
    rw [List.append_assoc]
    exact held
  refine ⟨⟨marked.symm,granted,refused,?_,⟨rest,order⟩⟩,?_⟩
  · show (s.acceptedFor cycle).length < burst capacity inBandwidth cycle
    omega
  have grown : s.grow (.send ⟨cycle,pkt⟩) () = { s with accepted := s.accepted ++ [⟨cycle,pkt⟩] } :=
    if_pos (show s.marked < (cycle : Int) by omega)
  rw [grown]
  refine ⟨marked,offering.granted,offering.refused,?_,offering.now,?_,.granted asked granted refused nothing ?_⟩
  · intro pwc member
    rcases List.mem_append.mp member with old | new
    · exact offering.upTo pwc old
    · rw [List.mem_singleton.mp new]
  · rw [nothing,List.map_append,List.map_nil,List.append_nil]
    exact order
  · show (stamped cycle (s.accepted ++ [⟨cycle,pkt⟩])).length + _ ≤ _
    rw [stamped_append,stamped_singleton,if_pos rfl,List.length_append,List.length_singleton,Nat.add_right_comm]
    exact fits

/-- Offering the next packet. -/
theorem keeps_offer (offering : Offering arrivals latency capacity inBandwidth cycle h s (pkt :: rest)) :
    Keeps (respecting arrivals latency capacity inBandwidth) (offer cycle h pkt)
      (fun s' h' => Offering arrivals latency capacity inBandwidth cycle h' s' rest) s := by
  have marked := offering.marked
  refine ⟨marked.symm,fun ready learned => ?_⟩
  obtain ⟨first,again⟩ := learned
  have grantedUp := offering.granted
  have refusedUp := offering.refused
  rcases offering.stage with ⟨asked,nothing,unsent⟩ | ⟨asked,granted,refused,nothing,fits⟩ | ⟨_,_,only⟩
  · -- the first question of the cycle
    have all : due (receivedBefore arrivals latency) s cycle = rest.length + 1 := by
      unfold due
      rw [← offering.held,nothing]
      simp
    have due_fits : Fits capacity inBandwidth cycle ready (due (receivedBefore arrivals latency) s cycle) := first asked
    rw [all] at due_fits
    cases ready with
    | true =>
      have fits : rest.length + 1 ≤ burst capacity inBandwidth cycle := due_fits
      have now : max s.asked (cycle : Int) = cycle := by omega
      have after : Offering arrivals latency capacity inBandwidth cycle h (s.grow (.isReady cycle) true) (pkt :: rest) := by
        refine ⟨marked,?_,?_,offering.upTo,offering.now,offering.held,.granted now rfl ?_ nothing ?_⟩
        · exact le_max_right _ _
        · exact le_trans refusedUp (le_max_left _ _)
        · show s.refused < cycle
          omega
        · show (s.acceptedFor cycle).length + (rest.length + 1) ≤ _
          rw [unsent,List.length_nil,Nat.zero_add]
          exact fits
      have sent := after.send now rfl (show s.refused < (cycle : Int) by omega) nothing (by
        show (s.acceptedFor cycle).length + rest.length + 1 ≤ _
        rw [unsent,List.length_nil,Nat.zero_add]
        exact fits)
      exact ⟨sent.1,fun _ _ => sent.2⟩
    | false =>
      have few : rest.length + 1 ≤ 1 := due_fits
      have only : rest = [] := List.length_eq_zero_iff.mp (by omega)
      subst only
      have now : max s.asked (cycle : Int) = cycle := by omega
      refine ⟨marked,?_,?_,offering.upTo,fun k other => ?_,?_,.refused now ?_ rfl⟩
      · exact le_trans grantedUp (le_max_left _ _)
      · exact le_max_right _ _
      · rw [waiting_addToPending_ne _ _ _ other]
        exact offering.now k other
      · have held := offering.held
        rw [nothing] at held
        rw [waiting_addToPending,nothing,List.append_nil]
        show s.accepted.map PacketWithCycle.packet ++ [pkt] = _
        rwa [List.map_nil,List.append_nil] at held
      · show s.granted < cycle
        omega
  · -- the cycle was granted before
    obtain rfl : ready = true := again asked
    have now : max s.asked (cycle : Int) = cycle := by omega
    have after : Offering arrivals latency capacity inBandwidth cycle h (s.grow (.isReady cycle) true) (pkt :: rest) := by
      refine ⟨marked,?_,?_,offering.upTo,offering.now,offering.held,.granted now rfl refused nothing fits⟩
      · exact le_max_right _ _
      · exact le_trans refusedUp (le_max_left _ _)
    have sent := after.send now rfl refused nothing fits
    exact ⟨sent.1,fun _ _ => sent.2⟩
  · cases only

theorem keeps_offerAll : ∀ (pkts : List Packet) {h : BufferlessLinkType} {s : EndRecord},
    Offering arrivals latency capacity inBandwidth cycle h s (pkts ++ rest) →
      Keeps (respecting arrivals latency capacity inBandwidth) (pkts.foldlM (offer cycle) h)
        (fun s' h' => Offering arrivals latency capacity inBandwidth cycle h' s' rest) s
  | [], _, _, offering => offering
  | pkt :: pkts, h, s, offering => by
    rw [List.foldlM_cons]
    exact (keeps_offer offering).bind fun _ _ after => keeps_offerAll pkts after

/-- Before a tick nothing has been asked about its cycle, and what waits is to be offered
    before what arrives. -/
theorem Between.offering (between : Between arrivals latency cycle h s) {h' : BufferlessLinkType}
    (erased : h'.waiting cycle = []) (others : ∀ k, k ≠ cycle → h'.waiting k = h.waiting k) :
    Offering arrivals latency capacity inBandwidth cycle h' s
      ((h.waiting cycle).map PacketWithCycle.packet ++ incomingAt arrivals latency cycle) := by
  have none_ahead : h'.waiting (cycle + 1) = [] := by
    rw [others _ (by omega)]
    exact between.now _ (by omega)
  refine ⟨between.marked,between.granted,between.refused,fun pwc member => (between.upTo pwc member).le,fun k _ => ?_,?_,
    .unasked between.asked none_ahead ?_⟩
  · by_cases here : k = cycle
    · rw [here,erased]
    · rw [others k here,between.now k here]
  · rw [none_ahead,List.map_nil,List.append_nil,← List.append_assoc,between.held,receivedBefore_succ]
  · exact stamped_eq_nil fun pwc member same => Nat.lt_irrefl _ (same ▸ between.upTo pwc member)

theorem keeps_retry (between : Between arrivals latency cycle h s) :
    Keeps (respecting arrivals latency capacity inBandwidth) (h.retry cycle)
      (fun s' h' => Offering arrivals latency capacity inBandwidth cycle h' s' (incomingAt arrivals latency cycle)) s := by
  unfold retry
  split_ifs with nothing
  · have offering : Offering arrivals latency capacity inBandwidth cycle h s
        ((h.waiting cycle).map PacketWithCycle.packet ++ incomingAt arrivals latency cycle) :=
      between.offering nothing fun _ _ => rfl
    rw [nothing] at offering
    exact offering
  · exact keeps_offerAll _ (between.offering (waiting_erase h cycle) fun k other => waiting_erase_ne h cycle other)

/-- A tick keeps to what the queue has promised, if it finds what the condition asks. -/
theorem keeps_tick {l : Link BufferlessLinkType} (targetCycle : Nat)
    (between : Between arrivals l.latency l.currentCycle l.state s) :
    Keeps (respecting arrivals l.latency capacity inBandwidth)
      (downstreamOf arrivals (l.tick linkType l.currentCycle targetCycle))
      (fun s' answer => ∃ h, answer = some { l with state := h } ∧ Between arrivals l.latency (l.currentCycle + 1) h s') s := by
  rw [downstreamOf_tick]
  refine (keeps_retry between).bind fun s₁ h₁ offering => ?_
  refine (keeps_offerAll _ (by rw [List.append_nil]; exact offering)).bind fun s₂ h₂ offered => ?_
  refine ⟨⟨offered.marked.symm,trivial⟩,fun _ _ => ⟨h₂,rfl,?_⟩⟩
  have granted := offered.granted
  have refused := offered.refused
  have asked : s₂.asked ≤ l.currentCycle := by
    rcases offered.stage with ⟨asked,_,_⟩ | ⟨asked,_,_,_,_⟩ | ⟨asked,_,_⟩
    · exact asked.le
    · exact asked.le
    · exact asked.le
  refine ⟨rfl,?_,granted,refused,fun pwc member => Nat.lt_succ_of_le (offered.upTo pwc member),offered.now,?_⟩
  · show s₂.asked < ((l.currentCycle + 1 : Nat) : Int)
    omega
  · have held := offered.held
    rwa [List.append_nil] at held

theorem keeps_tickCycles (targetCycle : Nat) : ∀ (cycles : Nat) (l : Link BufferlessLinkType) {s : EndRecord},
    Between arrivals l.latency l.currentCycle l.state s →
      Keeps (respecting arrivals l.latency capacity inBandwidth)
        (downstreamOf arrivals (l.tickCycles linkType targetCycle cycles)) (fun _ _ => True) s
  | 0, _, _, _ => trivial
  | cycles + 1, l, s, between => by
    rw [Link.tickCycles,downstreamOf_bind]
    refine (keeps_tick targetCycle between).bind ?_
    rintro s' _ ⟨h,rfl,after⟩
    exact keeps_tickCycles targetCycle cycles { l with currentCycle := l.currentCycle + 1, state := h } after

theorem between_new : Between arrivals latency 0 newBufferlessLinkType .initial where
  marked := rfl
  asked := by decide
  granted := le_refl _
  refused := le_refl _
  upTo := fun _ member => absurd member List.not_mem_nil
  now := fun _ _ => rfl
  held := rfl

end

/-! ### Whole runs -/

/-- A new link at which these packets arrive, and a new queue behind it, on a port. -/
def linkAndQueue (sync : ComponentSync) (sortSlice : SliceSort) (calls : Nat → InputQueue → List InputQueue.QueueCall)
    (arrivals : Nat → List Packet) (latency targetCycle : Nat) (cycles capacity inBandwidth : Nat) (pos : 0 < capacity)
    (bandwidthPos : 0 < inBandwidth) :=
  Config.start { Port.newPort with downstreamSync := sync } (InputQueue.upstreamAndQueue
    (downstreamOf arrivals ((Link.newLink latency newBufferlessLinkType).advanceTo linkType targetCycle))
    (InputQueue.servedQueue sortSlice calls cycles 0 (InputQueue.newInputQueue capacity inBandwidth pos bandwidthPos)))

/-- What is handed on is handed on in cycles that the queue promised, no more than the
    bandwidth in each, and in the order in which it was received; and no tick of the queue
    reports that the capacity is exceeded. -/
structure Respects {α : Type} (arrivals : Nat → List Packet) (latency inBandwidth : Nat)
    (c : Config portInterface Port (Ends α)) : Prop where
  ready : ∀ pwc ∈ handedOn (c.log .sender), (taken c).Promised pwc.cycle
  few : ∀ cycle, (stamped cycle (handedOn (c.log .sender))).length ≤ inBandwidth
  ordered : ∃ cycle, (handedOn (c.log .sender)).map PacketWithCycle.packet <+: receivedBefore arrivals latency cycle
  fits : ∀ error iq, c.prog .receiver ≠ .done (some error,iq)

/-- In a run in which, for every cycle, at most one packet is due when the queue refuses the
    cycle and no more than a burst when it grants it, a bufferless link respects the
    readiness of the queue. -/
theorem readiness_respected (sortSlice : SliceSort) (calls : Nat → InputQueue → List InputQueue.QueueCall)
    (arrivals : Nat → List Packet) (latency targetCycle cycles capacity inBandwidth : Nat) (pos : 0 < capacity)
    (bandwidthPos : 0 < inBandwidth) :
    ∃ sync, (InputQueue.newInputQueue capacity inBandwidth pos bandwidthPos).setUpstreamPort Port.newPort.downstreamSync =
        some sync ∧
      ∀ c, Reaches (fun c side => portMachine.step side c) (Finds (Fits capacity inBandwidth) (receivedBefore arrivals latency))
        (linkAndQueue sync sortSlice calls arrivals latency targetCycle cycles capacity inBandwidth pos bandwidthPos) c →
      Respects arrivals latency inBandwidth c := by
  have room : (InputQueue.newInputQueue capacity inBandwidth pos bandwidthPos).length <
      (InputQueue.newInputQueue capacity inBandwidth pos bandwidthPos).capacity := by
    simpa [InputQueue.capacity,InputQueue.newInputQueue] using pos
  have both : (InputQueue.newInputQueue capacity inBandwidth pos bandwidthPos).setUpstreamPort
      Port.newPort.downstreamSync = some { done := -1, readyUntil := 2, readyStates := [] } := by
    rw [InputQueue.setUpstreamPort,decide_eq_true room]
    rfl
  refine ⟨_,both,fun c reach => ?_⟩
  have started : Joined (respectful arrivals latency capacity inBandwidth) inBandwidth
      (fun r op => InputQueue.TakesBack r op ↔ InputQueue.Tight capacity inBandwidth r)
      (fun r result => ¬ InputQueue.Tight capacity inBandwidth r ∧ (result.1 ≠ none → InputQueue.Overfull capacity r))
      (fun _ _ => True)
      (linkAndQueue { done := -1, readyUntil := 2, readyStates := [] } sortSlice calls arrivals latency targetCycle cycles
        capacity inBandwidth pos bandwidthPos) := by
    refine ⟨⟨InputQueue.setUpstreamPort_linked _ room both,?_⟩,?_,handed_new⟩
    · exact InputQueue.tightly_servedQueue sortSlice calls cycles pos bandwidthPos
    · exact keeps_tickCycles targetCycle _ (Link.newLink latency newBufferlessLinkType) between_new
  have joined := started.reach (burst_le capacity inBandwidth) reach
  have told := joined.told
  have linked : Linked (some inBandwidth) c.shared.exchange (handed c) (taken c) := joined.attended.linked
  refine ⟨?_,?_,?_,?_⟩
  · rw [told.sent]
    intro pwc member
    refine (linked.obeyed inBandwidth rfl pwc.cycle).2 fun nothing => ?_
    have here : pwc.packet ∈ stamped pwc.cycle (handed c).accepted :=
      List.mem_map_of_mem (List.mem_filter.mpr ⟨member,decide_eq_true rfl⟩)
    rw [show stamped pwc.cycle (handed c).accepted = [] from nothing] at here
    cases here
  · rw [told.sent]
    exact fun cycle => le_trans (told.few cycle) (burst_le ..)
  · rw [told.sent]
    have all : (handed c).accepted.filter (fun pwc => pwc.cycle ≤ ((handed c).marked + 1).toNat) = (handed c).accepted := by
      refine List.filter_eq_self.mpr fun pwc member => decide_eq_true ?_
      have upTo := told.upTo pwc member
      omega
    exact ⟨_,all ▸ told.delayed _⟩
  · intro error iq finished
    have keeps := joined.attended.keeps
    rw [finished,keeps_done] at keeps
    obtain ⟨pkts,later,returned,large⟩ := keeps.2 (by simp)
    have first : 0 < (taken c).returned.length := by
      rw [show (taken c).returned = pkts :: later from returned]
      exact Nat.succ_pos _
    have read := linked.returned 0 first
    have few : ((handed c).acceptedFor 0).length ≤ burst capacity inBandwidth 0 := told.few 0
    rw [← read] at few
    have head : (taken c).returned[0] = pkts := by
      simp only [show (taken c).returned = pkts :: later from returned,List.getElem_cons_zero]
    rw [head,burst,if_pos rfl] at few
    exact absurd (le_trans few (Nat.min_le_right _ _)) (Nat.not_le.mpr large)

/-- A packet in each of the first three cycles, and a queue with room for two of them: the
    third is refused and waits. -/
theorem readiness_respected_one_waits : ∃ c,
    Reaches (fun c side => portMachine.step side c)
      (Finds (Fits 2 1) (receivedBefore (fun cycle => if cycle < 3 then [{ sourceID := 0, targetID := 1 }] else []) 1))
      (linkAndQueue { done := -1, readyUntil := 2, readyStates := [] } stableSort (fun _ _ => [])
        (fun cycle => if cycle < 3 then [{ sourceID := 0, targetID := 1 }] else []) 1 3 4 2 1 (by decide) (by decide)) c ∧
    (handedOn (c.log .sender)).length = 2 ∧ (taken c).decisions[3]? = some false ∧
    Respects (fun cycle => if cycle < 3 then [{ sourceID := 0, targetID := 1 }] else []) 1 1 c := by
  let arrivals : Nat → List Packet := fun cycle => if cycle < 3 then [{ sourceID := 0, targetID := 1 }] else []
  obtain ⟨sync,connected,respected⟩ := readiness_respected stableSort (fun _ _ => []) arrivals 1 3 4 2 1 (by decide) (by decide)
  obtain rfl : { done := -1, readyUntil := 2, readyStates := [] } = sync := Option.some.inj connected
  -- the link goes on until it has to wait, and then the queue does
  let schedule : List Side := (List.zipWith List.replicate [4,11,3,5,2,3]
    [.sender,.receiver,.sender,.receiver,.sender,.receiver]).flatten
  have counts : (runActions (fun c side => portMachine.step side c) (Finds (Fits 2 1) (receivedBefore arrivals 1)) schedule
      (linkAndQueue { done := -1, readyUntil := 2, readyStates := [] } stableSort (fun _ _ => []) arrivals 1 3 4 2 1
        (by decide) (by decide))).map (fun c => ((handedOn (c.log .sender)).length,(taken c).decisions[3]?)) =
      some (2,some false) := by decide +kernel
  obtain ⟨c,ran,both⟩ := Option.map_eq_some_iff.mp counts
  obtain ⟨sent,refused⟩ := Prod.mk.inj both
  have reached := reaches_runActions schedule ran
  exact ⟨c,reached,sent,refused,respected c reached⟩

/-- The queue has come to an error. -/
def failed : Prog portInterface (Option String × InputQueue) → Bool
  | .done (some _,_) => true
  | _ => false

theorem ends_of_failed {prog : Prog portInterface (Option String × InputQueue)} (hasFailed : failed prog = true) :
    ∃ error iq, prog = .done (some error,iq) := by
  unfold failed at hasFailed
  split at hasFailed
  · next error iq => exact ⟨error,iq,rfl⟩
  · cases hasFailed

/-- Two packets in each of the first three cycles, and a queue with room for four of them
    that refuses cycle 3: the second packet of that cycle is handed on all the same, and the
    queue has no slot for it. -/
theorem readiness_ignored :
    let arrivals : Nat → List Packet := fun cycle =>
      if cycle < 3 then [{ sourceID := 0, targetID := 1, data := 1 },{ sourceID := 0, targetID := 1, data := 2 }] else []
    let start := linkAndQueue { done := -1, readyUntil := 2, readyStates := [] } stableSort (fun _ _ => []) arrivals 1 3 4 4 2
      (by decide) (by decide)
    (InputQueue.newInputQueue 4 2 (by decide) (by decide)).setUpstreamPort Port.newPort.downstreamSync =
      some start.shared.downstreamSync ∧
    ∃ c, portMachine.Reach start c ∧ ⟨3,{ sourceID := 0, targetID := 1, data := 2 }⟩ ∈ handedOn (c.log .sender) ∧
      (taken c).decisions[3]? = some false ∧ (∃ error iq, c.prog .receiver = .done (some error,iq)) ∧
      ¬ Respects arrivals 1 2 c := by
  intro arrivals start
  let schedule : List Side := (List.replicate 60 [Side.sender,Side.receiver]).flatten
  have late : ⟨3,{ sourceID := 0, targetID := 1, data := 2 }⟩ ∈ handedOn ((portMachine.run schedule start).log .sender) ∧
      (taken (portMachine.run schedule start)).decisions[3]? = some false := by decide +kernel
  have ends : ∃ error iq, (portMachine.run schedule start).prog .receiver = .done (some error,iq) :=
    ends_of_failed (by decide +kernel)
  refine ⟨rfl,_,Machine.reach_run schedule start,late.1,late.2,ends,fun respects => ?_⟩
  obtain ⟨error,iq,finished⟩ := ends
  exact respects.fits error iq finished

end BufferlessLinkType
end FlowSim.Links
