import FlowSim.AheadPort.Delivery
import FlowSim.Queue.OutputQueue

/-!
An output queue against a receiver on one port. The receiver stops draining the
channel while it waits for the done mark, and the sender sets the mark only after
its last packet of the cycle, so the two block each other exactly when more
packets can be sent in one cycle than the channel holds
(`never_both_blocked_iff`).
-/
namespace FlowSim.Queue
open FlowSim.Lib FlowSim.AheadPort
set_option linter.unusedSimpArgs false

/-- An output queue that goes through the cycles: the node injects any batches,
    then the queue is ticked. -/
def tickedQueue (inject : Nat → List (List Packet)) : Nat → Nat → OutputQueue → Prog portInterface OutputQueue
  | 0, _, oq => return oq
  | cycles + 1, cycle, oq => do
    let oq := (inject cycle).foldl (fun oq pkts => (oq.injectPackets cycle pkts).2) oq
    let oq ← oq.tick cycle
    tickedQueue inject cycles (cycle + 1) oq

/-- What the two ends return. -/
abbrev EndResult : Side → Type
  | .sender => OutputQueue
  | .receiver => List (List Packet)

/-- The output queue and a receiver, both at cycle 0. -/
def queueAndReceiver (inject : Nat → List (List Packet)) (decisions : List (List Packet) → List (Nat × Bool))
    (sendCycles receiveCycles : Nat) (oq : OutputQueue) : (side : Side) → Prog portInterface (EndResult side)
  | .sender => tickedQueue inject sendCycles 0 oq
  | .receiver => receiver decisions receiveCycles []

/-- The sender is blocked on the full channel in a cycle, and the receiver waits
    for that cycle or an earlier one to be done. -/
def BothBlocked (c : Config portInterface Port EndResult) : Prop :=
  ∃ pwc sendNext cycle waitNext, c.prog .sender = .call (.send pwc) sendNext ∧
    c.shared.exec (.send pwc) = .blocked ∧
    c.prog .receiver = .call (.waitDone cycle) waitNext ∧ c.shared.exec (.waitDone cycle) = .blocked ∧
    cycle ≤ pwc.cycle

/-! ### Few packets in a cycle -/

/-- A sender of at most `bound` packets in a cycle, all stamped with the cycle
    after the last one it marked done. -/
def boundedDiscipline (bound : Nat) : Discipline portInterface History where
  pre h
    | .isReady _ => True
    | .send pwc => (pwc.cycle : Int) = h.marked + 1 ∧ (stamped pwc.cycle h.accepted).length < bound
    | .markDone cycle => (cycle : Int) = h.marked + 1
    | _ => False
  post _ _ _ := True
  grow := History.grow

@[simp] theorem boundedDiscipline_grow (bound : Nat) : (boundedDiscipline bound).grow = History.grow := rfl

theorem pre_sender_of_bounded {bound : Nat} {h : History} {op : PortOp} (allowed : (boundedDiscipline bound).pre h op) :
    senderDiscipline.pre h op := by
  cases op with
  | isReady cycle => trivial
  | send pwc => exact Int.lt_of_add_one_le (le_of_eq allowed.1.symm)
  | markDone cycle => exact Int.lt_of_add_one_le (le_of_eq allowed.symm)
  | _ => exact allowed

/-- The queue has sent what is stamped with the cycle and may send `left` more. -/
def Sending (cycle bound left : Nat) (h : History) : Prop :=
  h.marked + 1 = cycle ∧ (stamped cycle h.accepted).length + left ≤ bound

/-- The queue's settings are as they were, and what it sent is stamped with the cycle. -/
structure SentIn (cycle : Nat) (h : History) (oq : OutputQueue) (h' : History) (oq' : OutputQueue) : Prop where
  marked : h'.marked = h.marked
  outBandwidth : oq'.outBandwidth = oq.outBandwidth
  capacity : oq'.capacity = oq.capacity
  accepted : ∀ pwc ∈ h'.accepted, pwc ∈ h.accepted ∨ pwc.cycle = cycle

theorem sentIn_refl (cycle : Nat) (h : History) (oq : OutputQueue) : SentIn cycle h oq h oq :=
  ⟨rfl,rfl,rfl,fun _ member => .inl member⟩

theorem keeps_sendUpTo (cycle bound : Nat) : ∀ (left : Nat) (oq : OutputQueue) {h : History},
    Sending cycle bound (min left oq.count) h →
      Keeps (boundedDiscipline bound) (oq.sendUpTo cycle left) (SentIn cycle h oq) h
  | 0, oq, h, _ => sentIn_refl cycle h oq
  | left + 1, oq, h, sending => by
    rw [OutputQueue.sendUpTo]
    split
    · next some_left =>
      obtain ⟨marked,room⟩ := sending
      refine Keeps.bind (Q := fun h' sent => h' =
        if sent then { h with accepted := h.accepted ++ [⟨cycle,(oq.front some_left).packet⟩] } else h) ?_ ?_
      · refine ⟨trivial,fun ready _ => ?_⟩
        cases ready with
        | true =>
          refine ⟨⟨marked.symm,?_⟩,fun _ _ => rfl⟩
          show (stamped cycle h.accepted).length < bound
          omega
        | false => exact rfl
      · rintro h' sent rfl
        cases sent with
        | false => exact sentIn_refl cycle h oq
        | true =>
          have later : Sending cycle bound (min left (oq.pop some_left).count)
              { h with accepted := h.accepted ++ [⟨cycle,(oq.front some_left).packet⟩] } := by
            refine ⟨marked,?_⟩
            simp only [stamped_append,stamped_singleton,↓reduceIte,List.length_append,List.length_singleton,
              RingBuffer.count_pop]
            omega
          refine (keeps_sendUpTo cycle bound left { oq with toRingBuffer := oq.pop some_left } later).mono
            (fun h' oq' sent => ?_)
          · refine ⟨sent.marked,sent.outBandwidth,sent.capacity,fun pwc member => ?_⟩
            rcases sent.accepted pwc member with old | now
            · rcases List.mem_append.mp old with old | new
              · exact .inl old
              · exact .inr (List.mem_singleton.mp new ▸ rfl)
            · exact .inr now
    · exact sentIn_refl cycle h oq

theorem injected_keeps (cycle : Nat) : ∀ (batches : List (List Packet)) (oq : OutputQueue),
    (batches.foldl (fun oq pkts => (oq.injectPackets cycle pkts).2) oq).outBandwidth = oq.outBandwidth ∧
      (batches.foldl (fun oq pkts => (oq.injectPackets cycle pkts).2) oq).capacity = oq.capacity
  | [], oq => ⟨rfl,rfl⟩
  | pkts :: rest, oq => by
    obtain ⟨bandwidth,capacity⟩ := injected_keeps cycle rest (oq.injectPackets cycle pkts).2
    exact ⟨bandwidth.trans (by simp),capacity.trans (by simp)⟩

/-- An output queue sends in a cycle at most its bandwidth, and at most what it
    can hold. -/
theorem keeps_tickedQueue (inject : Nat → List (List Packet)) (bound : Nat) : ∀ (cycles cycle : Nat) (oq : OutputQueue)
    {h : History}, min oq.outBandwidth oq.capacity ≤ bound → h.marked + 1 = cycle →
      (∀ pwc ∈ h.accepted, pwc.cycle < cycle) →
      Keeps (boundedDiscipline bound) (tickedQueue inject cycles cycle oq) (fun _ _ => True) h
  | 0, _, _, _, _, _, _ => trivial
  | cycles + 1, cycle, oq, h, small, marked, before => by
    obtain ⟨bandwidth,capacity⟩ := injected_keeps cycle (inject cycle) oq
    rw [tickedQueue,OutputQueue.tick]
    generalize (inject cycle).foldl (fun oq pkts => (oq.injectPackets cycle pkts).2) oq = loaded at bandwidth capacity
    have none_yet : stamped cycle h.accepted = [] :=
      stamped_eq_nil (fun pwc member => Nat.ne_of_lt (before pwc member))
    have holds : loaded.count ≤ loaded.capacity := loaded.count_le
    refine keeps_bind.mpr (Keeps.bind (keeps_sendUpTo cycle bound _ loaded ⟨marked,?_⟩) ?_)
    · rw [none_yet,bandwidth]
      rw [capacity] at holds
      simp only [List.length_nil]
      omega
    · intro h' oq' sent
      refine ⟨?_,fun _ _ => keeps_tickedQueue inject bound cycles (cycle + 1) oq' ?_ ?_ ?_⟩
      · show (cycle : Int) = h'.marked + 1
        rw [sent.marked,marked]
      · rwa [sent.outBandwidth,sent.capacity,bandwidth,capacity]
      · show ((cycle : Nat) : Int) + 1 = _
        simp
      · intro pwc member
        rcases sent.accepted pwc member with old | now
        · exact Nat.lt_succ_of_lt (before pwc old)
        · exact now ▸ Nat.lt_succ_self cycle

/-- A receiver that waits for each cycle right after it has read the one before. -/
def orderlyDiscipline : Discipline portInterface History where
  pre h op := receiverDiscipline.pre h op ∧ ∀ cycle, op = .waitDone cycle → cycle = h.returned.length
  post _ _ _ := True
  grow := History.grow

@[simp] theorem orderlyDiscipline_grow : orderlyDiscipline.grow = History.grow := rfl

theorem keeps_orderly (decisions : List (List Packet) → List (Nat × Bool)) :
    ∀ (cycles : Nat) {h : History}, h.waited < h.returned.length →
      Keeps orderlyDiscipline (receiver decisions cycles h.returned) (fun _ _ => True) h := by
  have decided : ∀ (updates : List (Nat × Bool)) (h : History),
      Keeps orderlyDiscipline (updates.forM fun update => updateReady update.1 update.2) (fun h' _ => h' = h) h :=
    fun updates h => Keeps.forM (D := orderlyDiscipline) (fun update : Nat × Bool => updateReady update.1 update.2) (fun _ h' => h' = h)
      (fun _ _ _ same => ⟨⟨trivial,by simp⟩,fun _ _ => same⟩) rfl
  intro cycles
  induction cycles with
  | zero => exact fun {h} _ => (decided _ h).bind (fun _ _ _ => trivial)
  | succ cycles ih =>
    intro h behind
    refine (decided _ h).bind ?_
    rintro h' _ rfl
    refine Keeps.bind (Q := fun h'' pkts => h'' = { h' with waited := h'.returned.length, returned := h'.returned ++ [pkts] })
      ?_ ?_
    · refine ⟨⟨trivial,by simp⟩,fun _ _ => ⟨⟨behind,fun cycle same => ?_⟩,fun _ _ => ?_⟩⟩
      · cases same
        rfl
      · exact ⟨⟨⟨rfl,le_refl _⟩,by simp⟩,fun _ _ => rfl⟩
    · rintro h'' pkts rfl
      exact ih (h := { h' with waited := _, returned := _ }) (by simp)

/-- The sender of a port keeps to the bound, and the port's transfer relation
    holds; nothing is stamped later than the cycle the sender is in. -/
def Bounded (p : Port) (h : Side → History) : Prop :=
  Transfer p (h .sender) (h .receiver) ∧ ∀ pwc ∈ (h .sender).accepted, (pwc.cycle : Int) ≤ (h .sender).marked + 1

@[simp] def endDiscipline (bound : Nat) : Side → Discipline portInterface History
  | .sender => boundedDiscipline bound
  | .receiver => orderlyDiscipline

theorem supports_bounded (bound : Nat) : Supports portMachine (endDiscipline bound) Bounded where
  again := fun side op _ bounded _ outcome => ⟨bounded.1.again outcome,bounded.2⟩
  done := by
    intro p h side op answer p' bounded allowed outcome
    cases side with
    | receiver => exact ⟨trivial,by simpa using bounded.1.receiver allowed.1 outcome,by simpa using bounded.2⟩
    | sender =>
      refine ⟨trivial,by simpa using bounded.1.sender (pre_sender_of_bounded allowed) outcome,?_⟩
      have before := bounded.2
      cases op with
      | isReady cycle => simpa [History.grow] using before
      | markDone cycle =>
        intro pwc member
        simp only [endDiscipline,boundedDiscipline_grow,Function.update_self,History.grow] at member ⊢
        have upTo := before pwc member
        have next : (cycle : Int) = (h .sender).marked + 1 := allowed
        omega
      | send pwc =>
        intro other member
        simp only [endDiscipline,boundedDiscipline_grow,Function.update_self,History.grow] at member ⊢
        rcases List.mem_append.mp member with old | new
        · exact before other old
        · exact List.mem_singleton.mp new ▸ le_of_eq allowed.1
      | _ => exact absurd allowed id

theorem length_stamped_self {cycle : Nat} {pkts : List PacketWithCycle} (all : ∀ pwc ∈ pkts, pwc.cycle = cycle) :
    (stamped cycle pkts).length = pkts.length := by
  rw [stamped,List.length_map,List.filter_eq_self.mpr (by simpa using all)]

/-- A receiver that waits for a cycle has read all earlier ones, so a sender in
    that cycle finds in the channel only what it has sent in it. -/
theorem not_bothBlocked_of_bounded {bound : Nat} (small : bound ≤ channelCapacity)
    {Q : (side : Side) → History → EndResult side → Prop} {g : Side → History} {c : Config portInterface Port EndResult}
    (governed : Governed (endDiscipline bound) Bounded g Q c) : ¬ BothBlocked c := by
  rintro ⟨pwc,sendNext,cycle,waitNext,sending,full,waiting,undone,upTo⟩
  obtain ⟨transfer,bounded⟩ := governed.related
  obtain ⟨now,few⟩ : (pwc.cycle : Int) = _ ∧ _ := governed.allowed sending
  have read := (governed.allowed waiting).2 cycle rfl
  beta_reduce at transfer bounded
  generalize (endDiscipline bound .sender).history (g .sender) (c.log .sender) = s at transfer bounded now few
  generalize (endDiscipline bound .receiver).history (g .receiver) (c.log .receiver) = r at transfer read
  have behind : s.marked < cycle := transfer.done ▸ Port.waitDone_blocked.mp undone
  have stamps : ∀ other ∈ c.shared.channel, other.cycle = pwc.cycle := by
    intro other member
    have late := transfer.channel other member
    have sent : other.packet ∈ stamped other.cycle s.accepted := by
      rw [← transfer.inFlight other.cycle late,Port.inFlight,List.mem_append]
      exact .inr (List.mem_map.mpr ⟨other,List.mem_filter.mpr ⟨member,by simp⟩,rfl⟩)
    obtain ⟨found,isSent,_⟩ := List.mem_map.mp sent
    have isStamped : found.cycle = other.cycle := by simpa using (List.mem_filter.mp isSent).2
    have early := bounded found (List.mem_filter.mp isSent).1
    omega
  have inChannel : c.shared.channel.length ≤ (stamped pwc.cycle s.accepted).length := by
    rw [← transfer.inFlight pwc.cycle (by omega),← length_stamped_self stamps,Port.inFlight,List.length_append]
    omega
  have isFull := Port.send_blocked.mp full
  omega

/-! ### A burst larger than the channel -/

/-- What a queue that has to send 65 packets in cycle 0 looks like after some of
    them: they are all in the channel, and the receiver waits for the cycle. -/
structure Filling (sent bandwidth : Nat) (c : Config portInterface Port EndResult) : Prop where
  channel : c.shared.channel.length = sent
  undone : c.shared.upstreamSync.done = -1
  ready : 0 < c.shared.downstreamSync.readyUntil
  waiting : ∃ next, c.prog .receiver = .call (.waitDone 0) next
  sending : ∃ (oq : OutputQueue) (rest : OutputQueue → Prog portInterface OutputQueue),
    c.prog .sender = (oq.sendUpTo 0 (bandwidth - sent) >>= rest) ∧ channelCapacity < sent + oq.count

theorem filling_step {sent bandwidth : Nat} (large : channelCapacity < bandwidth) (room : sent < channelCapacity)
    {c : Config portInterface Port EndResult} (filling : Filling sent bandwidth c) :
    ∃ c', portMachine.Reach c c' ∧ Filling (sent + 1) bandwidth c' := by
  obtain ⟨oq,rest,sending,many⟩ := filling.sending
  obtain ⟨next,waiting⟩ := filling.waiting
  have some_left : 0 < oq.count := by omega
  have more : bandwidth - sent = bandwidth - (sent + 1) + 1 := by omega
  obtain ⟨onAnswer,asks,sends⟩ : ∃ onAnswer, c.prog .sender = .call (.isReady 0) onAnswer ∧
      onAnswer true = .call (.send ⟨0,(oq.front some_left).packet⟩) (fun _ =>
        OutputQueue.sendUpTo 0 (bandwidth - (sent + 1)) { oq with toRingBuffer := oq.pop some_left } >>= rest) := by
    rw [sending,more,OutputQueue.sendUpTo,dif_pos some_left]
    exact ⟨_,rfl,rfl⟩
  have isReady : c.shared.exec (.isReady 0) = .done true c.shared := by
    simp only [Port.exec,ComponentSync.ready,if_pos filling.ready]
  obtain ⟨c₁,reach₁,shared₁,prog₁,others₁⟩ := Machine.reach_done (M := portMachine) asks isReady
  rw [sends] at prog₁
  have hasRoom : c₁.shared.exec (.send ⟨0,(oq.front some_left).packet⟩) =
      .done () { c.shared with channel := c.shared.channel ++ [⟨0,(oq.front some_left).packet⟩] } := by
    rw [shared₁]
    exact if_pos (by rw [filling.channel]; exact room)
  obtain ⟨c₂,reach₂,shared₂,prog₂,others₂⟩ := Machine.reach_done (M := portMachine) prog₁ hasRoom
  refine ⟨c₂,reach₁.trans reach₂,⟨?_,?_,?_,⟨next,?_⟩,⟨_,rest,prog₂,?_⟩⟩⟩
  · rw [shared₂,List.length_append,filling.channel,List.length_singleton]
  · rw [shared₂]
    exact filling.undone
  · rw [shared₂]
    exact filling.ready
  · rw [others₂ .receiver (by decide),others₁ .receiver (by decide)]
    exact waiting
  · show channelCapacity < sent + 1 + (oq.count - 1)
    omega

/-- Once the channel is full, both ends are blocked. -/
theorem filling_blocked {bandwidth : Nat} (large : channelCapacity < bandwidth)
    {c : Config portInterface Port EndResult} (filling : Filling channelCapacity bandwidth c) :
    ∃ c', portMachine.Reach c c' ∧ BothBlocked c' := by
  obtain ⟨oq,rest,sending,many⟩ := filling.sending
  obtain ⟨next,waiting⟩ := filling.waiting
  have some_left : 0 < oq.count := by omega
  have more : bandwidth - channelCapacity = bandwidth - (channelCapacity + 1) + 1 := by omega
  obtain ⟨onAnswer,onSent,asks,sends⟩ : ∃ onAnswer onSent, c.prog .sender = .call (.isReady 0) onAnswer ∧
      onAnswer true = .call (.send ⟨0,(oq.front some_left).packet⟩) onSent := by
    rw [sending,more,OutputQueue.sendUpTo,dif_pos some_left]
    exact ⟨_,_,rfl,rfl⟩
  have isReady : c.shared.exec (.isReady 0) = .done true c.shared := by
    simp only [Port.exec,ComponentSync.ready,if_pos filling.ready]
  obtain ⟨c₁,reach₁,shared₁,prog₁,others₁⟩ := Machine.reach_done (M := portMachine) asks isReady
  rw [sends] at prog₁
  refine ⟨c₁,reach₁,_,_,0,next,prog₁,?_,?_,?_,le_refl _⟩
  · rw [shared₁]
    exact Port.send_blocked.mpr (le_of_eq filling.channel.symm)
  · rw [others₁ .receiver (by decide)]
    exact waiting
  · rw [shared₁]
    exact Port.waitDone_blocked.mpr (by rw [filling.undone]; decide)

theorem filling_full {bandwidth : Nat} (large : channelCapacity < bandwidth) {c : Config portInterface Port EndResult}
    (filling : Filling 0 bandwidth c) : ∃ c', portMachine.Reach c c' ∧ BothBlocked c' := by
  have filled : ∀ sent ≤ channelCapacity, ∃ c', portMachine.Reach c c' ∧ Filling sent bandwidth c' := by
    intro sent upTo
    induction sent with
    | zero => exact ⟨c,.refl,filling⟩
    | succ sent ih =>
      obtain ⟨c₁,reach₁,filling₁⟩ := ih (by omega)
      obtain ⟨c₂,reach₂,filling₂⟩ := filling_step large (by omega) filling₁
      exact ⟨c₂,reach₁.trans reach₂,filling₂⟩
  obtain ⟨c₁,reach₁,filling₁⟩ := filled channelCapacity (le_refl _)
  obtain ⟨c₂,reach₂,blocked⟩ := filling_blocked large filling₁
  exact ⟨c₂,reach₁.trans reach₂,blocked⟩

/-- A packet more than the channel holds, injected in cycle 0. -/
def burst (pkt : Packet) (cycle : Nat) : List (List Packet) :=
  if cycle = 0 then [List.replicate (channelCapacity + 1) pkt] else []

/-- A receiver that is ready in cycle 0. -/
def readyFirst (past : List (List Packet)) : List (Nat × Bool) := if past = [] then [(0,true)] else []

/-- The receiver declares cycle 0 ready and waits for it before the queue sends. -/
theorem filling_start (pkt : Packet) {oq : OutputQueue} (empty : oq.count = 0)
    (capacity : channelCapacity < oq.capacity) :
    ∃ c, portMachine.Reach (Config.start .newPort (queueAndReceiver (burst pkt) readyFirst 1 1 oq)) c ∧
      Filling 0 oq.outBandwidth c := by
  let start : Config portInterface Port EndResult :=
    Config.start .newPort (queueAndReceiver (burst pkt) readyFirst 1 1 oq)
  let loaded := (oq.injectPackets 0 (List.replicate (channelCapacity + 1) pkt)).2
  have fits : oq.count + (List.replicate (channelCapacity + 1) pkt).length ≤ oq.capacity := by
    rw [empty,List.length_replicate]
    omega
  have count : loaded.count = channelCapacity + 1 := by
    rw [← OutputQueue.length_packets,OutputQueue.injectPackets_fits 0 fits,List.length_append,
      OutputQueue.length_packets,empty,List.length_replicate]
    omega
  obtain ⟨rest,sending⟩ : ∃ rest, start.prog .sender = (loaded.sendUpTo 0 oq.outBandwidth >>= rest) := by
    show ∃ rest, tickedQueue (burst pkt) 1 0 oq = _
    rw [tickedQueue,OutputQueue.tick,bind_assoc]
    simp only [burst,↓reduceIte,List.foldl_cons,List.foldl_nil,OutputQueue.outBandwidth_injectPackets]
    exact ⟨_,rfl⟩
  obtain ⟨next,deciding⟩ : ∃ next, start.prog .receiver = .call (.updateReady 0 true) (fun _ =>
      .call .drainChannel (fun _ => .call (.waitDone 0) next)) := ⟨_,rfl⟩
  have decided : start.shared.exec (.updateReady 0 true) =
      .done () { Port.newPort with downstreamSync := { ComponentSync.newComponentSync with readyUntil := 1 } } := rfl
  obtain ⟨c₁,reach₁,shared₁,prog₁,others₁⟩ := Machine.reach_done (M := portMachine) deciding decided
  have drained : c₁.shared.exec .drainChannel = .done () c₁.shared := by rw [shared₁]; rfl
  obtain ⟨c₂,reach₂,shared₂,prog₂,others₂⟩ := Machine.reach_done (M := portMachine) prog₁ drained
  refine ⟨c₂,reach₁.trans reach₂,⟨?_,?_,?_,⟨next,prog₂⟩,⟨loaded,rest,?_,?_⟩⟩⟩
  · rw [shared₂,shared₁]
    rfl
  · rw [shared₂,shared₁]
    rfl
  · rw [shared₂,shared₁]
    exact Nat.one_pos
  · rw [others₂ .sender (by decide),others₁ .sender (by decide)]
    exact sending
  · omega

/-- For an output queue of given bandwidth and capacity, no run of it against
    any receiver ever blocks both ends exactly when it cannot send more packets in
    one cycle than the port's channel holds. -/
theorem never_both_blocked_iff (capacity : Int) (outBandwidth : Nat) (pos : 0 < outBandwidth) :
    (∀ (inject : Nat → List (List Packet)) (decisions : List (List Packet) → List (Nat × Bool))
        (sendCycles receiveCycles : Nat) (c : Config portInterface Port EndResult),
        portMachine.Reach (Config.start .newPort (queueAndReceiver inject decisions sendCycles receiveCycles
          (.newOutputQueue capacity outBandwidth pos))) c → ¬ BothBlocked c) ↔
      outBandwidth ≤ channelCapacity ∨ (OutputQueue.newOutputQueue capacity outBandwidth pos).capacity ≤ channelCapacity := by
  constructor
  · intro never
    by_contra large
    rw [not_or,Nat.not_le,Nat.not_le] at large
    have empty : (OutputQueue.newOutputQueue capacity outBandwidth pos).count = 0 := rfl
    obtain ⟨c,reach,filling⟩ := filling_start default empty large.2
    obtain ⟨c',reach',blocked⟩ := filling_full large.1 filling
    exact never _ _ _ _ c' (reach.trans reach') blocked
  · intro small inject decisions sendCycles receiveCycles c reach
    have started : Governed (endDiscipline channelCapacity) Bounded (fun _ => .initial) (fun _ _ _ => True)
        (Config.start .newPort (queueAndReceiver inject decisions sendCycles receiveCycles
          (.newOutputQueue capacity outBandwidth pos))) :=
      .start _ _ ⟨transfer_new,fun _ member => absurd member (by simp [History.initial])⟩ (fun side => by
        cases side with
        | sender =>
          exact keeps_tickedQueue inject channelCapacity sendCycles 0 _ (min_le_iff.mpr small) rfl
            (fun _ member => absurd member (by simp [History.initial]))
        | receiver => exact keeps_orderly decisions receiveCycles (h := .initial) (by decide))
    exact not_bothBlocked_of_bounded (le_refl _) (started.reach (supports_bounded _) reach)

/-- An output queue for 8 packets that sends 2 in a cycle never blocks both ends. -/
theorem never_both_blocked_small : 2 ≤ channelCapacity ∧ ∀ (inject : Nat → List (List Packet))
    (decisions : List (List Packet) → List (Nat × Bool)) (sendCycles receiveCycles : Nat)
    (c : Config portInterface Port EndResult),
    portMachine.Reach (Config.start .newPort (queueAndReceiver inject decisions sendCycles receiveCycles
      (.newOutputQueue 8 2 (by decide)))) c → ¬ BothBlocked c :=
  ⟨by decide,(never_both_blocked_iff 8 2 (by decide)).mpr (.inl (by decide))⟩

/-- An output queue that sends 65 packets in one cycle blocks both ends. -/
theorem burst_blocks_both : ∃ c : Config portInterface Port EndResult,
    portMachine.Reach (Config.start .newPort (queueAndReceiver (burst default) readyFirst 1 1
      (.newOutputQueue 65 65 (by decide)))) c ∧ BothBlocked c := by
  have empty : (OutputQueue.newOutputQueue 65 65 (by decide)).count = 0 := rfl
  have capacity : channelCapacity < (OutputQueue.newOutputQueue 65 65 (by decide)).capacity := by decide
  obtain ⟨c,reach,filling⟩ := filling_start default empty capacity
  obtain ⟨c',reach',blocked⟩ := filling_full (by decide) filling
  exact ⟨c',reach.trans reach',blocked⟩

end FlowSim.Queue
