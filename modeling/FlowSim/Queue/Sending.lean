import FlowSim.Queue.OutputQueue
import FlowSim.Lib.Events
import FlowSim.Lib.Transition

/-!
An output queue as a bounded first-in first-out list. Its ring buffer lists what was
injected and not yet sent, an injection is made as a whole or not at all, and a tick sends
up to the first refusal (`refines_fifo`).
-/
namespace FlowSim.Queue
open FlowSim.Lib FlowSim.AheadPort
set_option linter.unusedSimpArgs false

/-! ### The list -/

/-- A packet that the receiver accepts in a cycle. -/
def acceptedAt (cycle : Nat) (pkt : Packet) : List (Event portInterface) :=
  [⟨.isReady cycle,true⟩,⟨.send ⟨cycle,pkt⟩,()⟩]

/-- A packet that the receiver refuses. -/
def refusedAt (cycle : Nat) : Event portInterface := ⟨.isReady cycle,false⟩

/-- A list sends `sent` in a cycle, with `rest` left: everything up to the first refusal, as
    far as the bandwidth goes, and then marks the cycle done. -/
structure SendsFirst (cycle outBandwidth : Nat) (waiting sent rest : List Packet) (events : List (Event portInterface)) :
    Prop where
  order : waiting = sent ++ rest
  within : sent.length ≤ outBandwidth
  events_eq : events = sent.flatMap (acceptedAt cycle) ++
    (if sent.length < outBandwidth ∧ rest ≠ [] then [refusedAt cycle] else []) ++ [⟨.markDone cycle,()⟩]

/-- What the events send. -/
def sentPackets (events : List (Event portInterface)) : List PacketWithCycle :=
  events.filterMap fun event =>
    match event.op with
    | .send pwc => some pwc
    | _ => none

theorem sentPackets_append (before after : List (Event portInterface)) :
    sentPackets (before ++ after) = sentPackets before ++ sentPackets after := List.filterMap_append

theorem sentPackets_accepted (cycle : Nat) (sent : List Packet) :
    sentPackets (sent.flatMap (acceptedAt cycle)) = sent.map (PacketWithCycle.mk cycle) := by
  induction sent with
  | nil => rfl
  | cons pkt rest ih =>
    rw [List.flatMap_cons,sentPackets_append,ih]
    rfl

theorem SendsFirst.sent_eq {cycle outBandwidth : Nat} {waiting sent rest : List Packet} {events : List (Event portInterface)}
    (sends : SendsFirst cycle outBandwidth waiting sent rest events) :
    sentPackets events = sent.map (PacketWithCycle.mk cycle) := by
  have none_refused : ∀ stopped : Prop, [Decidable stopped] →
      sentPackets (if stopped then [refusedAt cycle] else []) = [] := by
    intro stopped _
    split <;> rfl
  rw [sends.events_eq,sentPackets_append,sentPackets_append,sentPackets_accepted,none_refused,List.append_nil]
  exact List.append_nil _

namespace OutputQueue

/-! ### One tick -/

theorem does_trySend {cycle : Nat} {pwc : PacketWithCycle} {events : List (Event portInterface)} {sent : Bool}
    (does : (trySend cycle pwc).Does events sent) :
    events = if sent then [⟨.isReady cycle,true⟩,⟨.send pwc,()⟩] else [⟨.isReady cycle,false⟩] := by
  obtain ⟨answer,rest,rfl,later⟩ := does
  cases answer with
  | true =>
    obtain ⟨⟨⟩,last,rfl,rfl,rfl⟩ := later
    rfl
  | false =>
    obtain ⟨rfl,rfl⟩ := later
    rfl

/-- What is sent is a first part of what waits; it is all, or as much as is left of the
    bandwidth, or the next packet is refused. -/
theorem does_sendUpTo (cycle : Nat) : ∀ (left : Nat) {oq oq' : OutputQueue} {events : List (Event portInterface)},
    (sendUpTo cycle left oq).Does events oq' → ∃ sent, oq.packets = sent ++ oq'.packets ∧ sent.length ≤ left ∧
      events = sent.flatMap (acceptedAt cycle) ++
        (if sent.length < left ∧ oq'.packets ≠ [] then [refusedAt cycle] else []) ∧
      oq'.capacity = oq.capacity ∧ oq'.outBandwidth = oq.outBandwidth
  | 0, oq, oq', events, does => by
    obtain ⟨rfl,rfl⟩ := does
    exact ⟨[],rfl,Nat.le_refl _,by simp,rfl,rfl⟩
  | left + 1, oq, oq', events, does => by
    unfold sendUpTo at does
    split at does
    · next some_left =>
      obtain ⟨first,answer,second,rfl,tried,does⟩ := Prog.does_bind.mp does
      have tried := does_trySend tried
      cases answer with
      | true =>
        obtain ⟨sent,order,within,events_eq,capacity,bandwidth⟩ := does_sendUpTo cycle left does
        have front : oq.packets = (oq.front some_left).packet :: packets { oq with toRingBuffer := oq.pop some_left } := by
          rw [packets,oq.toList_pop some_left]
          rfl
        refine ⟨(oq.front some_left).packet :: sent,?_,Nat.succ_le_succ within,?_,capacity.trans (oq.capacity_pop some_left),bandwidth⟩
        · rw [front,order]
          rfl
        · rw [tried,events_eq,if_pos rfl,List.flatMap_cons,List.append_assoc,List.length_cons]
          simp only [Nat.add_lt_add_iff_right]
          rfl
      | false =>
        obtain ⟨rfl,rfl⟩ := does
        have nonempty : oq'.packets ≠ [] := by
          rw [← List.length_pos_iff,oq'.length_packets]
          exact some_left
        have stopped : ([] : List Packet).length < left + 1 ∧ oq'.packets ≠ [] := ⟨Nat.succ_pos left,nonempty⟩
        refine ⟨[],rfl,Nat.zero_le _,?_,rfl,rfl⟩
        rw [tried,if_pos stopped]
        rfl
    · next none_left =>
      obtain ⟨rfl,rfl⟩ := does
      have empty : oq'.packets = [] := by
        rw [← List.length_eq_zero_iff,oq'.length_packets]
        omega
      refine ⟨[],rfl,Nat.zero_le _,?_,rfl,rfl⟩
      rw [if_neg (fun both => both.2 empty)]
      rfl

/-- A tick, for any answers of the receiver. -/
theorem does_tick {oq oq' : OutputQueue} {cycle : Nat} {events : List (Event portInterface)}
    (does : (oq.tick cycle).Does events oq') :
    (∃ sent, SendsFirst cycle oq.outBandwidth oq.packets sent oq'.packets events) ∧
      oq'.capacity = oq.capacity ∧ oq'.outBandwidth = oq.outBandwidth := by
  obtain ⟨first,between,second,rfl,sends,marks⟩ := Prog.does_bind.mp does
  obtain ⟨⟨⟩,last,rfl,rfl,rfl⟩ := marks
  obtain ⟨sent,order,within,events_eq,capacity,bandwidth⟩ := does_sendUpTo cycle _ sends
  exact ⟨⟨sent,order,within,by rw [events_eq]⟩,capacity,bandwidth⟩

/-- An injection is made as a whole when there is room for it, and otherwise not at all. -/
theorem injectPackets_cases (oq : OutputQueue) (cycle : Nat) (pkts : List Packet) :
    (oq.packets.length + pkts.length ≤ oq.capacity ∧ (oq.injectPackets cycle pkts).1 = none ∧
      (oq.injectPackets cycle pkts).2.packets = oq.packets ++ pkts) ∨
    (oq.capacity < oq.packets.length + pkts.length ∧ (oq.injectPackets cycle pkts).1 ≠ none ∧
      (oq.injectPackets cycle pkts).2 = oq) := by
  rw [oq.length_packets]
  by_cases room : oq.count + pkts.length ≤ oq.capacity
  · refine .inl ⟨room,?_,injectPackets_fits cycle room⟩
    unfold injectPackets
    split
    · rfl
    · rfl
  · refine .inr ⟨Nat.not_le.mp room,?_,injectPackets_full cycle room⟩
    have some_given : pkts.length ≠ 0 := by
      intro empty
      have within : oq.count ≤ oq.capacity := oq.count_le
      omega
    unfold injectPackets
    rw [if_neg some_given,dif_neg room]
    exact Option.some_ne_none _

end OutputQueue

/-! ### Runs -/

/-- A queue, what was injected into it and what it has sent so far. -/
structure SendingSession where
  oq : OutputQueue
  injected : List Packet
  sent : List PacketWithCycle

/-- The calls on a queue; in a tick the receiver answers as it likes. -/
inductive SendingAction where
  | injectPackets (cycle : Nat) (pkts : List Packet)
  | tick (cycle : Nat) (answers : Answers portInterface)

namespace SendingSession

def new (capacity : Int) (outBandwidth : Nat) (pos : 0 < outBandwidth) : SendingSession :=
  { oq := .newOutputQueue capacity outBandwidth pos, injected := [], sent := [] }

def injectPackets (s : SendingSession) (cycle : Nat) (pkts : List Packet) : SendingSession :=
  { s with
    oq := (s.oq.injectPackets cycle pkts).2
    injected := if (s.oq.injectPackets cycle pkts).1.isNone then s.injected ++ pkts else s.injected }

def tick (s : SendingSession) (cycle : Nat) (answers : Answers portInterface) : SendingSession :=
  { s with
    oq := ((s.oq.tick cycle).under answers).1
    sent := s.sent ++ sentPackets ((s.oq.tick cycle).under answers).2 }

def step (s : SendingSession) : SendingAction → Option SendingSession
  | .injectPackets cycle pkts => some (s.injectPackets cycle pkts)
  | .tick cycle answers => some (s.tick cycle answers)

/-- The waiting packets are those injected and not yet sent, in order. -/
structure Sound (capacity outBandwidth : Nat) (s : SendingSession) : Prop where
  order : s.injected = s.sent.map PacketWithCycle.packet ++ s.oq.packets
  capacity : s.oq.capacity = capacity
  outBandwidth : s.oq.outBandwidth = outBandwidth

section
variable {capacity outBandwidth : Nat} {s s' : SendingSession}

theorem Sound.injectPackets (sound : Sound capacity outBandwidth s) (cycle : Nat) (pkts : List Packet) :
    Sound capacity outBandwidth (s.injectPackets cycle pkts) := by
  refine ⟨?_,(OutputQueue.capacity_injectPackets ..).trans sound.capacity,
    (OutputQueue.outBandwidth_injectPackets ..).trans sound.outBandwidth⟩
  unfold SendingSession.injectPackets
  dsimp only
  rcases s.oq.injectPackets_cases cycle pkts with ⟨_,accepted,packets⟩ | ⟨_,rejected,same⟩
  · rw [accepted,Option.isNone_none,if_pos rfl,packets,sound.order,List.append_assoc]
  · rw [same,if_neg (by rw [Option.isNone_iff_eq_none]; exact rejected),sound.order]

theorem Sound.tick (sound : Sound capacity outBandwidth s) (cycle : Nat) (answers : Answers portInterface) :
    Sound capacity outBandwidth (s.tick cycle answers) := by
  obtain ⟨⟨sent,sends⟩,capacity',bandwidth'⟩ := OutputQueue.does_tick (Prog.does_under (s.oq.tick cycle) answers)
  refine ⟨?_,capacity'.trans sound.capacity,bandwidth'.trans sound.outBandwidth⟩
  have stamped_packet : PacketWithCycle.packet ∘ PacketWithCycle.mk cycle = id := rfl
  unfold SendingSession.tick
  dsimp only
  rw [sends.sent_eq,List.map_append,List.map_map,stamped_packet,List.map_id,List.append_assoc,← sends.order,sound.order]

theorem Sound.step {action : SendingAction} (sound : Sound capacity outBandwidth s) (stepped : s.step action = some s') :
    Sound capacity outBandwidth s' := by
  cases action with
  | injectPackets cycle pkts =>
    rw [← Option.some.inj stepped]
    exact sound.injectPackets cycle pkts
  | tick cycle answers =>
    rw [← Option.some.inj stepped]
    exact sound.tick cycle answers

end

/-- After any calls, whatever the receiver answered: the queue lists what was injected and
    not yet sent, at most its capacity; an injection is made as a whole, when it fits, or
    fails and changes nothing; and a tick sends up to the first refusal, as far as the
    bandwidth goes, and marks its cycle done. -/
theorem refines_fifo (capacity : Int) (outBandwidth : Nat) (pos : 0 < outBandwidth) (s : SendingSession)
    (reached : Reachable step (new capacity outBandwidth pos) s) :
    s.injected = s.sent.map PacketWithCycle.packet ++ s.oq.packets ∧
    s.oq.packets.length ≤ s.oq.capacity ∧
    s.oq.capacity = (if capacity ≤ 0 then 8 else capacity.toNat) ∧
    (∀ cycle pkts,
      (s.oq.packets.length + pkts.length ≤ s.oq.capacity ∧ (s.oq.injectPackets cycle pkts).1 = none ∧
        (s.oq.injectPackets cycle pkts).2.packets = s.oq.packets ++ pkts) ∨
      (s.oq.capacity < s.oq.packets.length + pkts.length ∧ (s.oq.injectPackets cycle pkts).1 ≠ none ∧
        (s.oq.injectPackets cycle pkts).2 = s.oq)) ∧
    ∀ cycle answers, ∃ sent, SendsFirst cycle outBandwidth s.oq.packets sent ((s.oq.tick cycle).under answers).1.packets
      ((s.oq.tick cycle).under answers).2 := by
  have sound : Sound (if capacity ≤ 0 then 8 else capacity.toNat) outBandwidth s := by
    refine reached.invariant ⟨rfl,?_,rfl⟩ fun _ now _ stepped => now.step stepped
    exact List.length_replicate
  refine ⟨sound.order,?_,sound.capacity,s.oq.injectPackets_cases,?_⟩
  · rw [s.oq.length_packets]
    exact s.oq.count_le
  · intro cycle answers
    obtain ⟨⟨sent,sends⟩,_⟩ := OutputQueue.does_tick (Prog.does_under (s.oq.tick cycle) answers)
    rw [sound.outBandwidth] at sends
    exact ⟨sent,sends⟩

/-- The receiver accepts as many packets of a tick as it is told to. -/
def accepting (count : Nat) : Answers portInterface := fun n op =>
  match op with
  | .isReady _ => decide (n < 2 * count)
  | .retrieve _ => []
  | .drainChannel | .waitDone _ | .updateReady _ _ | .send _ | .markDone _ => ()

/-- A queue with two places that is refused in its first cycle, sends one packet in the next,
    and wraps around. -/
theorem refines_fifo_wrapped : ∃ s, Reachable step (new 2 2 (by decide)) s ∧ (s.sent.length,s.oq.head,s.oq.tail,s.oq.count) = (1,1,1,2) ∧
    s.injected = s.sent.map PacketWithCycle.packet ++ s.oq.packets := by
  let pkt (data : UInt64) : Packet := { sourceID := 0, targetID := 1, data }
  let actions : List SendingAction :=
    [.injectPackets 0 [pkt 1,pkt 2],.tick 0 (accepting 0),.tick 1 (accepting 1),.injectPackets 2 [pkt 3]]
  have wrapped : (runActions step (fun _ _ => True) actions (new 2 2 (by decide))).map
      (fun s => (s.sent.length,s.oq.head,s.oq.tail,s.oq.count)) = some (1,1,1,2) := by decide +kernel
  obtain ⟨s,ran,places⟩ := Option.map_eq_some_iff.mp wrapped
  have reached : Reachable step (new 2 2 (by decide)) s := reaches_runActions actions ran
  exact ⟨s,reached,places,(refines_fifo 2 2 (by decide) s reached).1⟩

end SendingSession
end FlowSim.Queue
