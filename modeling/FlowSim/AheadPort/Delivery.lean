import FlowSim.AheadPort.Port

/-!
A port delivers exactly once and in order. `Transfer` relates the port to the
histories of its two ends: what is in flight for a cycle the receiver has still
to read, and what it has returned for the cycles read so far, is what the sender
sent with that stamp. Every atomic step of either end preserves it, so it holds
under every interleaving of a sender and a receiver that go through the cycles
in order (`receive_exactly_accepted`).
-/
namespace FlowSim.AheadPort
open FlowSim.Lib
set_option linter.unusedSimpArgs false

/-- What the log of one end shows: the last cycle it marked done and the packets
    it sent, the last cycle it waited for and what it read, cycle by cycle. -/
structure History where
  marked : Int
  accepted : List PacketWithCycle
  waited : Int
  returned : List (List Packet)

namespace History

/-- The history of an end that has done nothing. -/
def initial : History := { marked := -1, accepted := [], waited := -1, returned := [] }

def grow (h : History) : (op : PortOp) → op.Resp → History
  | .send pwc, _ => { h with accepted := h.accepted ++ [pwc] }
  | .markDone cycle, _ => { h with marked := cycle }
  | .waitDone cycle, _ => { h with waited := cycle }
  | .retrieve _, pkts => { h with returned := h.returned ++ [pkts] }
  | .drainChannel, _ => h
  | .updateReady _ _, _ => h
  | .isReady _, _ => h

end History

/-- A sender stamps its packets with a cycle it has not marked done, and marks
    cycles in increasing order. -/
def senderDiscipline : Discipline portInterface History where
  pre h
    | .isReady _ => True
    | .send pwc => h.marked < pwc.cycle
    | .markDone cycle => h.marked < cycle
    | _ => False
  post _ _ _ := True
  grow := History.grow

/-- A receiver reads the cycles in order, each once it has waited for it. -/
def receiverDiscipline : Discipline portInterface History where
  pre h
    | .drainChannel => True
    | .waitDone cycle => h.waited < cycle
    | .retrieve cycle => cycle = h.returned.length ∧ cycle ≤ h.waited
    | .updateReady _ _ => True
    | _ => False
  post _ _ _ := True
  grow := History.grow

@[simp] theorem senderDiscipline_grow : senderDiscipline.grow = History.grow := rfl

@[simp] theorem receiverDiscipline_grow : receiverDiscipline.grow = History.grow := rfl

/-- The port holds what the sender with history `s` sent and the receiver with
    history `r` has still to read. -/
structure Transfer (p : Port) (s r : History) : Prop where
  done : p.upstreamSync.done = s.marked
  waited : r.waited ≤ s.marked
  ahead : (r.returned.length : Int) ≤ r.waited + 1
  channel : ∀ pwc ∈ p.channel, r.returned.length ≤ pwc.cycle
  inFlight : ∀ cycle, r.returned.length ≤ cycle → p.inFlight cycle = stamped cycle s.accepted
  returned : ∀ cycle, (inside : cycle < r.returned.length) → r.returned[cycle] = stamped cycle s.accepted

theorem transfer_new : Transfer .newPort .initial .initial where
  done := rfl
  waited := le_refl _
  ahead := by simp [History.initial]
  channel := by simp [Port.newPort]
  inFlight := by simp [Port.inFlight,Port.newPort,History.initial]
  returned := by simp [History.initial]

/-- Draining one packet changes nothing that the histories show. -/
theorem Transfer.drain {p : Port} {s r : History} {pwc : PacketWithCycle} {rest : List PacketWithCycle}
    (transfer : Transfer p s r) (nonempty : p.channel = pwc :: rest) :
    Transfer (Port.store { p with channel := rest } pwc) s r where
  done := transfer.done
  waited := transfer.waited
  ahead := transfer.ahead
  channel := fun other member => transfer.channel other (by rw [nonempty]; exact List.mem_cons_of_mem _ member)
  inFlight := fun cycle late => (Port.inFlight_store nonempty cycle).trans (transfer.inFlight cycle late)
  returned := transfer.returned

/-- A sent packet is in flight for its cycle, which the receiver has not read. -/
theorem Transfer.send {p : Port} {s r : History} {pwc : PacketWithCycle} (transfer : Transfer p s r)
    (fresh : s.marked < pwc.cycle) :
    Transfer { p with channel := p.channel ++ [pwc] } { s with accepted := s.accepted ++ [pwc] } r where
  done := transfer.done
  waited := transfer.waited
  ahead := transfer.ahead
  channel := by
    have waited := transfer.waited
    have ahead := transfer.ahead
    intro other member
    rcases List.mem_append.mp member with old | new
    · exact transfer.channel other old
    · obtain rfl := List.mem_singleton.mp new
      omega
  inFlight := by
    intro cycle late
    have before := transfer.inFlight cycle late
    simp only [Port.inFlight] at before
    simp only [Port.inFlight,stamped_append,← List.append_assoc,before]
  returned := by
    have waited := transfer.waited
    have ahead := transfer.ahead
    intro cycle inside
    have other : pwc.cycle ≠ cycle := by omega
    rw [transfer.returned cycle inside]
    simp [other]

theorem Transfer.markDone {p : Port} {s r : History} {cycle : Nat} (transfer : Transfer p s r)
    (later : s.marked < cycle) :
    Transfer { p with upstreamSync := p.upstreamSync.setDone cycle } { s with marked := cycle } r where
  done := rfl
  waited := le_trans transfer.waited (le_of_lt later)
  ahead := transfer.ahead
  channel := transfer.channel
  inFlight := transfer.inFlight
  returned := transfer.returned

theorem Transfer.waitDone {p : Port} {s r : History} {cycle : Nat} (transfer : Transfer p s r)
    (later : r.waited < cycle) (done : (cycle : Int) ≤ p.upstreamSync.done) :
    Transfer p s { r with waited := cycle } where
  done := transfer.done
  waited := transfer.done ▸ done
  ahead := by have := transfer.ahead; simp only; omega
  channel := transfer.channel
  inFlight := transfer.inFlight
  returned := transfer.returned

/-- Reading the next cycle from an empty channel returns all that was sent for
    it: the sender has marked the cycle done and sends no more for it. -/
theorem Transfer.retrieve {p : Port} {s r : History} (transfer : Transfer p s r) (empty : p.channel = [])
    (waited : (r.returned.length : Int) ≤ r.waited) :
    Transfer { p with pendingPackets := Function.update p.pendingPackets r.returned.length [] } s
      { r with returned := r.returned ++ [p.pendingPackets r.returned.length] } where
  done := transfer.done
  waited := transfer.waited
  ahead := by simp; omega
  channel := by simp [empty]
  inFlight := by
    intro cycle late
    have later : r.returned.length < cycle := by simpa using late
    have before := transfer.inFlight cycle (by omega)
    simpa [Port.inFlight,Function.update_of_ne (Nat.ne_of_gt later)] using before
  returned := by
    intro cycle inside
    rcases Nat.lt_or_ge cycle r.returned.length with old | new
    · rw [List.getElem_append_left old]
      exact transfer.returned cycle old
    · have same : cycle = r.returned.length := by simp at inside; omega
      subst same
      have now := transfer.inFlight r.returned.length (le_refl _)
      simpa [Port.inFlight,empty] using now

/-- Nothing about the transfer depends on readiness. -/
theorem Transfer.downstreamSync {p : Port} {s r : History} (transfer : Transfer p s r) (sync : ComponentSync) :
    Transfer { p with downstreamSync := sync } s r :=
  ⟨transfer.done,transfer.waited,transfer.ahead,transfer.channel,transfer.inFlight,transfer.returned⟩

/-- An operation that has to go on leaves the histories related. -/
theorem Transfer.again {p p' : Port} {s r : History} {op : PortOp} (transfer : Transfer p s r)
    (outcome : p.exec op = .again p') : Transfer p' s r := by
  rcases channel : p.channel with _ | ⟨pwc,rest⟩
  · cases op <;> simp [Port.exec,channel] at outcome <;> split at outcome <;> simp at outcome
  · cases op with
    | drainChannel =>
      simp only [Port.exec,channel,Outcome.again.injEq] at outcome
      exact outcome ▸ transfer.drain channel
    | retrieve cycle =>
      simp only [Port.exec,channel,Outcome.again.injEq] at outcome
      exact outcome ▸ transfer.drain channel
    | _ => simp only [Port.exec] at outcome; (try split at outcome) <;> simp at outcome

/-- What a finished operation of the sender does to the relation. -/
theorem Transfer.sender {p p' : Port} {s r : History} {op : PortOp} {answer : op.Resp} (transfer : Transfer p s r)
    (allowed : senderDiscipline.pre s op) (outcome : p.exec op = .done answer p') :
    Transfer p' (s.grow op answer) r := by
  cases op with
  | isReady cycle =>
    simp only [Port.exec] at outcome
    split at outcome
    · simp at outcome
    · simp only [Outcome.done.injEq] at outcome
      exact outcome.2 ▸ transfer.downstreamSync _
  | send pwc =>
    simp only [Port.exec] at outcome
    split at outcome
    · simp only [Outcome.done.injEq] at outcome
      exact outcome.2 ▸ transfer.send allowed
    · simp at outcome
  | markDone cycle =>
    simp only [Port.exec,Outcome.done.injEq] at outcome
    exact outcome.2 ▸ transfer.markDone allowed
  | _ => exact absurd allowed id

/-- What a finished operation of the receiver does to the relation. -/
theorem Transfer.receiver {p p' : Port} {s r : History} {op : PortOp} {answer : op.Resp} (transfer : Transfer p s r)
    (allowed : receiverDiscipline.pre r op) (outcome : p.exec op = .done answer p') :
    Transfer p' s (r.grow op answer) := by
  cases op with
  | drainChannel =>
    rcases channel : p.channel with _ | ⟨pwc,rest⟩ <;> simp only [Port.exec,channel] at outcome
    · simp only [Outcome.done.injEq] at outcome
      exact outcome.2 ▸ transfer
    · simp at outcome
  | waitDone cycle =>
    simp only [Port.exec] at outcome
    split at outcome
    · next done =>
      simp only [Outcome.done.injEq] at outcome
      exact outcome.2 ▸ transfer.waitDone allowed (by simpa [ComponentSync.waitDone] using done)
    · simp at outcome
  | retrieve cycle =>
    obtain ⟨rfl,waited⟩ := allowed
    rcases channel : p.channel with _ | ⟨pwc,rest⟩ <;> simp only [Port.exec,channel] at outcome
    · simp only [Outcome.done.injEq] at outcome
      obtain ⟨rfl,rfl⟩ := outcome
      have read := transfer.retrieve channel waited
      rw [channel] at read
      exact read
    · simp at outcome
  | updateReady cycle ready =>
    simp only [Port.exec] at outcome
    split at outcome
    · simp at outcome
    · simp only [Outcome.done.injEq] at outcome
      exact outcome.2 ▸ transfer.downstreamSync _
  | _ => exact absurd allowed id

/-! ### A sender and a receiver on one port -/

/-- What a sender tries in one cycle: it may choose each packet by the answers
    to the attempts before it. -/
inductive SendScript where
  | stop
  | trySend (pkt : Packet) (next : Bool → SendScript)

/-- The attempts of a cycle, with their answers. -/
def SendScript.run (cycle : Nat) : SendScript → Prog portInterface (List (Packet × Bool))
  | .stop => return []
  | .trySend pkt next => do
    let sent ← AheadPort.trySend cycle ⟨cycle,pkt⟩
    return (pkt,sent) :: (← (next sent).run cycle)

/-- A sender that goes through the cycles: after its attempts it marks each
    cycle done. What it tries may depend on all answers so far. -/
def sender (script : List (List (Packet × Bool)) → SendScript) :
    Nat → List (List (Packet × Bool)) → Prog portInterface (List (List (Packet × Bool)))
  | 0, past => return past
  | cycles + 1, past => do
    let attempts ← (script past).run past.length
    markDone past.length
    sender script cycles (past ++ [attempts])

/-- A receiver that goes through the cycles: it decides any readiness, depending
    on all packets so far, and reads the cycle. -/
def receiver (decisions : List (List Packet) → List (Nat × Bool)) :
    Nat → List (List Packet) → Prog portInterface (List (List Packet))
  | 0, past => do
    (decisions past).forM (fun (cycle,ready) => updateReady cycle ready)
    return past
  | cycles + 1, past => do
    (decisions past).forM (fun (cycle,ready) => updateReady cycle ready)
    let pkts ← receive past.length
    receiver decisions cycles (past ++ [pkts])

/-- The packets whose attempt was answered true. -/
def sentOf (attempts : List (Packet × Bool)) : List Packet := (attempts.filter Prod.snd).map Prod.fst

/-- A sender's history agrees with the answers it got. -/
def AgreesWith (past : List (List (Packet × Bool))) (h : History) : Prop :=
  ∀ cycle, stamped cycle h.accepted = sentOf (past.getD cycle [])

theorem keeps_trySend {h : History} (pwc : PacketWithCycle) (fresh : h.marked < pwc.cycle) (cycle : Nat) :
    Keeps senderDiscipline (trySend cycle pwc)
      (fun h' sent => h' = if sent then { h with accepted := h.accepted ++ [pwc] } else h) h := by
  refine ⟨trivial,fun ready _ => ?_⟩
  cases ready with
  | true => exact ⟨fresh,fun _ _ => rfl⟩
  | false => rfl

theorem keeps_script (cycle : Nat) : ∀ (script : SendScript) {h : History}, h.marked < cycle →
    Keeps senderDiscipline (script.run cycle)
      (fun h' attempts => h' = { h with accepted := h.accepted ++ (sentOf attempts).map (PacketWithCycle.mk cycle) }) h
  | .stop, h, _ => by simp [SendScript.run,sentOf]
  | .trySend pkt next, h, fresh => by
    refine (keeps_trySend ⟨cycle,pkt⟩ fresh cycle).bind ?_
    rintro h' sent rfl
    refine (keeps_script cycle (next sent) ?_).bind ?_
    · cases sent <;> exact fresh
    · rintro h' attempts rfl
      cases sent <;> simp [sentOf]

theorem stamped_map_mk (cycle c : Nat) (pkts : List Packet) :
    stamped c (pkts.map (PacketWithCycle.mk cycle)) = if cycle = c then pkts else [] := by
  by_cases same : cycle = c
  · subst same
    have all : (pkts.map (PacketWithCycle.mk cycle)).filter (fun pwc => pwc.cycle = cycle) =
        pkts.map (PacketWithCycle.mk cycle) :=
      List.filter_eq_self.mpr (by simp)
    simp [stamped,all,Function.comp_def]
  · rw [if_neg same]
    exact stamped_eq_nil (by simpa using fun _ _ => same)

theorem keeps_sender (script : List (List (Packet × Bool)) → SendScript) :
    ∀ (cycles : Nat) (past : List (List (Packet × Bool))) {h : History}, h.marked < past.length →
      AgreesWith past h → Keeps senderDiscipline (sender script cycles past) (fun h' past => AgreesWith past h') h
  | 0, past, h, _, agrees => agrees
  | cycles + 1, past, h, fresh, agrees => by
    refine (keeps_script past.length (script past) fresh).bind ?_
    rintro h' attempts rfl
    refine ⟨fresh,fun _ _ => keeps_sender script cycles (past ++ [attempts]) ?_ ?_⟩
    · simp [senderDiscipline,History.grow]
    · intro cycle
      have before := agrees cycle
      simp only [senderDiscipline,History.grow,stamped_append,stamped_map_mk,before]
      rcases Nat.lt_trichotomy cycle past.length with old | same | new
      · simp [Nat.ne_of_gt old,List.getElem?_append_left old]
      · subst same; simp [sentOf]
      · rw [if_neg (by omega),List.getD_eq_default _ _ (by omega),List.getD_eq_default _ _ (by simp; omega)]
        simp

theorem keeps_decisions (decisions : List (Nat × Bool)) (h : History) :
    Keeps receiverDiscipline (decisions.forM (fun (cycle,ready) => updateReady cycle ready))
      (fun h' _ => h' = h) h :=
  Keeps.forM _ (fun _ h' => h' = h) (fun (_,_) _ _ same => ⟨trivial,fun _ _ => same⟩) rfl

theorem keeps_receive {h : History} (behind : h.waited < h.returned.length) :
    Keeps receiverDiscipline (receive h.returned.length)
      (fun h' pkts => h' = { h with waited := h.returned.length, returned := h.returned ++ [pkts] }) h :=
  ⟨trivial,fun _ _ => ⟨behind,fun _ _ => ⟨⟨rfl,le_refl _⟩,fun _ _ => rfl⟩⟩⟩

theorem keeps_receiver (decisions : List (List Packet) → List (Nat × Bool)) :
    ∀ (cycles : Nat) {h : History}, h.waited < h.returned.length →
      Keeps receiverDiscipline (receiver decisions cycles h.returned) (fun h' past => h'.returned = past) h
  | 0, h, _ => by
    refine (keeps_decisions _ h).bind ?_
    rintro h' _ rfl
    rfl
  | cycles + 1, h, behind => by
    refine (keeps_decisions _ h).bind ?_
    rintro h' _ rfl
    refine (keeps_receive behind).bind ?_
    rintro h'' pkts rfl
    exact keeps_receiver decisions cycles (h := { h' with waited := _, returned := _ }) (by simp)

/-- The two ends of a port. -/
inductive Side where
  | sender
  | receiver
deriving DecidableEq, Repr

/-- What an end returns: the attempts of every cycle with their answers, or the
    packets read in every cycle. -/
abbrev Side.Result : Side → Type
  | .sender => List (List (Packet × Bool))
  | .receiver => List (List Packet)

/-- Both ends at cycle 0 of a new port. -/
def ends (script : List (List (Packet × Bool)) → SendScript) (decisions : List (List Packet) → List (Nat × Bool))
    (sendCycles receiveCycles : Nat) : (side : Side) → Prog portInterface side.Result
  | .sender => sender script sendCycles []
  | .receiver => receiver decisions receiveCycles []

@[simp] def sideDiscipline : Side → Discipline portInterface History
  | .sender => senderDiscipline
  | .receiver => receiverDiscipline

theorem supports_transfer :
    Supports portMachine sideDiscipline (fun p h => Transfer p (h .sender) (h .receiver)) where
  again := fun side op _ transfer _ outcome => transfer.again outcome
  done := by
    intro p h side op answer p' transfer allowed outcome
    cases side with
    | sender => exact ⟨trivial,by simpa using transfer.sender allowed outcome⟩
    | receiver => exact ⟨trivial,by simpa using transfer.receiver allowed outcome⟩

/-- What the log of an end of a port shows. -/
def historyOf (log : List (Event portInterface)) : History :=
  log.foldl (fun h event => h.grow event.op event.answer) .initial

/-- Under every interleaving of the two ends, what the receiver has returned for
    a cycle is what the sender has sent in it, in order; and a sender that has
    gone through its cycles has sent exactly the packets whose `trySend` was
    answered true. -/
theorem receive_exactly_accepted (script : List (List (Packet × Bool)) → SendScript)
    (decisions : List (List Packet) → List (Nat × Bool)) (sendCycles receiveCycles : Nat)
    (c : Config portInterface Port Side.Result)
    (reach : portMachine.Reach (Config.start .newPort (ends script decisions sendCycles receiveCycles)) c) :
    (∀ cycle, (inside : cycle < (historyOf (c.log .receiver)).returned.length) →
      (historyOf (c.log .receiver)).returned[cycle] = stamped cycle (historyOf (c.log .sender)).accepted) ∧
    (∀ past, c.prog .receiver = .done past → past = (historyOf (c.log .receiver)).returned) ∧
    (∀ past, c.prog .sender = .done past →
      ∀ cycle, stamped cycle (historyOf (c.log .sender)).accepted = sentOf (past.getD cycle [])) := by
  let post : (side : Side) → History → side.Result → Prop
    | .sender, h, past => AgreesWith past h
    | .receiver, h, past => h.returned = past
  have started : Governed sideDiscipline (fun p h => Transfer p (h .sender) (h .receiver)) (fun _ => .initial)
      post (Config.start .newPort (ends script decisions sendCycles receiveCycles)) :=
    .start _ _ transfer_new (fun side => by
      cases side with
      | sender =>
        exact keeps_sender script sendCycles [] (by decide)
          (fun cycle => by simp [History.initial,sentOf])
      | receiver =>
        exact keeps_receiver decisions receiveCycles (h := .initial) (by decide))
  have governed := started.reach supports_transfer reach
  exact ⟨governed.related.returned,fun past finished => (governed.result finished).symm,
    fun past finished => governed.result finished⟩

/-- Two packets sent in cycle 0 and one in cycle 1, while the receiver drains
    the later one before it reads cycle 0. -/
theorem receive_exactly_accepted_interleaved :
    let pkt (data : UInt64) : Packet := { sourceID := 0, targetID := 1, data }
    let script (past : List (List (Packet × Bool))) : SendScript :=
      match past with
      | [] => .trySend (pkt 1) fun _ => .trySend (pkt 2) fun _ => .stop
      | _ => .trySend (pkt 3) fun _ => .stop
    let decisions (past : List (List Packet)) : List (Nat × Bool) := if past = [] then [(0,true),(1,true)] else []
    let schedule := List.replicate 2 Side.receiver ++ List.replicate 7 Side.sender ++
      List.replicate 12 Side.receiver ++ [.sender] ++ List.replicate 6 Side.receiver
    let final := portMachine.run schedule (Config.start .newPort (ends script decisions 2 2))
    (historyOf (final.log .receiver)).returned = [[pkt 1,pkt 2],[pkt 3]] ∧
      ∀ cycle, (inside : cycle < (historyOf (final.log .receiver)).returned.length) →
        (historyOf (final.log .receiver)).returned[cycle] = stamped cycle (historyOf (final.log .sender)).accepted :=
  ⟨by decide +kernel,(receive_exactly_accepted _ _ 2 2 _ (portMachine.reach_run _ _)).1⟩

end FlowSim.AheadPort
