import FlowSim.AheadPort.Port
import FlowSim.Lib.Confluence

/-!
What a port is for: the sender's done mark, a readiness decision for each cycle,
and for each cycle the packets on their way. The port's channel and its pending
packets are one store of packets in flight, and its watermark and dense array
one table of decisions (`port_refines_exchange`). Operations of the two ends of
an exchange are independent as long as they keep out of each other's cycles.
-/
namespace FlowSim.AheadPort
open FlowSim.Lib
set_option linter.unusedSimpArgs false

/-- The meaning of a port. -/
structure Exchange where
  done : Int
  decision : Nat → Option Bool
  inFlight : Nat → List Packet

namespace Exchange

/-- The effect of an operation on the meaning. A read of a decision makes the
    decisions up to its cycle read as ready from then on. -/
def exec (e : Exchange) : (op : PortOp) → Outcome Exchange op.Resp
  | .drainChannel => .done () e
  | .waitDone cycle => if (cycle : Int) ≤ e.done then .done () e else .blocked
  | .retrieve cycle => .done (e.inFlight cycle) { e with inFlight := Function.update e.inFlight cycle [] }
  | .updateReady cycle ready =>
    match e.decision cycle with
    | none => .done () { e with decision := Function.update e.decision cycle (some ready) }
    | some old => if ready = old then .done () e else .blocked
  | .isReady cycle =>
    match e.decision cycle with
    | none => .blocked
    | some ready => .done ready { e with decision := fun c => if c ≤ cycle then some true else e.decision c }
  | .send pwc =>
    .done () { e with inFlight := Function.update e.inFlight pwc.cycle (e.inFlight pwc.cycle ++ [pwc.packet]) }
  | .markDone cycle => .done () { e with done := cycle }

end Exchange

/-- The operations of a port acting on its meaning. -/
def exchangeMachine : Machine portInterface Exchange := ⟨Exchange.exec⟩

/-- The meaning of a port's state. -/
def Port.exchange (p : Port) : Exchange where
  done := p.upstreamSync.done
  decision := p.downstreamSync.answer
  inFlight := p.inFlight

/-! ### Ports refine exchanges -/

theorem Port.exchange_again {p p' : Port} {op : PortOp} (outcome : p.exec op = .again p') :
    p'.exchange = p.exchange := by
  have stored : ∀ {pwc rest}, p.channel = pwc :: rest →
      (Port.store { p with channel := rest } pwc).exchange = p.exchange := by
    intro pwc rest nonempty
    simp only [Port.exchange,Exchange.mk.injEq]
    exact ⟨rfl,rfl,funext (Port.inFlight_store nonempty)⟩
  cases op with
  | drainChannel =>
    rcases channel : p.channel with _ | ⟨pwc,rest⟩ <;> simp only [Port.exec,channel] at outcome
    · simp at outcome
    · simp only [Outcome.again.injEq] at outcome
      exact outcome ▸ stored channel
  | retrieve cycle =>
    rcases channel : p.channel with _ | ⟨pwc,rest⟩ <;> simp only [Port.exec,channel] at outcome
    · simp at outcome
    · simp only [Outcome.again.injEq] at outcome
      exact outcome ▸ stored channel
  | _ => simp only [Port.exec] at outcome; (try split at outcome) <;> simp at outcome

theorem Port.inFlight_send (p : Port) (pwc : PacketWithCycle) :
    Port.inFlight { p with channel := p.channel ++ [pwc] } =
      Function.update p.inFlight pwc.cycle (p.inFlight pwc.cycle ++ [pwc.packet]) := by
  funext cycle
  by_cases same : cycle = pwc.cycle
  · subst same
    simp [Port.inFlight]
  · simp [Port.inFlight,same,Ne.symm same]

theorem Port.inFlight_retrieve {p : Port} (empty : p.channel = []) (cycle : Nat) :
    Port.inFlight { p with pendingPackets := Function.update p.pendingPackets cycle [] } =
      Function.update p.inFlight cycle [] := by
  funext c
  by_cases same : c = cycle
  · subst same
    simp [Port.inFlight,empty]
  · simp [Port.inFlight,empty,same]

theorem Port.exchange_done {p p' : Port} {op : PortOp} {answer : op.Resp} (outcome : p.exec op = .done answer p') :
    p.exchange.exec op = .done answer p'.exchange := by
  cases op with
  | drainChannel =>
    rcases channel : p.channel with _ | ⟨pwc,rest⟩ <;> simp only [Port.exec,channel] at outcome
    · cases outcome
      rfl
    · simp at outcome
  | waitDone cycle =>
    simp only [Port.exec] at outcome
    split at outcome
    · next done =>
      cases outcome
      simp only [ComponentSync.waitDone,decide_eq_true_eq] at done
      exact if_pos done
    · simp at outcome
  | retrieve cycle =>
    rcases channel : p.channel with _ | ⟨pwc,rest⟩ <;> simp only [Port.exec,channel] at outcome
    · cases outcome
      simp only [Exchange.exec,Port.exchange,← channel,Port.inFlight_retrieve channel]
      simp only [Port.inFlight,channel,stamped_nil,List.append_nil]
    · simp at outcome
  | updateReady cycle ready =>
    simp only [Port.exec] at outcome
    rcases updated : p.downstreamSync.updateReady cycle ready with _ | sync <;> simp only [updated] at outcome
    · simp at outcome
    · cases outcome
      obtain ⟨_,answers⟩ := ComponentSync.updateReady_some updated
      rcases open_ : p.downstreamSync.answer cycle with _ | old
      · have decided : sync.answer = Function.update p.downstreamSync.answer cycle (some ready) :=
          funext fun c => by rw [Function.update_apply,answers c]
        simp only [Exchange.exec,Port.exchange,open_,decided]
        rfl
      · rw [ComponentSync.updateReady_decided open_] at updated
        split at updated
        · next same =>
          obtain rfl := Option.some.inj updated
          simp only [Exchange.exec,Port.exchange,open_,if_pos same]
        · simp at updated
  | isReady cycle =>
    simp only [Port.exec] at outcome
    rcases read : p.downstreamSync.ready cycle with _ | ⟨ready,sync⟩ <;> simp only [read] at outcome
    · simp at outcome
    · cases outcome
      obtain ⟨now,_,later⟩ := ComponentSync.ready_eq_some read
      have read_on : sync.answer = fun c => if c ≤ cycle then some true else p.downstreamSync.answer c := by
        funext c
        rw [later c]
        by_cases upTo : c ≤ cycle
        · by_cases covered : p.downstreamSync.readyUntil ≤ cycle
          · rw [if_pos upTo,if_pos ⟨upTo,covered⟩]
          · rw [if_pos upTo,if_neg (fun both => covered both.2)]
            simp [ComponentSync.answer,ComponentSync.decided,show c < p.downstreamSync.readyUntil by omega]
        · rw [if_neg upTo,if_neg (fun both => upTo both.1)]
      simp only [Exchange.exec,Port.exchange,now,read_on]
      rfl
  | send pwc =>
    simp only [Port.exec] at outcome
    split at outcome
    · cases outcome
      simp only [Exchange.exec,Port.exchange,Port.inFlight_send]
    · simp at outcome
  | markDone cycle =>
    cases outcome
    rfl

/-- Every finished operation of a port is that operation on what the port means;
    draining the channel does not change the meaning. -/
theorem port_refines_exchange : portMachine.Refines exchangeMachine Port.exchange where
  again := Port.exchange_again
  done := Port.exchange_done

end FlowSim.AheadPort
