import FlowSim.AheadPort.Exchange
import FlowSim.Lib.Traffic

/-!
The packets that a port carries. A packet that is sent is on its way until it is received, and
nothing else puts a packet on its way or takes one off (`exchange_conserves`). Which packets may
be sent into a port is a parameter; only such packets are received from it.
-/
namespace FlowSim.AheadPort
open FlowSim.Lib
set_option linter.unusedSimpArgs false

/-- What the operations of a port carry. -/
def packetTraffic : Traffic portInterface (Multiset Packet) where
  given
    | .send pwc => {pwc.packet}
    | _ => 0
  taken
    | .retrieve _, pkts => (pkts : List Packet)
    | _, _ => 0

/-- Only packets that may be there are sent. -/
def Puts (may : Packet → Prop) : PortOp → Prop
  | .send pwc => may pwc.packet
  | _ => True

/-- Only packets that may be there are received. -/
def Gets (may : Packet → Prop) : (op : PortOp) → op.Resp → Prop
  | .retrieve _, pkts => ∀ pkt ∈ (pkts : List Packet), may pkt
  | _, _ => True

/-- The discipline of the programs that put only packets that may be there into a port. -/
abbrev carrying (may : Packet → Prop) : Discipline portInterface (Account (Multiset Packet)) :=
  packetTraffic.discipline (Puts may) (Gets may)

namespace Exchange

/-- The packets on their way. -/
noncomputable def packets (e : Exchange) : Multiset Packet := ∑ᶠ cycle, (e.inFlight cycle : Multiset Packet)

/-- Only finitely many packets are on their way, and they may be there. -/
structure Carries (may : Packet → Prop) (e : Exchange) : Prop where
  finite : (fun cycle => (e.inFlight cycle : Multiset Packet)).support.Finite
  placed : ∀ cycle, ∀ pkt ∈ e.inFlight cycle, may pkt

variable {may : Packet → Prop} {e : Exchange}

theorem packets_update (carries : e.Carries may) (cycle : Nat) (pkts : List Packet) :
    packets { e with inFlight := Function.update e.inFlight cycle pkts } + (e.inFlight cycle : Multiset Packet) =
      e.packets + (pkts : Multiset Packet) := by
  have same : (fun c => (Function.update e.inFlight cycle pkts c : Multiset Packet)) =
      Function.update (fun c => (e.inFlight c : Multiset Packet)) cycle (pkts : Multiset Packet) := by
    funext c
    by_cases here : c = cycle
    · subst here
      rw [Function.update_self,Function.update_self]
    · rw [Function.update_of_ne here,Function.update_of_ne here]
  show (∑ᶠ c, (Function.update e.inFlight cycle pkts c : Multiset Packet)) + _ = _
  rw [same]
  exact finsum_update carries.finite cycle (pkts : Multiset Packet)

theorem Carries.update (carries : e.Carries may) (cycle : Nat) {pkts : List Packet} (placed : ∀ pkt ∈ pkts, may pkt) :
    Carries may { e with inFlight := Function.update e.inFlight cycle pkts } where
  finite := by
    refine (carries.finite.insert cycle).subset fun c member => ?_
    by_cases here : c = cycle
    · exact .inl here
    · have member : (Function.update e.inFlight cycle pkts c : Multiset Packet) ≠ 0 := member
      rw [Function.update_of_ne here] at member
      exact .inr member
  placed := by
    intro c
    show ∀ pkt ∈ Function.update e.inFlight cycle pkts c, may pkt
    by_cases here : c = cycle
    · subst here
      rwa [Function.update_self]
    · rw [Function.update_of_ne here]
      exact carries.placed c

end Exchange

/-- An exchange keeps what is sent until it is received. -/
theorem exchange_conserves (may : Packet → Prop) :
    exchangeMachine.Conserves packetTraffic (Puts may) (Gets may) (Exchange.Carries may) Exchange.packets where
  again := by
    intro e op e' _ again
    cases op with
    | waitDone cycle =>
      simp only [exchangeMachine,Exchange.exec] at again
      split at again <;> cases again
    | updateReady cycle ready =>
      simp only [exchangeMachine,Exchange.exec] at again
      split at again
      · cases again
      · split at again <;> cases again
    | isReady cycle =>
      simp only [exchangeMachine,Exchange.exec] at again
      split at again <;> cases again
    | _ => cases again
  done := by
    intro e op answer e' carries allowed done
    cases op with
    | drainChannel =>
      cases done
      exact ⟨carries,trivial,rfl⟩
    | waitDone cycle =>
      simp only [exchangeMachine,Exchange.exec] at done
      split at done
      · cases done
        exact ⟨carries,trivial,rfl⟩
      · cases done
    | retrieve cycle =>
      cases done
      refine ⟨carries.update cycle (by simp),carries.placed cycle,?_⟩
      exact Exchange.packets_update carries cycle []
    | updateReady cycle ready =>
      simp only [exchangeMachine,Exchange.exec] at done
      split at done
      · cases done
        exact ⟨⟨carries.finite,carries.placed⟩,trivial,rfl⟩
      · split at done
        · cases done
          exact ⟨carries,trivial,rfl⟩
        · cases done
    | isReady cycle =>
      simp only [exchangeMachine,Exchange.exec] at done
      split at done
      · cases done
      · cases done
        exact ⟨⟨carries.finite,carries.placed⟩,trivial,rfl⟩
    | send pwc =>
      cases done
      have moved := Exchange.packets_update carries pwc.cycle (e.inFlight pwc.cycle ++ [pwc.packet])
      refine ⟨carries.update pwc.cycle ?_,trivial,?_⟩
      · intro pkt member
        rcases List.mem_append.mp member with old | new
        · exact carries.placed _ pkt old
        · rw [List.mem_singleton.mp new]
          exact allowed
      · refine add_right_cancel (b := (e.inFlight pwc.cycle : Multiset Packet)) ?_
        show Exchange.packets _ + 0 + _ = e.packets + {pwc.packet} + _
        rw [add_zero,moved,add_right_comm,add_assoc,← Multiset.coe_add]
        rfl
    | markDone cycle =>
      cases done
      exact ⟨⟨carries.finite,carries.placed⟩,trivial,rfl⟩

/-! ### The methods of a port -/

section
variable {may : Packet → Prop} {a : Account (Multiset Packet)} {start now : Multiset Packet} {cycle : Nat}

/-- An operation that carries nothing. -/
theorem grow_quiet {op : PortOp} {answer : op.Resp} (gives : packetTraffic.given op = 0) (takes : packetTraffic.taken op answer = 0) :
    (carrying may).grow a op answer = a := by
  show (a.give (packetTraffic.given op)).take (packetTraffic.taken op answer) = a
  rw [gives,takes,Account.give_zero,Account.take_zero]

/-- What is received is added to what the receiver has. -/
theorem keeps_receive_carrying (balances : a.Balances start now) (cycle : Nat) :
    Keeps (carrying may) (receive cycle) (fun a pkts => a.Balances start (now + (pkts : Multiset Packet)) ∧ ∀ pkt ∈ pkts, may pkt) a := by
  refine ⟨trivial,fun _ _ => ⟨trivial,fun _ _ => ⟨trivial,fun pkts learned => ⟨?_,learned⟩⟩⟩⟩
  have drained : ∀ {a : Account (Multiset Packet)}, (carrying may).grow a .drainChannel () = a := grow_quiet rfl rfl
  have waited : ∀ {a : Account (Multiset Packet)}, (carrying may).grow a (.waitDone cycle) () = a := grow_quiet rfl rfl
  rw [drained,waited]
  show ((a.give 0).take (pkts : Multiset Packet)).Balances start _
  rw [Account.give_zero]
  exact balances.take _

/-- A packet that is sent leaves the sender, and one that is refused stays. -/
theorem keeps_trySend_carrying (pwc : PacketWithCycle) (balances : a.Balances start (now + {pwc.packet})) (allowed : may pwc.packet)
    (cycle : Nat) : Keeps (carrying may) (trySend cycle pwc)
      (fun a sent => a.Balances start (if sent = true then now else now + {pwc.packet})) a := by
  refine ⟨trivial,fun ready _ => ?_⟩
  rw [grow_quiet rfl rfl]
  cases ready with
  | true =>
    refine ⟨allowed,fun _ _ => ?_⟩
    show ((a.give {pwc.packet}).take 0).Balances start now
    rw [Account.take_zero]
    exact balances.give
  | false => exact balances

theorem keeps_isReady_carrying (balances : a.Balances start now) (cycle : Nat) :
    Keeps (carrying may) (isReady cycle) (fun a _ => a.Balances start now) a := by
  refine ⟨trivial,fun _ _ => ?_⟩
  rw [grow_quiet rfl rfl]
  exact balances

theorem keeps_updateReady_carrying (balances : a.Balances start now) (cycle : Nat) (ready : Bool) :
    Keeps (carrying may) (updateReady cycle ready) (fun a _ => a.Balances start now) a := by
  refine ⟨trivial,fun _ _ => ?_⟩
  rw [grow_quiet rfl rfl]
  exact balances

theorem keeps_markDone_carrying (balances : a.Balances start now) (cycle : Nat) :
    Keeps (carrying may) (markDone cycle) (fun a _ => a.Balances start now) a := by
  refine ⟨trivial,fun _ _ => ?_⟩
  rw [grow_quiet rfl rfl]
  exact balances

end

/-! ### Families of ports -/

section
variable {P Q α : Type} {R : Account (Multiset Packet) → α → Prop} {a : Account (Multiset Packet)}

/-- The discipline of the programs that put packets only into the ports where they may be. -/
abbrev carryingEach (may : P → Packet → Prop) : Discipline (portInterface.each P) (Account (Multiset Packet)) :=
  (packetTraffic.each P).discipline (fun op => Puts (may op.1) op.2) fun op => Gets (may op.1) op.2

theorem keeps_inside_carrying (may : P → Packet → Prop) {p : P} {prog : Prog portInterface α}
    (keeps : Keeps (carrying (may p)) prog R a) : Keeps (carryingEach may) (prog.inside p) R a :=
  keeps_inside_traffic (I := portInterface) (fun p => Puts (may p)) (fun p => Gets (may p)) keeps

theorem keeps_relabel_carrying (may : P → Packet → Prop) {f : Q → P} {prog : Prog (portInterface.each Q) α}
    (keeps : Keeps (carryingEach fun q => may (f q)) prog R a) : Keeps (carryingEach may) (prog.relabel f) R a :=
  keeps_relabel_traffic (I := portInterface) (fun p => Puts (may p)) (fun p => Gets (may p)) keeps

end
end FlowSim.AheadPort
