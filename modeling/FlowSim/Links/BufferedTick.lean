import FlowSim.Links.BufferedLinkType

/-!
One tick of a buffered link, run on its two ports. The programs of the link are run once,
and `step_tick` says when a tick is finished and what it leaves.
-/
namespace FlowSim.Links
open FlowSim.Lib FlowSim.AheadPort
set_option linter.unusedSimpArgs false

/-! ### The programs of a tick -/

section
variable {α β : Type}

@[simp] theorem atEnd_done (side : LinkEnd) (value : α) : atEnd side (.done value) = .done value := rfl

@[simp] theorem atEnd_call (side : LinkEnd) (op : PortOp) (next : op.Resp → Prog portInterface α) :
    atEnd side (.call op next) = .call (side,op) (fun answer => atEnd side (next answer)) := rfl

theorem atEnd_bind (side : LinkEnd) (p : Prog portInterface α) (f : α → Prog portInterface β) :
    atEnd side (p >>= f) = atEnd side p >>= fun value => atEnd side (f value) := by
  induction p with
  | done value => rfl
  | call op next ih => simp only [Prog.call_bind,atEnd_call,ih]

end

/-- The exchange once the decisions up to the cycle have been read. -/
def Exchange.readTo (e : Exchange) (cycle : Nat) : Exchange :=
  { e with decision := fun c => if c ≤ cycle then some true else e.decision c }

/-- The exchange with more packets on their way. -/
def Exchange.carrying (e : Exchange) (pkts : List PacketWithCycle) : Exchange :=
  { e with inFlight := fun c => e.inFlight c ++ stamped c pkts }

/-- The exchange once the packets of the cycle have been taken. -/
def Exchange.without (e : Exchange) (cycle : Nat) : Exchange :=
  { e with inFlight := Function.update e.inFlight cycle [] }

section
variable (w : LinkWorld) (cycle : Nat)

theorem exec_drainChannel : w.exec (.upstream,.drainChannel) = some ((),w) := rfl

theorem exec_waitDone : w.exec (.upstream,.waitDone cycle) = if (cycle : Int) ≤ w.up.done then some ((),w) else none := by
  simp only [LinkWorld.exec,Exchange.now,Exchange.exec]
  split_ifs <;> rfl

theorem exec_updateReady (ready : Bool) : w.exec (.upstream,.updateReady cycle ready) =
    (Exchange.now w.up (.updateReady cycle ready)).map fun (_,up) =>
      ((),{ w with up, signalled := Function.update w.signalled cycle (some ready) }) := rfl

theorem exec_isReady : w.exec (.downstream,.isReady cycle) =
    (w.down.decision cycle).map fun ready => (ready,{ w with down := Exchange.readTo w.down cycle }) := by
  simp only [LinkWorld.exec,Exchange.now,Exchange.exec]
  rcases w.down.decision cycle with _ | ready
  · rfl
  · rfl

/-- A receive waits until the cycle is marked done. -/
theorem run_receive : (atEnd .upstream (receive cycle)).runWith LinkWorld.exec w =
    if (cycle : Int) ≤ w.up.done then
      some (w.up.inFlight cycle,
        { w with up := Exchange.without w.up cycle, received := w.received ++ w.up.inFlight cycle })
    else none := by
  show (w.exec (.upstream,.drainChannel)).bind (fun answered => (answered.2.exec (.upstream,.waitDone cycle)).bind
    fun answered => (answered.2.exec (.upstream,.retrieve cycle)).bind some) = _
  rw [exec_drainChannel,Option.bind_some,exec_waitDone]
  split_ifs
  · rfl
  · rfl

theorem run_isReady : (atEnd .downstream (isReady cycle)).runWith LinkWorld.exec w =
    (w.down.decision cycle).map fun ready => (ready,{ w with down := Exchange.readTo w.down cycle }) := by
  show (w.exec (.downstream,.isReady cycle)).bind some = _
  rw [exec_isReady,Option.bind_fun_some]

theorem run_updateReady (ready : Bool) : (atEnd .upstream (updateReady cycle ready)).runWith LinkWorld.exec w =
    (Exchange.now w.up (.updateReady cycle ready)).map fun (_,up) =>
      ((),{ w with up, signalled := Function.update w.signalled cycle (some ready) }) := by
  show (w.exec (.upstream,.updateReady cycle ready)).bind some = _
  rw [exec_updateReady,Option.bind_fun_some]

end

theorem carrying_nil (e : Exchange) : Exchange.carrying e [] = e := by
  simp only [Exchange.carrying,stamped_nil,List.append_nil]

theorem carrying_cons (e : Exchange) (pwc : PacketWithCycle) (rest : List PacketWithCycle) :
    Exchange.carrying e (pwc :: rest) = Exchange.carrying { e with
      inFlight := Function.update e.inFlight pwc.cycle (e.inFlight pwc.cycle ++ [pwc.packet]) } rest := by
  simp only [Exchange.carrying,Exchange.mk.injEq,true_and]
  funext c
  rw [stamped_cons,Function.update_apply]
  by_cases here : pwc.cycle = c
  · subst here
    simp
  · rw [if_neg here,if_neg (Ne.symm here)]

/-- A packet is sent once the cycle has been read as ready. -/
theorem run_trySend {w : LinkWorld} {cycle : Nat} (read : Exchange.readTo w.down cycle = w.down) (pwc : PacketWithCycle) :
    (atEnd .downstream (trySend cycle pwc)).runWith LinkWorld.exec w =
      some (true,{ w with
        down := { w.down with
          inFlight := Function.update w.down.inFlight pwc.cycle (w.down.inFlight pwc.cycle ++ [pwc.packet]) }
        sent := w.sent ++ [pwc] }) := by
  have ready : w.down.decision cycle = some true := by
    rw [← read]
    exact if_pos (Nat.le_refl _)
  rw [trySend,atEnd_bind,Prog.runWith_bind,run_isReady,ready,Option.map_some,Option.bind_some,read]
  rfl

/-- Once the cycle has been read as ready no packet is refused. -/
theorem run_sendAll {cycle : Nat} : ∀ (pkts : List PacketWithCycle) (w : LinkWorld), Exchange.readTo w.down cycle = w.down →
    (atEnd .downstream (BufferedLinkType.sendAll cycle pkts)).runWith LinkWorld.exec w =
      some ([],{ w with down := Exchange.carrying w.down pkts, sent := w.sent ++ pkts })
  | [], w, _ => by
    rw [carrying_nil,List.append_nil]
    rfl
  | pwc :: rest, w, read => by
    have others := run_sendAll rest
      { w with
        down := { w.down with
          inFlight := Function.update w.down.inFlight pwc.cycle (w.down.inFlight pwc.cycle ++ [pwc.packet]) }
        sent := w.sent ++ [pwc] } (by
        show Exchange.readTo { w.down with inFlight := _ } cycle = _
        conv_rhs => rw [← read]
        rfl)
    rw [BufferedLinkType.sendAll,atEnd_bind,Prog.runWith_bind,run_trySend read,Option.bind_some]
    dsimp only
    rw [atEnd_bind,Prog.runWith_bind,others,Option.bind_some,carrying_cons,← List.append_cons]
    rfl

/-! ### One tick -/

namespace BufferedLinkType

/-- The link type once the slot of the cycle was sent, or kept for the next cycle. -/
def handOn (h : BufferedLinkType) (cycle : Nat) (ready : Bool) : BufferedLinkType :=
  if ready then h.clearSlot cycle else { h with totalBackpressure := h.totalBackpressure + 1 }

theorem run_sendSlot (h : BufferedLinkType) (cycle : Nat) (w : LinkWorld) :
    (h.sendSlot cycle).runWith LinkWorld.exec w = (w.down.decision cycle).map fun ready =>
      (h.handOn cycle ready,{ w with
        down := Exchange.carrying (Exchange.readTo w.down cycle) (if ready then h.getSlot cycle else [])
        sent := w.sent ++ (if ready then h.getSlot cycle else []) }) := by
  rw [sendSlot,Prog.runWith_bind,run_isReady]
  rcases w.down.decision cycle with _ | ready
  · rfl
  · cases ready with
    | true =>
      have again : Exchange.readTo (Exchange.readTo w.down cycle) cycle = Exchange.readTo w.down cycle := by
        simp only [Exchange.readTo,Exchange.mk.injEq,and_true,true_and]
        funext c
        split <;> rfl
      rw [Option.map_some,Option.bind_some]
      dsimp only
      rw [if_pos rfl,Prog.runWith_bind,run_sendAll _ _ again,Option.bind_some]
      rfl
    | false =>
      simp only [Option.map_some,Option.bind_some,Bool.false_eq_true,if_false,carrying_nil,List.append_nil]
      rfl

/-- The packets that are handed on when the downstream component is ready. -/
def handed (h : BufferedLinkType) (cycle : Nat) (ready : Bool) : List PacketWithCycle :=
  if ready then h.getSlot cycle else []

/-- The ports once a cycle is processed, given the upstream port after its signal. -/
def processed (w : LinkWorld) (h : BufferedLinkType) (cycle : Nat) (ready : Bool) (up : Exchange) : LinkWorld :=
  { w with
    up
    down := Exchange.carrying (Exchange.readTo w.down cycle) (h.handed cycle ready)
    sent := w.sent ++ h.handed cycle ready
    signalled := Function.update w.signalled (cycle + 1) (some ((h.handOn cycle ready).checkSpace (cycle + 1))) }

theorem run_process (h : BufferedLinkType) (cycle targetCycle : Nat) (incoming : List Packet) (w : LinkWorld) :
    (h.process cycle targetCycle incoming).runWith LinkWorld.exec w =
      match h.takeIn cycle incoming with
      | none => some (none,w)
      | some h => (w.down.decision cycle).bind fun ready =>
        (Exchange.now w.up (.updateReady (cycle + 1) ((h.handOn cycle ready).checkSpace (cycle + 1)))).map fun answered =>
          (some (h.handOn cycle ready),processed w h cycle ready answered.2) := by
  unfold process
  rcases h.takeIn cycle incoming with _ | h
  · rfl
  · dsimp only
    rw [Prog.runWith_bind,run_sendSlot]
    rcases w.down.decision cycle with _ | ready
    · rfl
    · rw [Option.map_some,Option.bind_some,Option.bind_some]
      dsimp only
      rw [Prog.runWith_bind,run_updateReady]
      rcases Exchange.now w.up _ with _ | ⟨answer,up⟩
      · rfl
      · rfl

end BufferedLinkType

namespace LinkSession
open BufferedLinkType

/-- What the link receives in its next cycle. -/
def arriving {σ : Type} (s : LinkSession σ) : List Packet :=
  if s.link.latency ≤ s.link.currentCycle then s.world.up.inFlight (s.link.currentCycle - s.link.latency) else []

/-- The upstream port once these packets are taken. -/
def upAfter {σ : Type} (s : LinkSession σ) : Exchange :=
  if s.link.latency ≤ s.link.currentCycle then Exchange.without s.world.up (s.link.currentCycle - s.link.latency)
  else s.world.up

/-- The packets that the link is to receive have all been sent. -/
def Arrived {σ : Type} (s : LinkSession σ) : Prop :=
  s.link.latency ≤ s.link.currentCycle → ((s.link.currentCycle - s.link.latency : Nat) : Int) ≤ s.world.up.done

theorem run_incoming {σ : Type} (s : LinkSession σ) (arrived : s.Arrived) :
    (s.link.incoming s.link.currentCycle).runWith LinkWorld.exec s.world =
      some (s.arriving,{ s.world with up := s.upAfter, received := s.world.received ++ s.arriving }) := by
  unfold Link.incoming arriving upAfter
  split_ifs with through
  · rw [run_receive,if_pos (arrived through)]
  · rw [List.append_nil]
    rfl

theorem run_incoming_blocked {σ : Type} (s : LinkSession σ) (blocked : ¬ s.Arrived) :
    (s.link.incoming s.link.currentCycle).runWith LinkWorld.exec s.world = none := by
  unfold Arrived at blocked
  rw [Classical.not_imp] at blocked
  unfold Link.incoming
  rw [if_pos blocked.1,run_receive,if_neg blocked.2]

/-- What a tick leaves, once the packets are placed. -/
def after (s : LinkSession BufferedLinkType) (h : BufferedLinkType) (ready : Bool) (up : Exchange) :
    LinkSession BufferedLinkType where
  link := { s.link with currentCycle := s.link.currentCycle + 1, state := h.handOn s.link.currentCycle ready }
  world := {
    up
    down := { Exchange.carrying (Exchange.readTo s.world.down s.link.currentCycle) (h.handed s.link.currentCycle ready) with
      done := s.link.currentCycle }
    received := s.world.received ++ s.arriving
    sent := s.world.sent ++ h.handed s.link.currentCycle ready
    signalled := Function.update s.world.signalled (s.link.currentCycle + 1)
      (some ((h.handOn s.link.currentCycle ready).checkSpace (s.link.currentCycle + 1))) }

/-- The signal that a tick gives, on the upstream port it finds. -/
def signalling (s : LinkSession BufferedLinkType) (h : BufferedLinkType) (ready : Bool) : Option (Unit × Exchange) :=
  Exchange.now s.upAfter (.updateReady (s.link.currentCycle + 1)
    ((h.handOn s.link.currentCycle ready).checkSpace (s.link.currentCycle + 1)))

theorem step_arrived {s : LinkSession BufferedLinkType} (arrived : s.Arrived) (targetCycle : Nat) :
    s.step BufferedLinkType.linkType (.tick targetCycle) =
      (s.link.state.takeIn s.link.currentCycle s.arriving).bind fun h =>
        (s.world.down.decision s.link.currentCycle).bind fun ready =>
          (s.signalling h ready).map fun answered => s.after h ready answered.2 := by
  have ran : (s.link.tick BufferedLinkType.linkType s.link.currentCycle targetCycle).runWith LinkWorld.exec s.world =
      (((s.link.state.process s.link.currentCycle targetCycle s.arriving).runWith LinkWorld.exec
        { s.world with up := s.upAfter, received := s.world.received ++ s.arriving }).bind fun (state,world) =>
          match state with
          | none => some (none,world)
          | some state => some (some { s.link with state },
              { world with down := { world.down with done := s.link.currentCycle } })) := by
    rw [Link.tick,Prog.runWith_bind,run_incoming s arrived,Option.bind_some]
    dsimp only
    rw [Prog.runWith_bind]
    congr 1
    funext answered
    obtain ⟨_ | state,world⟩ := answered
    · rfl
    · rfl
  rw [step,ran,run_process]
  rcases s.link.state.takeIn s.link.currentCycle s.arriving with _ | h
  · rfl
  · rw [Option.bind_some]
    dsimp only
    rcases s.world.down.decision s.link.currentCycle with _ | ready
    · rfl
    · rw [Option.bind_some,Option.bind_some,signalling]
      rcases Exchange.now s.upAfter _ with _ | ⟨answer,up⟩
      · rfl
      · rfl

/-- The tick of the next cycle is finished exactly when the packets to receive have all been
    sent, they can be placed, the cycle is decided downstream and the next one can be
    decided upstream. -/
theorem step_tick {s s' : LinkSession BufferedLinkType} {targetCycle : Nat} :
    s.step BufferedLinkType.linkType (.tick targetCycle) = some s' ↔
      ∃ h ready up, s.Arrived ∧ s.link.state.takeIn s.link.currentCycle s.arriving = some h ∧
        s.world.down.decision s.link.currentCycle = some ready ∧ s.signalling h ready = some ((),up) ∧
        s' = s.after h ready up := by
  by_cases arrived : s.Arrived
  · rw [step_arrived arrived]
    constructor
    · intro stepped
      obtain ⟨h,placed,stepped⟩ := Option.bind_eq_some_iff.mp stepped
      obtain ⟨ready,decided,stepped⟩ := Option.bind_eq_some_iff.mp stepped
      obtain ⟨⟨⟨⟩,up⟩,signalled,rfl⟩ := Option.map_eq_some_iff.mp stepped
      exact ⟨h,ready,up,arrived,placed,decided,signalled,rfl⟩
    · rintro ⟨h,ready,up,_,placed,decided,signalled,rfl⟩
      rw [placed,Option.bind_some,decided,Option.bind_some,signalled,Option.map_some]
  · refine iff_of_false ?_ ?_
    · rw [step,Link.tick,Prog.runWith_bind,run_incoming_blocked s arrived]
      exact fun stepped => by cases stepped
    · rintro ⟨_,_,_,arrived',_⟩
      exact arrived arrived'

end LinkSession
end FlowSim.Links
