import FlowSim.Network.Progress

/-!
Where a call of `AdvanceTo` can come to a halt. Workers wait for one another, and as long as no
node waits ahead, further than its own queues have come, every worker that waits waits for one
that is behind it: a halted call has come to its end unless a node waits ahead
(`halted_atTarget_iff`).
-/
namespace FlowSim.Network
open FlowSim.Lib FlowSim.AheadPort FlowSim.Queue FlowSim.Node FlowSim.Links
set_option linter.unusedSimpArgs false

/-- An operation at which a worker can wait for another. -/
def MayWait : PortOp → Prop
  | .waitDone _ => True
  | .isReady _ => True
  | .send _ => True
  | _ => False

/-- Whom a worker that waits comes after: a worker with a smaller number is behind it. -/
def rank : Worker → PortOp → Nat
  | .node _, .waitDone cycle => 3 * cycle + 7
  | .node _, .isReady cycle => 3 * cycle + 2
  | .link _, .waitDone cycle => 3 * cycle + 9
  | .link _, .isReady cycle => 3 * cycle + 6
  | _, _ => 0

/-! ### The ends that wait -/

section
variable {wiring : Wiring Worker PortId} {w : Worker} {h : PortId → EndRecord} {p : PortId} {cycle : Nat}

/-- Only a receiver waits for a cycle to be done. -/
theorem receiver_of_waitDone (may : (wiring.conduct w).pre h (p,.waitDone cycle)) :
    ∃ joint, wiring p = some joint ∧ joint.receiver = w := by
  obtain ⟨⟨joint,here,isEnd⟩,may⟩ := may
  rcases isEnd with rfl | rfl
  · rw [Wiring.role_sender here] at may
    exact (sender_may may).elim
  · exact ⟨joint,here,rfl⟩

/-- Only a sender asks for readiness. -/
theorem sender_of_isReady (may : (wiring.conduct w).pre h (p,.isReady cycle)) :
    ∃ joint, wiring p = some joint ∧ joint.sender = w ∧ (joint.prompt = true → (cycle : Int) ≤ (h p).marked + 1) := by
  obtain ⟨⟨joint,here,isEnd⟩,may⟩ := may
  rcases isEnd with rfl | rfl
  · rw [Wiring.role_sender here] at may
    refine ⟨joint,here,rfl,fun prompt => ?_⟩
    have may : joint.atSender.pre (h p) (.isReady cycle) := may
    unfold Joint.atSender at may
    rw [if_pos prompt] at may
    exact may
  · rw [Wiring.role_receiver here] at may
    unfold Joint.atReceiver at may
    split_ifs at may
    · exact may.elim
    · exact may.1.elim

end

theorem sender_at_output {links : List Connection} {id : Int} {i : Nat} {joint : Joint Worker}
    (here : wiring links (id,.output i) = some joint) : joint.sender = .node id := by
  obtain ⟨_,_,rfl⟩ := Option.map_eq_some_iff.mp here
  rfl

theorem receiver_at_input {links : List Connection} {id : Int} {i : Nat} {joint : Joint Worker}
    (here : wiring links (id,.input i) = some joint) : joint.receiver = .node id := by
  obtain ⟨_,_,rfl⟩ := Option.map_eq_some_iff.mp here
  rfl

theorem marked_of_blocked {p : Port} {s r : EndRecord} (agreed : Agreed p.exchange s r) {cycle : Nat}
    (blocked : p.exec (.waitDone cycle) = .blocked) : s.marked < cycle := by
  have late := Port.waitDone_blocked.mp blocked
  have done : p.upstreamSync.done = s.marked := agreed.done
  omega

theorem decisions_of_undecided {p : Port} {s r : EndRecord} (agreed : Agreed p.exchange s r) {cycle : Nat}
    (undecided : p.downstreamSync.answer cycle = none) : r.decisions.length ≤ cycle := by
  have open_ : p.exchange.decision cycle = none := undecided
  rw [agreed.decision] at open_
  split_ifs at open_
  exact List.getElem?_eq_none_iff.mp open_

theorem decided_of_answer {p : Port} {s r : EndRecord} (agreed : Agreed p.exchange s r) {cycle : Nat}
    (decided : p.downstreamSync.answer cycle ≠ none) : cycle < r.decisions.length := by
  have known : p.exchange.decision cycle ≠ none := decided
  have asked := agreed.asked
  rw [agreed.decision] at known
  split_ifs at known with old
  · omega
  · exact (List.getElem?_eq_some_iff.mp (Option.ne_none_iff_exists'.mp known).choose_spec).1

end FlowSim.Network

namespace FlowSim
open FlowSim.Lib FlowSim.AheadPort FlowSim.Queue FlowSim.Node FlowSim.Links FlowSim.Network

namespace Network
variable {σ : Type} {n : Network σ} {g : Worker → PortId → EndRecord} {sortSlice : SliceSort} {start targetCycle : Nat}

/-- Every worker that has not come to its end waits for another. -/
def Halted (c : Call σ) : Prop :=
  ∀ w p op next, c.prog w = .call (p,op) next → MayWait op ∧ (c.shared p).exec op = .blocked

/-- Every worker has come to the target: it has come to its end, and no node has failed before. -/
def AtTarget (c : Call σ) : Prop :=
  (∀ w, c.Finished w) ∧ ∀ id, errorOf (c.prog (.node id)) = none

/-- A node asks for the readiness of a cycle ahead of its own queues: one of its input queues has
    still to decide the cycle before, or one of its output queues has not come within three
    cycles of it. -/
def WaitsAhead (n : Network σ) (c : Call σ) (id : Int) : Prop :=
  ∃ p cycle next, c.prog (.node id) = .call (p,.isReady cycle) next ∧
    ((∃ i, (wiring n.links (id,.input i)).isSome = true ∧ (c.shared (id,.input i)).downstreamSync.answer (cycle - 1) = none) ∨
      ∃ i, (wiring n.links (id,.output i)).isSome = true ∧ (c.shared (id,.output i)).upstreamSync.done + 3 < cycle)

/-! ### Halted calls -/

/-- What each worker has done at the ports. -/
abbrev historyOf (n : Network σ) (start targetCycle : Nat) (g : Worker → PortId → EndRecord) (c : Call σ) (w : Worker) :
    PortId → EndRecord :=
  (pacedConduct n.links start targetCycle w).history (g w) (c.log w)

theorem agreed_of_governed {c : Call σ} (governed : Governed (pacedConduct n.links start targetCycle) (wiring n.links).Consistent g
    (n.Ends targetCycle) (c.map fun s p => (s p).exchange)) {p : PortId} {joint : Joint Worker} (here : wiring n.links p = some joint) :
    Agreed (c.shared p).exchange (n.historyOf start targetCycle g c joint.sender p) (n.historyOf start targetCycle g c joint.receiver p) :=
  governed.related.agreed here

theorem call_of_unfinished {c : Call σ} {w : Worker} (unfinished : ¬ c.Finished w) : ∃ p op next, c.prog w = .call (p,op) next := by
  rcases now : c.prog w with value | ⟨⟨p,op⟩,next⟩
  · exact absurd ⟨value,now⟩ unfinished
  · exact ⟨p,op,next,rfl⟩

/-- A call that has come to a halt, no node having failed, no channel being full and no node
    waiting ahead. -/
structure Standstill (n : Network σ) (start targetCycle : Nat) (g : Worker → PortId → EndRecord) (c : Call σ) : Prop where
  apart : Apart n.links
  abreast : n.Abreast start
  known : ∀ p, (wiring n.links p).isSome = true → n.nodes p.1 ≠ none
  attached : ∀ id handle, n.nodes id = some handle → ∀ port,
    handle.node.connected port = true ↔ (wiring n.links (id,port)).isSome = true
  governed : Governed (pacedConduct n.links start targetCycle) (wiring n.links).Consistent g (n.Ends targetCycle)
    (c.map fun s p => (s p).exchange)
  inTime : ∀ w p op next, c.prog w = .call (p,op) next → Within (waitsBefore targetCycle w) (targetCycle + 1) op
  halted : Halted c
  fine : ∀ id, errorOf (c.prog (.node id)) = none
  room : ∀ w p pwc next, c.prog w = .call (p,.send pwc) next → (c.shared p).channel.length < channelCapacity
  level : ∀ id, ¬ n.WaitsAhead c id

namespace Standstill
variable {c : Call σ} (still : n.Standstill start targetCycle g c)
include still

/-- A worker waits at a port for the other end. -/
theorem waits {w : Worker} {p : PortId} {op : PortOp} {next : networkPorts.Resp (p,op) → Prog networkPorts (Result σ w)}
    (now : c.prog w = .call (p,op) next) : ∃ joint, wiring n.links p = some joint ∧ paced n.links start targetCycle w
      (n.historyOf start targetCycle g c w) (p,op) ∧ ((∃ cycle, op = .waitDone cycle ∧ joint.receiver = w ∧
        cycle < waitsBefore targetCycle w ∧ (n.historyOf start targetCycle g c joint.sender p).marked < cycle) ∨
      ∃ cycle, op = .isReady cycle ∧ joint.sender = w ∧ cycle ≤ targetCycle ∧
        (n.historyOf start targetCycle g c joint.receiver p).decisions.length ≤ cycle ∧
        (joint.prompt = true → (cycle : Int) ≤ (n.historyOf start targetCycle g c w p).marked + 1)) := by
  obtain ⟨mayWait,blocked⟩ := still.halted w p op next now
  obtain ⟨may,pace⟩ := still.governed.allowed (w := w) now
  have inTime := still.inTime w p op next now
  cases op with
  | waitDone cycle =>
    obtain ⟨joint,here,isReceiver⟩ := receiver_of_waitDone may
    exact ⟨joint,here,pace,.inl ⟨cycle,rfl,isReceiver,inTime,marked_of_blocked (agreed_of_governed still.governed here) blocked⟩⟩
  | isReady cycle =>
    obtain ⟨joint,here,isSender,prompt⟩ := sender_of_isReady may
    have undecided := decisions_of_undecided (agreed_of_governed still.governed here) (Port.isReady_blocked.mp blocked)
    exact ⟨joint,here,pace,.inr ⟨cycle,rfl,isSender,Nat.le_of_lt_succ inTime,undecided,prompt⟩⟩
  | send pwc =>
    have full := Port.send_blocked.mp blocked
    have room := still.room w p pwc next now
    omega
  | _ => exact mayWait.elim

/-- A link that has come to its end has come to the cycle after the target. -/
theorem link_ended {index : Nat} {l : Connection} (found : n.links[index]? = some l) (ended : c.Finished (.link index)) :
    Link.Came (targetCycle + 1) fun side => n.historyOf start targetCycle g c (.link index) (l.portAt side) := by
  obtain ⟨value,isDone⟩ := ended
  have ends : n.Ends targetCycle (.link index) _ value := still.governed.result isDone
  rcases value with _ | _ | link
  · have nothing : n.links[index]? = none := ends
    rw [found] at nothing
    cases nothing
  · exact ends.elim
  · obtain ⟨before,found',current,standing⟩ := ends
    obtain rfl := Option.some.inj (found.symm.trans found')
    exact (Link.came_of_standing standing).mono (by omega)

/-- A node that has come to its end has come to the cycle after the target. -/
theorem node_ended {id : Int} (ended : c.Finished (.node id)) {port : NodePort} (wired : (wiring n.links (id,port)).isSome = true) :
    CameTo (sendsAt port) (targetCycle + 1) (n.historyOf start targetCycle g c (.node id) (id,port)) := by
  obtain ⟨value,isDone⟩ := ended
  have ends : n.Ends targetCycle (.node id) _ value := still.governed.result isDone
  have fine := still.fine id
  rw [isDone] at fine
  rcases value with _ | ⟨error,node⟩
  · exact absurd ends (still.known _ wired)
  · obtain ⟨handle,found,connected,standing⟩ := ends
    obtain ⟨current,standing⟩ := standing fine
    have came : BaseNode.Came node.connected (targetCycle + 1) (targetCycle + 1) _ :=
      (BaseNode.came_of_standing standing).mono (by omega) (by omega)
    rw [connected] at came
    have isConnected := (still.attached id handle found port).mpr wired
    cases port with
    | input i => exact came.inputs i isConnected
    | output i => exact came.outputs i isConnected

/-- A link that waits at its upstream end waits for what its node has still to send; at its
    downstream end it waits for a decision. -/
theorem link_waits {index : Nat} {p : PortId} {op : PortOp} {next : networkPorts.Resp (p,op) → Prog networkPorts (Result σ (.link index))}
    (now : c.prog (.link index) = .call (p,op) next) : ∃ l, n.links[index]? = some l ∧
      ((∃ cycle, op = .waitDone cycle ∧ cycle < targetCycle ∧
          Link.Came (cycle + 1) (fun side => n.historyOf start targetCycle g c (.link index) (l.portAt side)) ∧
          (n.historyOf start targetCycle g c (.node l.source.1) (l.portAt .upstream)).marked < cycle) ∨
        ∃ cycle, op = .isReady cycle ∧ cycle ≤ targetCycle ∧
          Link.Came cycle (fun side => n.historyOf start targetCycle g c (.link index) (l.portAt side)) ∧
          (n.historyOf start targetCycle g c (.node l.target.1) (l.portAt .downstream)).decisions.length ≤ cycle) := by
  obtain ⟨joint,here,pace,outcome⟩ := still.waits now
  obtain ⟨index',l,found,ends⟩ := wiring_cases still.apart here
  rcases outcome with ⟨cycle,rfl,isReceiver,inTime,late⟩ | ⟨cycle,rfl,isSender,inTime,undecided,_⟩
  · rcases ends with ⟨rfl,sender,receiver,_⟩ | ⟨_,_,receiver,_⟩
    · obtain rfl : index' = index := Worker.link.inj (receiver.symm.trans isReceiver)
      rw [sender] at late
      exact ⟨l,found,.inl ⟨cycle,rfl,inTime,pace l found,late⟩⟩
    · cases receiver.symm.trans isReceiver
  · rcases ends with ⟨_,sender,_,_⟩ | ⟨rfl,sender,receiver,_⟩
    · cases sender.symm.trans isSender
    · obtain rfl : index' = index := Worker.link.inj (sender.symm.trans isSender)
      rw [receiver] at undecided
      exact ⟨l,found,.inr ⟨cycle,rfl,inTime,pace l found,undecided⟩⟩

/-- A node that waits for a cycle has come to it, and waits for a link; one that asks is less than
    three cycles ahead of its own queues. -/
theorem node_waits {id : Int} {p : PortId} {op : PortOp} {next : networkPorts.Resp (p,op) → Prog networkPorts (Result σ (.node id))}
    (now : c.prog (.node id) = .call (p,op) next) : ∃ (index : Nat) (l : Connection), n.links[index]? = some l ∧
      ((∃ cycle, op = .waitDone cycle ∧ cycle ≤ targetCycle ∧
          BaseNode.Came (fun port => (wiring n.links (id,port)).isSome) cycle cycle
            (fun port => n.historyOf start targetCycle g c (.node id) (id,port)) ∧
          (n.historyOf start targetCycle g c (.link index) (l.portAt .downstream)).marked < cycle) ∨
        ∃ cycle, op = .isReady cycle ∧ cycle ≤ targetCycle ∧
          BaseNode.Came (fun port => (wiring n.links (id,port)).isSome) (cycle - 2) (cycle - 1)
            (fun port => n.historyOf start targetCycle g c (.node id) (id,port)) ∧
          (n.historyOf start targetCycle g c (.link index) (l.portAt .upstream)).decisions.length ≤ cycle ∧
          (cycle : Int) ≤ (n.historyOf start targetCycle g c (.node l.source.1) (l.portAt .upstream)).marked + 1) := by
  obtain ⟨joint,here,pace,outcome⟩ := still.waits now
  obtain ⟨index,l,found,ends⟩ := wiring_cases still.apart here
  rcases outcome with ⟨cycle,rfl,isReceiver,inTime,late⟩ | ⟨cycle,rfl,isSender,inTime,undecided,prompt⟩
  · rcases ends with ⟨_,_,receiver,_⟩ | ⟨rfl,sender,receiver,_⟩
    · cases receiver.symm.trans isReceiver
    · rw [sender] at late
      exact ⟨index,l,found,.inl ⟨cycle,rfl,Nat.le_of_lt_succ inTime,pace,late⟩⟩
  · rcases ends with ⟨rfl,sender,receiver,isPrompt⟩ | ⟨_,sender,_,_⟩
    · have isNode : Worker.node l.source.1 = .node id := sender.symm.trans isSender
      rw [receiver] at undecided
      refine ⟨index,l,found,.inr ⟨cycle,rfl,inTime,⟨fun i wired => ?_,fun i wired => ?_⟩,undecided,isNode ▸ prompt isPrompt⟩⟩
      · obtain ⟨joint',here'⟩ := Option.isSome_iff_exists.mp wired
        have came := (pace.2.outputs i wired).marked
        have done := (agreed_of_governed still.governed here').done
        rw [sender_at_output here'] at done
        have close : ¬ (c.shared (id,.output i)).upstreamSync.done + 3 < cycle :=
          fun behind => still.level id ⟨_,cycle,next,now,.inr ⟨i,wired,behind⟩⟩
        have done : (c.shared (id,.output i)).upstreamSync.done = _ := done
        rw [done] at close
        simp only [CameTo,if_true]
        omega
      · obtain ⟨joint',here'⟩ := Option.isSome_iff_exists.mp wired
        have decided : cycle - 1 < _ := decided_of_answer (agreed_of_governed still.governed here')
          fun undecided => still.level id ⟨_,cycle,next,now,.inl ⟨i,wired,undecided⟩⟩
        rw [receiver_at_input here'] at decided
        simp only [CameTo,Bool.false_eq_true,if_false]
        exact decided
    · cases sender.symm.trans isSender

/-- A node that has still to decide a cycle waits, and does so before whoever asks for the cycle. -/
theorem undecided {id : Int} {i cycle : Nat} (wired : (wiring n.links (id,.input i)).isSome = true) (inTime : cycle ≤ targetCycle)
    (late : (n.historyOf start targetCycle g c (.node id) (id,.input i)).decisions.length ≤ cycle) :
    ∃ p op next, c.prog (.node id) = .call (p,op) next ∧ rank (.node id) op ≤ 3 * cycle + 4 := by
  have unfinished : ¬ c.Finished (.node id) := by
    intro ended
    have decided := (still.node_ended ended wired).decided
    omega
  obtain ⟨p,op,next,now⟩ := call_of_unfinished unfinished
  refine ⟨p,op,next,now,?_⟩
  obtain ⟨_,_,_,(⟨own,rfl,_,came,_⟩ | ⟨own,rfl,_,came,_⟩)⟩ := still.node_waits now
  · have decided := (came.inputs i wired).decided
    simp only [rank]
    omega
  · have decided := (came.inputs i wired).decided
    simp only [rank]
    omega

/-- A node that has still to mark a cycle waits, and does so before the link that waits for the cycle. -/
theorem unmarked {id : Int} {i cycle : Nat} (wired : (wiring n.links (id,.output i)).isSome = true) (inTime : cycle ≤ targetCycle)
    (late : (n.historyOf start targetCycle g c (.node id) (id,.output i)).marked < cycle) :
    ∃ p op next, c.prog (.node id) = .call (p,op) next ∧ rank (.node id) op ≤ 3 * cycle + 8 := by
  have unfinished : ¬ c.Finished (.node id) := by
    intro ended
    have marked := (still.node_ended ended wired).marked
    omega
  obtain ⟨p,op,next,now⟩ := call_of_unfinished unfinished
  refine ⟨p,op,next,now,?_⟩
  obtain ⟨_,_,_,(⟨own,rfl,_,came,_⟩ | ⟨own,rfl,_,came,_⟩)⟩ := still.node_waits now
  · have marked := (came.outputs i wired).marked
    simp only [rank]
    omega
  · have marked := (came.outputs i wired).marked
    simp only [rank]
    omega

/-- A link that has still to mark a cycle waits, and does so before the node that waits for the cycle. -/
theorem link_unmarked {index cycle : Nat} {l : Connection} (found : n.links[index]? = some l) (inTime : cycle ≤ targetCycle)
    (late : (n.historyOf start targetCycle g c (.link index) (l.portAt .downstream)).marked < cycle) :
    ∃ p op next, c.prog (.link index) = .call (p,op) next ∧ rank (.link index) op ≤ 3 * cycle + 6 := by
  have unfinished : ¬ c.Finished (.link index) := by
    intro ended
    have marked := (still.link_ended found ended).downstream.marked
    omega
  obtain ⟨p,op,next,now⟩ := call_of_unfinished unfinished
  refine ⟨p,op,next,now,?_⟩
  obtain ⟨l',found',outcome⟩ := still.link_waits now
  obtain rfl := Option.some.inj (found.symm.trans found')
  rcases outcome with ⟨own,rfl,_,came,_⟩ | ⟨own,rfl,_,came,_⟩
  · have marked := came.downstream.marked
    simp only [rank]
    omega
  · have marked := came.downstream.marked
    simp only [rank]
    omega

/-- Every worker that waits waits for one that is behind it. -/
theorem behind {w : Worker} {p : PortId} {op : PortOp} {next : networkPorts.Resp (p,op) → Prog networkPorts (Result σ w)}
    (now : c.prog w = .call (p,op) next) : ∃ w' p' op' next', c.prog w' = .call (p',op') next' ∧ rank w' op' < rank w op := by
  have wired : ∀ {index : Nat} {l : Connection}, n.links[index]? = some l → ∀ side, (wiring n.links (l.portAt side)).isSome = true :=
    fun found side => wired_iff.mpr ⟨_,List.mem_of_getElem? found,side,rfl⟩
  cases w with
  | node id =>
    obtain ⟨index,l,found,(⟨cycle,rfl,inTime,_,late⟩ | ⟨cycle,rfl,inTime,_,late,prompt⟩)⟩ := still.node_waits now
    · obtain ⟨p',op',next',now',less⟩ := still.link_unmarked found inTime late
      refine ⟨_,p',op',next',now',?_⟩
      simp only [rank] at less ⊢
      omega
    · -- the link waits for a decision of the node it leads to: all that it could receive was sent
      have unfinished : ¬ c.Finished (.link index) := by
        intro ended
        have decided := (still.link_ended found ended).upstream.decided
        omega
      obtain ⟨_,_,_,linkNow⟩ := call_of_unfinished unfinished
      obtain ⟨l',found',outcome⟩ := still.link_waits linkNow
      obtain rfl := Option.some.inj (found.symm.trans found')
      rcases outcome with ⟨own,rfl,_,came,lateMark⟩ | ⟨own,rfl,ownInTime,came,lateDecision⟩
      · have decided := came.upstream.decided
        omega
      · have decided := came.upstream.decided
        obtain ⟨p',op',next',now',less⟩ := still.undecided (wired found .downstream) ownInTime lateDecision
        refine ⟨_,p',op',next',now',?_⟩
        simp only [rank] at less ⊢
        omega
  | link index =>
    obtain ⟨l,found,(⟨cycle,rfl,inTime,_,late⟩ | ⟨cycle,rfl,inTime,_,late⟩)⟩ := still.link_waits now
    · obtain ⟨p',op',next',now',less⟩ := still.unmarked (wired found .upstream) inTime.le late
      refine ⟨_,p',op',next',now',?_⟩
      simp only [rank] at less ⊢
      omega
    · obtain ⟨p',op',next',now',less⟩ := still.undecided (wired found .downstream) inTime late
      refine ⟨_,p',op',next',now',?_⟩
      simp only [rank] at less ⊢
      omega

/-- Hence no worker waits at all. -/
theorem finished (w : Worker) : c.Finished w := by
  by_contra unfinished
  obtain ⟨p,op,next,now⟩ := call_of_unfinished unfinished
  generalize isRank : rank w op = r
  induction r using Nat.strong_induction_on generalizing w p op next with
  | _ r ih =>
    obtain ⟨w',p',op',next',now',less⟩ := still.behind now
    exact ih _ (isRank ▸ less) w' (by rw [Config.Finished,now']; simp) p' op' next' now' rfl

end Standstill

/-! ### The end of a call -/

section
variable {c : Call σ} (sound : n.Sound g) (frozen : n.frozen = true) (abreast : n.Abreast start)
  (reach : networkMachine.Reach (n.start sortSlice targetCycle) c)
include sound frozen abreast reach

/-- The workers do at their ports what they may, at their pace. -/
theorem Sound.governed_paced : Governed (pacedConduct n.links start targetCycle) (wiring n.links).Consistent g (n.Ends targetCycle)
    (c.map fun s p => (s p).exchange) := by
  have started : Governed (pacedConduct n.links start targetCycle) (wiring n.links).Consistent g (n.Ends targetCycle)
      (Config.start (fun p => (n.ports p).exchange) (n.work sortSlice targetCycle)) :=
    .start _ _ sound.consistent (sound.keeps_paced_work frozen abreast)
  exact started.reach Wiring.supports.also (port_refines_exchange.each.reach reach)

/-- Where no node waits ahead, a halted call has come to its end. -/
theorem Sound.finished (noError : ∀ id, errorOf (c.prog (.node id)) = none)
    (room : ∀ w p pwc next, c.prog w = .call (p,.send pwc) next → (c.shared p).channel.length < channelCapacity)
    (halted : Halted c) (level : ∀ id, ¬ n.WaitsAhead c id) (w : Worker) : c.Finished w := by
  rcases Nat.lt_or_ge targetCycle start with passed | inTime
  · obtain ⟨value,nothing⟩ : ∃ value, n.work sortSlice targetCycle w = .done value := abreast.work_done passed w
    exact ⟨value,Machine.reach_ended reach nothing⟩
  · have governed := sound.governed_paced frozen abreast reach
    refine Standstill.finished ⟨sound.apart,abreast,sound.known,sound.attached,governed,?_,halted,noError,room,level⟩ w
    intro w p op next now
    have issues : (n.work sortSlice targetCycle w).Issues (p,op) := by
      refine Machine.reach_issues reach ?_
      rw [now]
      exact .inl rfl
    exact (sound.within_work frozen abreast inTime w).issues issues

/-- In a call that advances by at most three cycles no node waits ahead. -/
theorem Sound.level (threeCycles : targetCycle ≤ start + 2) (id : Int) : ¬ n.WaitsAhead c id := by
  have governed := sound.governed_paced frozen abreast reach
  rintro ⟨p,cycle,next,now,behind⟩
  obtain ⟨inTime,came⟩ : cycle ≤ targetCycle ∧ BaseNode.Came (fun port => (wiring n.links (id,port)).isSome) start (start + 1)
      fun port => n.historyOf start targetCycle g c (.node id) (id,port) := (governed.allowed (w := .node id) now).2
  rcases behind with ⟨i,wired,undecided⟩ | ⟨i,wired,behind⟩
  · obtain ⟨joint,here⟩ := Option.isSome_iff_exists.mp wired
    have decided := (came.inputs i wired).decided
    have late := decisions_of_undecided (agreed_of_governed governed here) undecided
    rw [receiver_at_input here] at late
    omega
  · obtain ⟨joint,here⟩ := Option.isSome_iff_exists.mp wired
    have marked := (came.outputs i wired).marked
    have done := (agreed_of_governed governed here).done
    rw [sender_at_output here] at done
    have done : (c.shared (id,.output i)).upstreamSync.done = _ := done
    omega

end

variable {actions : List Action} {reports : List Report} {later opened : Network σ} {c : Call σ}

/-- A network advances by at most three cycles, after calls in which no node failed. At whatever
    point of that call its workers are, no node having failed, they have all come to their ends,
    or some worker can take a step, or some worker is held up by a full channel or a panic. -/
theorem three_cycles_progress (built : n.Built) (run : n.Runs sortSlice actions reports later)
    (fine : ∀ report ∈ reports, ∀ id, report.errors id = none) (isOpen : later.freeze = some opened)
    (threeCycles : targetCycle ≤ later.currentCycle + 2) (reach : networkMachine.Reach (opened.start sortSlice targetCycle) c)
    (noError : ∀ id, errorOf (c.prog (.node id)) = none) :
    (∀ w, c.Finished w) ∨ (∃ w c', networkMachine.step w c = some c') ∨
      ∃ w p op next, c.prog w = .call (p,op) next ∧ HeldUp (c.shared p) op := by
  obtain ⟨g,sound⟩ := run.sound built fine
  obtain ⟨frozen,g',sound'⟩ := sound.freeze isOpen
  obtain ⟨start,abreast⟩ := sound'.abreast
  have same := (freeze_eq isOpen).2.2
  have reached := abreast.reached
  by_contra held
  push Not at held
  obtain ⟨⟨w,unfinished⟩,stuck,free⟩ := held
  refine unfinished (sound'.finished frozen abreast reach noError ?_ ?_ (sound'.level frozen abreast reach (by omega)) w)
  · intro w p pwc next now
    exact Nat.lt_of_not_le (free w p _ next now)
  · intro w p op next now
    obtain ⟨p',op',next',now',blocked⟩ := blocked_of_stuck (w := w) (by rw [Config.Finished,now]; simp) (stuck w)
    obtain ⟨⟨rfl,rfl⟩,_⟩ : (p = p' ∧ op = op') ∧ True := by
      obtain ⟨same,_⟩ := Prog.call.inj (now.symm.trans now')
      exact ⟨Prod.mk.inj same,trivial⟩
    refine ⟨?_,blocked⟩
    rcases blocked_cases blocked with heldUp | ⟨cycle,rfl⟩ | ⟨cycle,rfl⟩
    · exact absurd heldUp (free w p _ next now)
    · trivial
    · trivial

/-! ### A call that comes to a halt -/

/-- The worker has come to its end, or waits for another, and not because a channel is full. -/
def waitsAt (c : Call σ) (w : Worker) : Bool :=
  match c.prog w with
  | .done _ => true
  | .call (p,.waitDone cycle) _ => !(c.shared p).upstreamSync.waitDone cycle
  | .call (p,.isReady cycle) _ => ((c.shared p).downstreamSync.ready cycle).isNone
  | _ => false

theorem waits_of_waitsAt {w : Worker} {p : PortId} {op : PortOp} {next : networkPorts.Resp (p,op) → Prog networkPorts (Result σ w)}
    (waiting : waitsAt c w = true) (now : c.prog w = .call (p,op) next) :
    MayWait op ∧ (c.shared p).exec op = .blocked ∧ ∀ pwc, op ≠ .send pwc := by
  unfold waitsAt at waiting
  rw [now] at waiting
  cases op with
  | waitDone cycle =>
    have waiting : (c.shared p).upstreamSync.waitDone cycle = false := by simpa using waiting
    refine ⟨trivial,?_,by simp⟩
    simp only [Port.exec,waiting]
    rfl
  | isReady cycle =>
    have waiting : (c.shared p).downstreamSync.ready cycle = none := by simpa using waiting
    refine ⟨trivial,?_,by simp⟩
    simp only [Port.exec,waiting]
  | _ => simp at waiting

/-- The worker has come to its end. -/
def hasEnded (c : Call σ) (w : Worker) : Bool :=
  match c.prog w with
  | .done _ => true
  | .call _ _ => false

theorem hasEnded_of_finished {w : Worker} (finished : c.Finished w) : hasEnded c w = true := by
  obtain ⟨value,isDone⟩ := finished
  simp [hasEnded,isDone]

/-- Workers that do not exist have nothing to do. -/
theorem waitsAt_all (reach : networkMachine.Reach (n.start sortSlice targetCycle) c)
    (nodes : ∀ id, (n.nodes id).isSome = true → waitsAt c (.node id) = true)
    (links : ∀ index < n.links.length, waitsAt c (.link index) = true) : ∀ w, waitsAt c w = true
  | .node id => by
    rcases found : n.nodes id with _ | handle
    · have absent : c.prog (.node id) = .done none :=
        Machine.reach_ended reach (by simp only [start,Config.start,work,found])
      simp only [waitsAt,absent]
    · exact nodes id (by rw [found]; rfl)
  | .link index => by
    by_cases inside : index < n.links.length
    · exact links index inside
    · have absent : c.prog (.link index) = .done none :=
        Machine.reach_ended reach (by simp only [start,Config.start,work,List.getElem?_eq_none (Nat.le_of_not_lt inside)])
      simp only [waitsAt,absent]

theorem built_twoLinks : twoLinks.Built := by
  have first : Built { (new : Network Unit) with nodes := Function.update (fun _ => none) 0 (some busyNode) } := by
    refine @Built.addNode _ _ _ busyNode .new ⟨⟨_,_,_,rfl⟩,?_⟩ rfl
    simp [busyNode,BaseNode.newBaseNode]
  have both : Built noLinks := by
    refine @Built.addNode _ _ _ twoInputsNode first ⟨⟨_,_,_,rfl⟩,fun iq member => ?_⟩ rfl
    obtain rfl : iq = .newInputQueue 2 1 Nat.two_pos Nat.one_pos := by
      simpa [twoInputsNode,BaseNode.newBaseNode] using member
    exact ⟨rfl,by decide⟩
  have linked : noLinks.connect 0 0 1 0 1 1 none = some (.ok oneLink) := by rfl
  have linkedTwice : oneLink.connect 0 1 1 1 1 1 none = some (.ok twoLinks) := by rfl
  refine .connect (.connect both ?_ linked) ?_ linkedTwice
  · simp
  · simp

theorem freeze_twoLinks : twoLinks.freeze = some twoLinksOpened := by
  obtain ⟨opened,same⟩ := Option.isSome_iff_exists.mp (show twoLinks.freeze.isSome = true by decide +kernel)
  rw [twoLinksOpened,same,Option.getD_some]

theorem node_twoLinks {id : Int} {handle : NodeHandle Unit} (found : twoLinks.nodes id = some handle) : id = 0 ∨ id = 1 := by
  by_contra other
  rw [not_or] at other
  have attached : twoLinks.nodes = attach (attach (attach (attach noLinks.nodes 0 (.output 0)) 1 (.input 0)) 0 (.output 1)) 1
    (.input 1) := rfl
  rw [attached] at found
  simp [attach,noLinks,Function.update_of_ne other.1,Function.update_of_ne other.2] at found

theorem reach_twoLinks : networkMachine.Reach (twoLinksOpened.start stableSort 4) twoLinksHalted := Machine.reach_run ..

theorem errors_twoLinks {c : Call Unit} (reach : networkMachine.Reach (twoLinksOpened.start sortSlice targetCycle) c)
    (fine : [(0 : Int),1].all (fun id => (errorOf (c.prog (.node id))).isNone) = true) (id : Int) :
    errorOf (c.prog (.node id)) = none := by
  have sameNodes := (freeze_eq freeze_twoLinks).1
  rcases found : twoLinksOpened.nodes id with _ | handle
  · have absent : c.prog (.node id) = .done none :=
      Machine.reach_ended reach (by simp only [start,Config.start,work,found])
    rw [absent]
    rfl
  · rcases node_twoLinks (sameNodes ▸ found) with rfl | rfl
    · exact Option.isNone_iff_eq_none.mp (List.all_eq_true.mp fine 0 (by simp))
    · exact Option.isNone_iff_eq_none.mp (List.all_eq_true.mp fine 1 (by simp))

/-- Every worker waits, none has failed, and no channel is full. -/
theorem halted_twoLinks : Halted twoLinksHalted ∧ (∀ id, errorOf (twoLinksHalted.prog (.node id)) = none) ∧
    ∀ w p pwc next, twoLinksHalted.prog w ≠ .call (p,.send pwc) next := by
  have sameNodes := (freeze_eq freeze_twoLinks).1
  have checked : [Worker.node 0,.node 1,.link 0,.link 1].all (waitsAt twoLinksHalted) = true := by decide +kernel
  have waiting : ∀ w, waitsAt twoLinksHalted w = true := by
    refine waitsAt_all reach_twoLinks (fun id present => ?_) fun index inside => ?_
    · obtain ⟨handle,found⟩ := Option.isSome_iff_exists.mp present
      rcases node_twoLinks (sameNodes ▸ found) with rfl | rfl
      · exact List.all_eq_true.mp checked _ (by simp)
      · exact List.all_eq_true.mp checked _ (by simp)
    · have two : twoLinksOpened.links.length = 2 := by decide +kernel
      have few : index = 0 ∨ index = 1 := by omega
      rcases few with rfl | rfl
      · exact List.all_eq_true.mp checked _ (by simp)
      · exact List.all_eq_true.mp checked _ (by simp)
  refine ⟨fun w p op next now => ?_,errors_twoLinks reach_twoLinks (by decide +kernel),fun w p pwc next now => ?_⟩
  · obtain ⟨mayWait,blocked,_⟩ := waits_of_waitsAt (waiting w) now
    exact ⟨mayWait,blocked⟩
  · obtain ⟨_,_,elsewhere⟩ := waits_of_waitsAt (waiting w) now
    exact elsewhere pwc rfl

theorem unfinished_twoLinks : ¬ twoLinksHalted.Finished (.node 0) := by
  intro finished
  have asks : hasEnded twoLinksHalted (.node 0) = false := by decide +kernel
  rw [hasEnded_of_finished finished] at asks
  cases asks

/-- When it advances by three cycles the two nodes wait for the links, which can go on. -/
theorem three_cycles_progress_nodes_wait : ∃ c : Call Unit, networkMachine.Reach (twoLinksOpened.start stableSort 2) c ∧
    (networkMachine.step (.node 0) c).isNone = true ∧ (networkMachine.step (.node 1) c).isNone = true ∧
    ((∀ w, c.Finished w) ∨ (∃ w c', networkMachine.step w c = some c') ∨
      ∃ w p op next, c.prog w = .call (p,op) next ∧ HeldUp (c.shared p) op) := by
  have reach : networkMachine.Reach (twoLinksOpened.start stableSort 2)
      (networkMachine.run (List.replicate 15 [Worker.node 0,.node 1]).flatten (twoLinksOpened.start stableSort 2)) :=
    Machine.reach_run ..
  exact ⟨_,reach,by decide +kernel,by decide +kernel,three_cycles_progress built_twoLinks .start (by simp) freeze_twoLinks
    (Nat.le_refl 2) reach (errors_twoLinks reach (by decide +kernel))⟩

end Network
end FlowSim
