import FlowSim.Network.Pace
import FlowSim.Network.Schedule

/-!
When a call of `AdvanceTo` comes to its end. When it advances by one cycle no worker is held up
by another (`one_cycle_progress`): a link waits only for cycles that its node has left behind, a
node only for links, and what is asked for was decided in the cycle before.
-/
namespace FlowSim.Network
open FlowSim.Lib FlowSim.AheadPort FlowSim.Queue FlowSim.Node FlowSim.Links
set_option linter.unusedSimpArgs false

/-! ### What can hold an operation up -/

/-- A packet is sent into a full channel, or a cycle is decided against its decision, at which
    the code panics. -/
def HeldUp (p : Port) : PortOp → Prop
  | .send _ => channelCapacity ≤ p.channel.length
  | .updateReady cycle ready => p.downstreamSync.answer cycle = some (!ready)
  | _ => False

theorem updateReady_blocked {p : Port} {cycle : Nat} {ready : Bool} (blocked : p.exec (.updateReady cycle ready) = .blocked) :
    p.downstreamSync.answer cycle = some (!ready) := by
  simp only [Port.exec] at blocked
  rcases decided : p.downstreamSync.answer cycle with _ | old
  · obtain ⟨sync,updated,_⟩ := ComponentSync.updateReady_undecided decided ready
    rw [updated] at blocked
    cases blocked
  · rw [ComponentSync.updateReady_decided decided] at blocked
    cases old <;> cases ready <;> simp at blocked ⊢

/-- Nothing else blocks than what waits for the other end. -/
theorem blocked_cases {p : Port} {op : PortOp} (blocked : p.exec op = .blocked) :
    HeldUp p op ∨ (∃ cycle, op = .waitDone cycle) ∨ ∃ cycle, op = .isReady cycle := by
  cases op with
  | drainChannel =>
    simp only [Port.exec] at blocked
    split at blocked <;> cases blocked
  | waitDone cycle => exact .inr (.inl ⟨cycle,rfl⟩)
  | retrieve cycle =>
    simp only [Port.exec] at blocked
    split at blocked <;> cases blocked
  | updateReady cycle ready => exact .inl (updateReady_blocked blocked)
  | isReady cycle => exact .inr (.inr ⟨cycle,rfl⟩)
  | send pwc => exact .inl (Port.send_blocked.mp blocked)
  | markDone cycle => cases blocked

/-- What is waited for was marked, and what is asked for was decided. -/
theorem heldUp_of_blocked {p : Port} {s r : EndRecord} (agreed : Agreed p.exchange s r) {op : PortOp} {waits asks : Nat}
    (inTime : Within waits asks op) (marked : (waits : Int) ≤ s.marked + 1) (decided : asks ≤ r.decisions.length)
    (blocked : p.exec op = .blocked) : HeldUp p op := by
  rcases blocked_cases blocked with heldUp | ⟨cycle,rfl⟩ | ⟨cycle,rfl⟩
  · exact heldUp
  · have inTime : cycle < waits := inTime
    have late := Port.waitDone_blocked.mp blocked
    have done : p.upstreamSync.done = s.marked := agreed.done
    omega
  · have inTime : cycle < asks := inTime
    have undecided : p.exchange.decision cycle = none := Port.isReady_blocked.mp blocked
    rw [agreed.decision,List.getElem?_eq_getElem (by omega)] at undecided
    split_ifs at undecided

/-- A sender does not wait for a cycle to be done. -/
theorem within_of_sender {s : EndRecord} {op : PortOp} {waits waits' asks : Nat} (may : SenderMay s op)
    (inTime : Within waits asks op) : Within waits' asks op := by
  cases op with
  | isReady cycle => exact inTime
  | send pwc => trivial
  | markDone cycle => trivial
  | _ => exact may.elim

/-! ### What is reached -/

/-- At every port the cycle was decided, and the one before it was marked done. -/
def Reached (links : List Connection) (cycle : Nat) (g : Worker → PortId → EndRecord) : Prop :=
  ∀ p joint, wiring links p = some joint →
    cycle < (g joint.receiver p).decisions.length ∧ (cycle : Int) ≤ (g joint.sender p).marked + 1

theorem role_grow {W P : Type} [DecidableEq W] (wiring : Wiring W P) (w : W) (p : P) : (wiring.role w p).grow = EndRecord.grow := by
  unfold Wiring.role
  split
  · split_ifs
    · rfl
    · unfold Joint.atReceiver
      split_ifs <;> rfl
  · rfl

theorem sender_may {W : Type} {joint : Joint W} {s : EndRecord} {op : PortOp} (may : joint.atSender.pre s op) : SenderMay s op := by
  unfold Joint.atSender at may
  split_ifs at may
  · exact PromptMay.may may
  · exact may

/-- What was reached stays so. -/
theorem Reached.kept {links : List Connection} {cycle : Nat} {g : Worker → PortId → EndRecord} (reached : Reached links cycle g)
    (w : Worker) (op : networkPorts.Op) (answer : networkPorts.Resp op) (may : ((wiring links).conduct w).pre (g w) op) :
    Reached links cycle (Function.update g w (((wiring links).conduct w).grow (g w) op answer)) := by
  intro p joint here
  obtain ⟨decided,marked⟩ := reached p joint here
  by_cases at_p : p = op.1
  · subst at_p
    have grown : ((wiring links).conduct w).grow (g w) op answer op.1 = (g w op.1).grow op.2 answer := by
      rw [← role_grow (wiring links) w op.1]
      exact Function.update_self ..
    refine ⟨?_,?_⟩
    · by_cases isReceiver : joint.receiver = w
      · rw [isReceiver,Function.update_self,grown,← isReceiver]
        exact decided.trans_le (decisions_grow _ _ _)
      · rw [Function.update_of_ne isReceiver]
        exact decided
    · by_cases isSender : joint.sender = w
      · have may : ((wiring links).role w op.1).pre (g w op.1) op.2 := may.2
        rw [← isSender,Wiring.role_sender here] at may
        have more := marked_grow (sender_may may) answer
        rw [isSender,Function.update_self,grown,← isSender]
        omega
      · rw [Function.update_of_ne isSender]
        exact marked
  · have same : ∀ v, Function.update g w (((wiring links).conduct w).grow (g w) op answer) v p = g v p := by
      intro v
      by_cases isW : v = w
      · subst isW
        rw [Function.update_self]
        exact Function.update_of_ne at_p ..
      · rw [Function.update_of_ne isW]
    rw [same,same]
    exact ⟨decided,marked⟩

/-- The link at a port, and the workers there. -/
theorem wiring_cases {links : List Connection} (apart : Apart links) {p : PortId} {joint : Joint Worker}
    (here : wiring links p = some joint) : ∃ (index : Nat) (l : Connection), links[index]? = some l ∧
      ((p = l.portAt .upstream ∧ joint.sender = .node l.source.1 ∧ joint.receiver = .link index ∧ joint.prompt = true) ∨
        (p = l.portAt .downstream ∧ joint.sender = .link index ∧ joint.receiver = .node l.target.1 ∧ joint.prompt = false)) := by
  obtain ⟨l,member,side,rfl⟩ := Network.wired_iff.mp (Option.isSome_iff_exists.mpr ⟨joint,here⟩)
  obtain ⟨index,found⟩ := List.getElem?_of_mem member
  refine ⟨index,l,found,?_⟩
  cases side with
  | upstream =>
    rw [wiring_upstream apart found] at here
    obtain rfl := Option.some.inj here
    exact .inl ⟨rfl,rfl,rfl,rfl⟩
  | downstream =>
    rw [wiring_downstream apart found] at here
    obtain rfl := Option.some.inj here
    exact .inr ⟨rfl,rfl,rfl,rfl⟩

end FlowSim.Network

namespace FlowSim
open FlowSim.Lib FlowSim.AheadPort FlowSim.Queue FlowSim.Node FlowSim.Links FlowSim.Network

namespace Network
variable {σ : Type} {n : Network σ} {g : Worker → PortId → EndRecord} {sortSlice : SliceSort} {cycle targetCycle : Nat}

/-- Between two calls, what the next cycle needs was reached at all ports. -/
theorem Sound.reached (sound : n.Sound g) (frozen : n.frozen = true) (abreast : n.Abreast cycle) : Reached n.links cycle g := by
  intro p joint here
  obtain ⟨index,l,found,(⟨rfl,isSender,isReceiver,_⟩ | ⟨rfl,isSender,isReceiver,_⟩)⟩ := wiring_cases sound.apart here
  · have standing := sound.links index l found
    rw [if_pos frozen] at standing
    have current := abreast.links l (List.mem_of_getElem? found)
    have isWired : (wiring n.links (l.portAt .upstream)).isSome = true := by rw [here]; rfl
    obtain ⟨handle,isNode⟩ := Option.ne_none_iff_exists'.mp (sound.known _ isWired)
    have node := sound.nodes _ handle isNode
    have here' := abreast.nodes _ handle isNode
    have connected := (sound.attached _ handle isNode (.output l.source.2)).mpr isWired
    have inside : l.source.2 < handle.node.outputQueueAhead.length := by
      rw [node.sized]
      exact node.hasQueue _ connected
    obtain ⟨bounds,marked⟩ := node.outputs l.source.2 _ (List.getElem?_eq_getElem inside)
    rw [Nat.zero_add] at marked
    have marked : (g (.node l.source.1) (l.source.1,.output l.source.2)).marked + 1 = _ := marked connected
    rw [isSender,isReceiver]
    refine ⟨?_,?_⟩
    · have decided := standing.decided.decided
      rw [current] at decided
      exact decided
    · rw [here'] at bounds
      show (cycle : Int) ≤ (g (.node l.source.1) (l.source.1,.output l.source.2)).marked + 1
      omega
  · have standing := sound.links index l found
    rw [if_pos frozen] at standing
    have current := abreast.links l (List.mem_of_getElem? found)
    have isWired : (wiring n.links (l.portAt .downstream)).isSome = true := by rw [here]; rfl
    obtain ⟨handle,isNode⟩ := Option.ne_none_iff_exists'.mp (sound.known _ isWired)
    have node := sound.nodes _ handle isNode
    have here' := abreast.nodes _ handle isNode
    have connected := (sound.attached _ handle isNode (.input l.target.2)).mpr isWired
    have inside : l.target.2 < handle.node.queues.inputs.length := node.hasQueue _ connected
    have stands := node.inputs l.target.2 _ (List.getElem?_eq_getElem inside)
    rw [Nat.zero_add] at stands
    have decided := (stands connected).decided
    rw [isSender,isReceiver]
    refine ⟨?_,?_⟩
    · rw [here'] at decided
      exact decided
    · have marked := standing.marked
      rw [current] at marked
      exact marked.ge

/-- The cycle before which a worker waits in a call. -/
def waitsBefore (targetCycle : Nat) : Worker → Nat
  | .node _ => targetCycle + 1
  | .link _ => targetCycle

theorem Sound.within_work (sound : n.Sound g) (frozen : n.frozen = true) (abreast : n.Abreast cycle) (upTo : cycle ≤ targetCycle)
    (w : Worker) :
    Keeps (allowing fun op : networkPorts.Op => Within (waitsBefore targetCycle w) (targetCycle + 1) op.2)
      (n.work sortSlice targetCycle w) (fun _ _ => True) () := by
  cases w with
  | node id =>
    rcases found : n.nodes id with _ | handle
    · simp only [work,found]
      trivial
    · simp only [work,found]
      have within := BaseNode.within_advanceTo handle.handler sortSlice targetCycle handle.node
      exact (keeps_relabel_allowing within _).bind fun _ _ _ => trivial
  | link index =>
    rcases found : n.links[index]? with _ | l
    · simp only [work,found]
      trivial
    · simp only [work,found]
      have standing := sound.links index l found
      rw [if_pos frozen] at standing
      have current := abreast.links l (List.mem_of_getElem? found)
      have within := within_tickCycles targetCycle (targetCycle + 1 - l.link.currentCycle) l.link standing.delayed (by omega)
      exact (keeps_relabel_allowing within _).bind fun _ _ _ => trivial

/-- In a call whose target has passed there is nothing to do. -/
theorem Abreast.work_done (abreast : n.Abreast cycle) (passed : targetCycle < cycle) (w : Worker) :
    ∃ value, n.work sortSlice targetCycle w = .done value := by
  cases w with
  | node id =>
    rcases found : n.nodes id with _ | handle
    · exact ⟨none,by simp only [work,found]⟩
    · have current := abreast.nodes id handle found
      refine ⟨some (none,handle.node),?_⟩
      simp only [work,found,BaseNode.advanceTo,current,if_pos passed]
      rfl
  | link index =>
    rcases found : n.links[index]? with _ | l
    · exact ⟨none,by simp only [work,found]⟩
    · have current := abreast.links l (List.mem_of_getElem? found)
      refine ⟨some (some l.link),?_⟩
      simp only [work,found,Link.advanceTo,current,Nat.sub_eq_zero_of_le passed]
      rfl

section
variable {c : Call σ}

/-- A worker that can take no step although it has not come to its end. -/
theorem blocked_of_stuck {w : Worker} (unfinished : ¬ c.Finished w) (stuck : ∀ c', networkMachine.step w c ≠ some c') :
    ∃ p op next, c.prog w = .call (p,op) next ∧ (c.shared p).exec op = .blocked := by
  rcases now : c.prog w with value | ⟨⟨p,op⟩,next⟩
  · exact absurd ⟨value,now⟩ unfinished
  · refine ⟨p,op,next,rfl,?_⟩
    rcases outcome : (c.shared p).exec op with _ | shared | ⟨answer,shared⟩
    · rfl
    · have again : networkMachine.exec c.shared (p,op) = .again (Function.update c.shared p shared) :=
        Machine.each_again.mpr ⟨shared,outcome,rfl⟩
      refine absurd ?_ (stuck { c with shared := Function.update c.shared p shared })
      simp only [Machine.step,now,again]
    · have done : networkMachine.exec c.shared (p,op) = .done answer (Function.update c.shared p shared) :=
        Machine.each_done.mpr ⟨shared,outcome,rfl⟩
      exact absurd (Machine.step_done now done) (stuck _)

/-- A link that has come to its end has marked the target. -/
theorem Sound.marked_target {h : Worker → PortId → EndRecord} (abreast : n.Abreast targetCycle)
    (result : ∀ {w value}, c.prog w = .done value → n.Ends targetCycle w (h w) value) {index : Nat} {l : Connection}
    (ended : c.Finished (.link index)) (found : n.links[index]? = some l) :
    (h (.link index) (l.portAt .downstream)).marked = targetCycle := by
  obtain ⟨value,isDone⟩ := ended
  have ends := result isDone
  rcases value with _ | _ | link
  · have nothing : n.links[index]? = none := ends
    rw [found] at nothing
    cases nothing
  · exact ends.elim
  · obtain ⟨before,found',current,standing⟩ := ends
    obtain rfl := Option.some.inj (found.symm.trans found')
    have upTo : (h (.link index) (l.portAt .downstream)).marked + 1 = link.currentCycle := standing.marked
    rw [abreast.links l (List.mem_of_getElem? found)] at current
    omega

/-- A call that advances by one cycle, in the middle of it. -/
theorem Sound.progress (sound : n.Sound g) (frozen : n.frozen = true) (abreast : n.Abreast targetCycle)
    (reach : networkMachine.Reach (n.start sortSlice targetCycle) c) (stuck : ∀ w c', networkMachine.step w c ≠ some c')
    (free : ∀ w p op next, c.prog w = .call (p,op) next → ¬ HeldUp (c.shared p) op) (w : Worker) : c.Finished w := by
  have supports : Supports (exchangeMachine.each PortId) (wiring n.links).conduct
      (fun e g => (wiring n.links).Consistent e g ∧ Reached n.links targetCycle g) :=
    Wiring.supports.kept fun w op answer reached may => Reached.kept reached w op answer may
  have started : Governed (wiring n.links).conduct (fun e g => (wiring n.links).Consistent e g ∧ Reached n.links targetCycle g) g
      (n.Ends targetCycle) (Config.start (fun p => (n.ports p).exchange) (n.work sortSlice targetCycle)) :=
    .start _ _ ⟨sound.consistent,sound.reached frozen abreast⟩ (sound.keeps_work frozen)
  have governed := started.reach supports (port_refines_exchange.each.reach reach)
  obtain ⟨consistent,reached⟩ := governed.related
  have blocked : ∀ {w : Worker}, ¬ c.Finished w → ∃ p op next joint, c.prog w = .call (p,op) next ∧
      (c.shared p).exec op = .blocked ∧ wiring n.links p = some joint ∧ Within (waitsBefore targetCycle w) (targetCycle + 1) op := by
    intro w unfinished
    obtain ⟨p,op,next,now,isBlocked⟩ := blocked_of_stuck unfinished (stuck w)
    obtain ⟨⟨joint,here,_⟩,_⟩ := governed.allowed (w := w) now
    refine ⟨p,op,next,joint,now,isBlocked,here,?_⟩
    have issues : (n.work sortSlice targetCycle w).Issues (p,op) := by
      refine Machine.reach_issues reach ?_
      rw [now]
      exact .inl rfl
    exact (sound.within_work frozen abreast (Nat.le_refl _) w).issues issues
  have agreed : ∀ {p joint}, wiring n.links p = some joint → ∃ s r : EndRecord, Agreed (c.shared p).exchange s r ∧
      targetCycle < r.decisions.length ∧ (targetCycle : Int) ≤ s.marked + 1 ∧
      s = ((wiring n.links).conduct joint.sender).history (g joint.sender) (c.log joint.sender) p := by
    intro p joint here
    obtain ⟨decided,marked⟩ := reached p joint here
    exact ⟨_,_,consistent.agreed here,decided,marked,rfl⟩
  have links : ∀ index, c.Finished (.link index) := by
    intro index
    by_contra unfinished
    obtain ⟨p,op,next,joint,now,isBlocked,here,inTime⟩ := blocked unfinished
    obtain ⟨s,r,agreed,decided,marked,_⟩ := agreed here
    exact free _ p op next now (heldUp_of_blocked agreed inTime marked decided isBlocked)
  cases w with
  | link index => exact links index
  | node id =>
    by_contra unfinished
    obtain ⟨p,op,next,joint,now,isBlocked,here,inTime⟩ := blocked unfinished
    obtain ⟨s,r,agreed,decided,marked,rfl⟩ := agreed here
    obtain ⟨index,l,found,(⟨rfl,isSender,isReceiver,_⟩ | ⟨rfl,isSender,isReceiver,_⟩)⟩ := wiring_cases sound.apart here
    · -- the node sends here, and so it waits for nothing but decisions
      have may : ∃ s, SenderMay s op := by
        obtain ⟨⟨other,here',isEnd⟩,may⟩ := governed.allowed (w := .node id) now
        obtain rfl : joint = other := Option.some.inj (here.symm.trans here')
        have isNode : joint.sender = .node id := by
          rcases isEnd with same | same
          · exact same.symm
          · rw [isReceiver] at same
            cases same
        rw [← isNode,Wiring.role_sender here] at may
        exact ⟨_,sender_may may⟩
      obtain ⟨_,may⟩ := may
      exact free _ _ op next now (heldUp_of_blocked agreed (within_of_sender may inTime) marked decided isBlocked)
    · -- the link has come to its end, and has marked the target
      have marked := Sound.marked_target abreast governed.result (links index) found
      rw [isSender] at agreed
      exact free _ _ op next now (heldUp_of_blocked agreed inTime (congrArg (· + 1) marked).ge decided isBlocked)

end

/-! ### One cycle at a time -/

variable {actions : List Action} {reports : List Report} {later opened : Network σ} {c : Call σ}

/-- A network advances by one cycle, after calls in which no node failed. At whatever point of
    that call its workers are, they have all come to their ends, or some worker can take a step,
    or some worker is held up by a full channel or a panic: no worker waits for another that
    waits in turn. -/
theorem one_cycle_progress (built : n.Built) (run : n.Runs sortSlice actions reports later)
    (fine : ∀ report ∈ reports, ∀ id, report.errors id = none) (isOpen : later.freeze = some opened)
    (oneCycle : targetCycle ≤ later.currentCycle) (reach : networkMachine.Reach (opened.start sortSlice targetCycle) c) :
    (∀ w, c.Finished w) ∨ (∃ w c', networkMachine.step w c = some c') ∨
      ∃ w p op next, c.prog w = .call (p,op) next ∧ HeldUp (c.shared p) op := by
  obtain ⟨g,sound⟩ := run.sound built fine
  obtain ⟨frozen,g',sound'⟩ := sound.freeze isOpen
  obtain ⟨cycle,abreast⟩ := sound'.abreast
  have same := (freeze_eq isOpen).2.2
  have reached := abreast.reached
  by_contra held
  push Not at held
  obtain ⟨⟨w,unfinished⟩,stuck,free⟩ := held
  rcases Nat.lt_or_ge targetCycle cycle with passed | now
  · obtain ⟨value,nothing⟩ : ∃ value, opened.work sortSlice targetCycle w = .done value := abreast.work_done passed w
    exact unfinished ⟨value,Machine.reach_ended reach nothing⟩
  · obtain rfl : targetCycle = cycle := by omega
    exact unfinished (sound'.progress frozen abreast reach stuck free w)

/-- The receiver has the first turns, and waits for the link, which can go on. -/
theorem one_cycle_progress_receiver_waits : ∃ c : Call Unit, networkMachine.Reach (twoNodesOpened.start stableSort 0) c ∧
    (networkMachine.step (.node 1) c).isNone = true ∧ ((∀ w, c.Finished w) ∨ (∃ w c', networkMachine.step w c = some c') ∨
      ∃ w p op next, c.prog w = .call (p,op) next ∧ HeldUp (c.shared p) op) :=
  ⟨networkMachine.run [.node 1,.node 1] (twoNodesOpened.start stableSort 0),Machine.reach_run ..,by decide +kernel,
    one_cycle_progress built_twoNodesLinked .start (by simp) freeze_twoNodesLinked (Nat.le_refl 0) (Machine.reach_run ..)⟩

/-- A node with two output queues. The first is full enough to be ticked ahead. -/
def busyNode : NodeHandle Unit where
  node := .newBaseNode 0 ⟨[],[((OutputQueue.newOutputQueue 8 1 Nat.one_pos).injectPackets 0
    (List.replicate 8 { sourceID := 0, targetID := 1 })).2,.newOutputQueue 8 1 Nat.one_pos]⟩ (fun _ => false) ()
  handler := idle

/-- A node with an input queue for each of them. -/
def twoInputsNode : NodeHandle Unit where
  node := .newBaseNode 1 ⟨[.newInputQueue 2 1 Nat.two_pos Nat.one_pos,.newInputQueue 2 1 Nat.two_pos Nat.one_pos],[]⟩
    (fun _ => false) ()
  handler := idle

def noLinks : Network Unit :=
  { (new : Network Unit) with
    nodes := Function.update (Function.update (fun _ => none) 0 (some busyNode)) 1 (some twoInputsNode) }

def oneLink : Network Unit :=
  match noLinks.connect 0 0 1 0 1 1 none with
  | some (.ok n) => n
  | _ => noLinks

/-- Two links from one node to another. -/
def twoLinks : Network Unit :=
  match oneLink.connect 0 1 1 1 1 1 none with
  | some (.ok n) => n
  | _ => oneLink

def twoLinksOpened : Network Unit := twoLinks.freeze.getD twoLinks

/-- The workers take turns until none of them can go on. -/
def twoLinksHalted : Call Unit :=
  networkMachine.run (List.replicate 40 [Worker.node 0,.node 1,.link 0,.link 1]).flatten (twoLinksOpened.start stableSort 4)

/-- Several cycles at once: the sender waits ahead for the first link, this for the receiver, and
    the receiver for the second link, on which the sender has still to send. -/
example : [Worker.node 0,.node 1,.link 0,.link 1].all (fun w => (networkMachine.step w twoLinksHalted).isNone) = true ∧
    (match twoLinksHalted.prog (.node 0) with | .call (_,.isReady _) _ => true | _ => false) = true := by decide +kernel

end Network
end FlowSim
