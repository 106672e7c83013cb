import FlowSim.Lib.Conjunction
import FlowSim.Network.Waits

/-!
How far the workers of a network have come when they wait. An end of a port has come to a cycle
when it has decided it, if it receives there, and marked all cycles before it, if it sends there.
A node that waits for a cycle has come to it at all its ports, and when it asks for a cycle it
has decided the next one at its input ports (`keeps_paced_advanceTo`); a link that waits for a
cycle has come to a later one, and when it asks for a cycle it has come to it.
-/
namespace FlowSim.Network
open FlowSim.Lib FlowSim.AheadPort FlowSim.Queue FlowSim.Node FlowSim.Links
set_option linter.unusedSimpArgs false

/-! ### The ends of a port -/

theorem decisions_grow (r : EndRecord) (op : PortOp) (answer : op.Resp) :
    r.decisions.length ≤ (r.grow op answer).decisions.length := by
  cases op with
  | updateReady cycle ready =>
    simp only [EndRecord.grow]
    split_ifs
    · rw [List.length_append]
      exact Nat.le_add_right ..
    · exact Nat.le_refl _
  | isReady cycle => cases answer <;> exact Nat.le_refl _
  | send pwc =>
    simp only [EndRecord.grow]
    split_ifs <;> exact Nat.le_refl _
  | _ => exact Nat.le_refl _

theorem marked_grow {s : EndRecord} {op : PortOp} (may : SenderMay s op) (answer : op.Resp) :
    s.marked ≤ (s.grow op answer).marked := by
  cases op with
  | isReady cycle => cases answer <;> exact Int.le_refl _
  | send pwc => exact (marked_send s pwc).ge
  | markDone cycle => exact Int.le_of_lt may
  | _ => exact may.elim

/-- The end has come to the cycle: a sender has marked all cycles before it, a receiver has decided it. -/
def CameTo (sends : Bool) (cycle : Nat) (r : EndRecord) : Prop :=
  if sends then (cycle : Int) ≤ r.marked + 1 else cycle < r.decisions.length

section
variable {sends : Bool} {cycle earlier : Nat} {r : EndRecord}

theorem CameTo.marked (came : CameTo true cycle r) : (cycle : Int) ≤ r.marked + 1 := by
  simpa [CameTo] using came

theorem CameTo.decided (came : CameTo false cycle r) : cycle < r.decisions.length := by
  simpa [CameTo] using came

theorem CameTo.mono (came : CameTo sends cycle r) (before : earlier ≤ cycle) : CameTo sends earlier r := by
  cases sends with
  | true =>
    have marked := came.marked
    simp only [CameTo,if_true]
    omega
  | false =>
    have decided := came.decided
    simp only [CameTo,Bool.false_eq_true,if_false]
    omega

theorem CameTo.grow (came : CameTo sends cycle r) {op : PortOp} (may : sends = true → SenderMay r op) (answer : op.Resp) :
    CameTo sends cycle (r.grow op answer) := by
  cases sends with
  | true =>
    have marked := came.marked
    have more := marked_grow (may rfl) answer
    simp only [CameTo,if_true]
    omega
  | false =>
    have decided := came.decided
    have more := decisions_grow r op answer
    simp only [CameTo,Bool.false_eq_true,if_false]
    omega

end

/-! ### Nodes -/

/-- A node sends at the ports of its output queues. -/
def sendsAt : NodePort → Bool
  | .input _ => false
  | .output _ => true

namespace BaseNode
open FlowSim.Node.BaseNode
variable {σ : Type} {connected : NodePort → Bool} {g : NodePort → EndRecord} {cycle inputCycle earlier earlierInput start target : Nat}

/-- How far a node has come at its output ports, and at its input ports. -/
structure Came (connected : NodePort → Bool) (cycle inputCycle : Nat) (g : NodePort → EndRecord) : Prop where
  outputs : ∀ i, connected (.output i) = true → CameTo true cycle (g (.output i))
  inputs : ∀ i, connected (.input i) = true → CameTo false inputCycle (g (.input i))

theorem Came.mono (came : Came connected cycle inputCycle g) (before : earlier ≤ cycle) (beforeInput : earlierInput ≤ inputCycle) :
    Came connected earlier earlierInput g :=
  ⟨fun i here => (came.outputs i here).mono before,fun i here => (came.inputs i here).mono beforeInput⟩

theorem Came.grow (op : nodePorts.Op) (answer : nodePorts.Resp op) (came : Came connected cycle inputCycle g)
    (may : (nodeConduct connected).pre g op) : Came connected cycle inputCycle ((nodeConduct connected).grow g op answer) := by
  obtain ⟨port,op⟩ := op
  have elsewhere : ∀ {other}, other ≠ port → (nodeConduct connected).grow g (port,op) answer other = g other :=
    fun different => Function.update_of_ne different ..
  have here : (nodeConduct connected).grow g (port,op) answer port = (g port).grow op answer := by
    have role : (nodeRole port).grow = EndRecord.grow := by cases port <;> rfl
    show Function.update g port ((nodeRole port).grow (g port) op answer) port = _
    rw [Function.update_self,role]
  constructor
  · intro i isConnected
    by_cases same : NodePort.output i = port
    · subst same
      have prompt : PromptMay (g (.output i)) op := may.2
      rw [here]
      exact (came.outputs i isConnected).grow (fun _ => prompt.may) answer
    · rw [elsewhere same]
      exact came.outputs i isConnected
  · intro i isConnected
    by_cases same : NodePort.input i = port
    · subst same
      rw [here]
      exact (came.inputs i isConnected).grow (by simp) answer
    · rw [elsewhere same]
      exact came.inputs i isConnected

/-- A node that waits for a cycle has come to it; when it asks, no cycle after the target, it has
    decided at its input ports the cycle after the one at which it started. -/
def Paced (connected : NodePort → Bool) (start target : Nat) (g : NodePort → EndRecord) : PortOp → Prop
  | .waitDone cycle => Came connected cycle cycle g
  | .isReady cycle => cycle ≤ target ∧ Came connected start (start + 1) g
  | _ => True

abbrev pacedConduct (connected : NodePort → Bool) (start target : Nat) : Discipline nodePorts (NodePort → EndRecord) :=
  (nodeConduct connected).also fun g op => Paced connected start target g op.2

theorem came_of_standing {n : BaseNode σ} {limit : Nat} (standing : n.Standing limit g) :
    Came n.connected n.currentCycle n.currentCycle g := by
  constructor
  · intro i here
    have inside : i < n.outputQueueAhead.length := by
      rw [standing.sized]
      exact standing.hasQueue _ here
    obtain ⟨bounds,marked⟩ := standing.outputs i _ (List.getElem?_eq_getElem inside)
    rw [Nat.zero_add] at marked
    have marked := marked here
    simp only [CameTo,if_true]
    omega
  · intro i here
    have inside : i < n.queues.inputs.length := standing.hasQueue _ here
    have stands := standing.inputs i _ (List.getElem?_eq_getElem inside)
    rw [Nat.zero_add] at stands
    have decided := (stands here).decided
    simp only [CameTo,Bool.false_eq_true,if_false]
    omega

theorem keeps_paced_tick (handler : Handler σ) (sortSlice : SliceSort) {n : BaseNode σ} (inTime : n.currentCycle ≤ n.advanceTarget)
    (standing : n.Standing (n.advanceTarget + 1) g) (started : start ≤ n.currentCycle) :
    Keeps (pacedConduct n.connected start n.advanceTarget) (n.tick handler sortSlice n.currentCycle)
      (fun g' result => (result.2.connected = n.connected ∧ result.2.currentCycle = n.currentCycle ∧
          result.2.advanceTarget = n.advanceTarget) ∧
        (result.1 = none → Standing { result.2 with currentCycle := n.currentCycle + 1 } (n.advanceTarget + 1) g')) g := by
  have whole := keeps_tick handler sortSlice inTime standing
  rw [tick] at whole ⊢
  have received := (keeps_bind.mp whole).and
    (keeps_tickInputQueues sortSlice n.connected n.currentCycle n.queues.inputs 0 standing.inputs)
  have waits : Keeps (allowing fun op : nodePorts.Op => Within (n.currentCycle + 1) 0 op.2)
      (tickInputQueues sortSlice n.connected n.currentCycle 0 n.queues.inputs) (fun _ _ => True) () :=
    within_tickInputQueues sortSlice n.connected (Nat.lt_succ_self n.currentCycle) n.queues.inputs 0
  refine (received.also waits (came_of_standing standing) (fun g op answer came may => came.grow op answer may) ?_).bind ?_
  · rintro g₁ ⟨port,op⟩ came inTime
    cases op with
    | waitDone cycle => exact came.mono (Nat.le_of_lt_succ inTime) (Nat.le_of_lt_succ inTime)
    | isReady cycle => exact absurd inTime (Nat.not_lt_zero cycle)
    | _ => trivial
  · rintro g₁ ⟨error | error,inputs,refs⟩ ⟨⟨rest,stand,length,_⟩,_,came⟩
    · dsimp only at rest stand length ⊢
      have decided : Came n.connected n.currentCycle (n.currentCycle + 1) g₁ := by
        refine ⟨came.outputs,fun i here => ?_⟩
        have inside : i < inputs.length := (standing.hasQueue _ here).trans_eq length.symm
        have stands := stand rfl i _ (List.getElem?_eq_getElem inside)
        rw [Nat.zero_add] at stands
        have decided := (stands here).decided
        simp only [CameTo,Bool.false_eq_true,if_false]
        omega
      rcases worked : runOn (handler n.currentCycle n.state refs) { n.queues with inputs } with ⟨⟨error | error,state⟩,queues⟩
      · rw [worked] at rest
        have asks : Keeps (allowing fun op : nodePorts.Op => Within 0 (n.advanceTarget + 1) op.2)
            (tickOutputQueues n.connected n.currentCycle n.advanceTarget 0 queues.outputs n.outputQueueAhead) (fun _ _ => True) () :=
          within_tickOutputQueues n.connected n.advanceTarget inTime queues.outputs n.outputQueueAhead 0
        refine ((keeps_bind.mp rest).also asks decided (fun g op answer came may => came.grow op answer may) ?_).bind ?_
        · rintro g₂ ⟨port,op⟩ came inTime
          cases op with
          | waitDone cycle => exact absurd inTime (Nat.not_lt_zero cycle)
          | isReady cycle => exact ⟨Nat.le_of_lt_succ inTime,came.mono started (Nat.succ_le_succ started)⟩
          | _ => trivial
        · rintro g₂ _ ⟨done,_⟩
          exact done
      · rw [worked] at rest
        exact rest
    · exact rest

theorem keeps_paced_advanceLoop (handler : Handler σ) (sortSlice : SliceSort) : ∀ (remaining : Nat) {n : BaseNode σ}
    {g : NodePort → EndRecord}, n.currentCycle + remaining = n.advanceTarget + 1 → n.Standing (n.advanceTarget + 1) g →
      start ≤ n.currentCycle → Keeps (pacedConduct n.connected start n.advanceTarget) (advanceLoop handler sortSlice remaining n)
        (fun g' result => result.2.connected = n.connected ∧ (result.1 = none →
          result.2.currentCycle = n.advanceTarget + 1 ∧ result.2.Standing (n.advanceTarget + 1) g')) g
  | 0, _, _, atEnd, standing, _ => ⟨rfl,fun _ => ⟨atEnd,standing⟩⟩
  | remaining + 1, n, g, atEnd, standing, started => by
    rw [advanceLoop]
    refine (keeps_paced_tick handler sortSlice (by omega) standing started).bind ?_
    rintro g₁ ⟨error | error,n₁⟩ ⟨⟨connected,current,target⟩,ticked⟩
    · have after := ticked rfl
      have current : n₁.currentCycle = n.currentCycle := current
      have connected : n₁.connected = n.connected := connected
      have target : n₁.advanceTarget = n.advanceTarget := target
      dsimp only
      rw [← current,← target] at after
      rw [← connected,← target]
      refine keeps_paced_advanceLoop handler sortSlice remaining ?_ after ?_
      · show n₁.currentCycle + 1 + remaining = n₁.advanceTarget + 1
        omega
      · show start ≤ n₁.currentCycle + 1
        omega
    · refine ⟨connected,fun fine => ?_⟩
      cases fine

/-- A node that advances keeps its pace. -/
theorem keeps_paced_advanceTo (handler : Handler σ) (sortSlice : SliceSort) (targetCycle : Nat) {n : BaseNode σ}
    (standing : n.Standing n.currentCycle g) :
    Keeps (pacedConduct n.connected n.currentCycle targetCycle) (n.advanceTo handler sortSlice targetCycle)
      (fun g' result => result.2.connected = n.connected ∧ (result.1 = none →
        result.2.currentCycle = max n.currentCycle (targetCycle + 1) ∧ result.2.Standing result.2.currentCycle g')) g := by
  have plain := keeps_advanceTo handler sortSlice targetCycle standing
  rw [advanceTo] at plain ⊢
  split_ifs at plain ⊢ with passed
  · exact plain
  · have upTo : OutputsStand n.connected 0 n.currentCycle (targetCycle + 1) n.outputQueueAhead g := by
      intro k ahead found
      obtain ⟨bounds,marked⟩ := standing.outputs k ahead found
      exact ⟨by omega,marked⟩
    refine (keeps_paced_advanceLoop handler sortSlice _ (n := { n with advanceTarget := targetCycle })
      (show n.currentCycle + (targetCycle + 1 - n.currentCycle) = targetCycle + 1 by omega)
      ⟨standing.inputs,upTo,standing.sized,standing.hasQueue⟩ (Nat.le_refl n.currentCycle)).mono ?_
    rintro g' result ⟨connected,after⟩
    refine ⟨connected,fun fine => ?_⟩
    obtain ⟨current,standing'⟩ := after fine
    have current : result.2.currentCycle = targetCycle + 1 := current
    exact ⟨by omega,by rw [current]; exact standing'⟩

end BaseNode

/-! ### Links -/

namespace Link
open FlowSim.Links.Link
variable {l : Link AnyLinkType} {g : LinkEnd → EndRecord} {cycle earlier : Nat}

/-- How far a link has come at both ends. -/
structure Came (cycle : Nat) (g : LinkEnd → EndRecord) : Prop where
  upstream : CameTo false cycle (g .upstream)
  downstream : CameTo true cycle (g .downstream)

theorem Came.mono (came : Came cycle g) (before : earlier ≤ cycle) : Came earlier g :=
  ⟨came.upstream.mono before,came.downstream.mono before⟩

theorem Came.grow (op : linkPorts.Op) (answer : linkPorts.Resp op) (came : Came cycle g) (may : linkConduct.pre g op) :
    Came cycle (linkConduct.grow g op answer) := by
  obtain ⟨side,op⟩ := op
  have elsewhere : ∀ {other}, other ≠ side → linkConduct.grow g (side,op) answer other = g other :=
    fun different => Function.update_of_ne different ..
  have here : linkConduct.grow g (side,op) answer side = (g side).grow op answer := by
    have role : (linkRole side).grow = EndRecord.grow := by cases side <;> rfl
    show Function.update g side ((linkRole side).grow (g side) op answer) side = _
    rw [Function.update_self,role]
  cases side with
  | upstream =>
    refine ⟨?_,?_⟩
    · rw [here]
      exact came.upstream.grow (by simp) answer
    · rw [elsewhere (by decide)]
      exact came.downstream
  | downstream =>
    have may : SenderMay (g .downstream) op := may.2
    refine ⟨?_,?_⟩
    · rw [elsewhere (by decide)]
      exact came.upstream
    · rw [here]
      exact came.downstream.grow (fun _ => may) answer

/-- A link that waits for a cycle has come to a later one; when it asks for a cycle it has come to it. -/
def Paced (g : LinkEnd → EndRecord) : PortOp → Prop
  | .waitDone cycle => Came (cycle + 1) g
  | .isReady cycle => Came cycle g
  | _ => True

abbrev pacedConduct : Discipline linkPorts (LinkEnd → EndRecord) := linkConduct.also fun g op => Paced g op.2

theorem came_of_standing (standing : l.Standing AnyLinkType.Holds g) : Came l.currentCycle g := by
  have decided := standing.decided.decided
  have marked := standing.marked
  refine ⟨?_,?_⟩
  · simp only [CameTo,Bool.false_eq_true,if_false]
    omega
  · simp only [CameTo,if_true]
    omega

theorem keeps_paced_tick (targetCycle : Nat) (standing : l.Standing AnyLinkType.Holds g) :
    Keeps pacedConduct (l.tick AnyLinkType.linkType l.currentCycle targetCycle)
      (fun g' result => ∃ l', result = some l' ∧ l'.currentCycle = l.currentCycle ∧
        Standing AnyLinkType.Holds { l' with currentCycle := l.currentCycle + 1 } g') g := by
  have within := within_linkTick l targetCycle standing.delayed (Nat.le_refl _) (Nat.lt_succ_self _)
  refine ((Link.keeps_tick AnyLinkType.conducts targetCycle standing).also within (came_of_standing standing)
    (fun g op answer came may => came.grow op answer may) ?_).mono ?_
  · rintro g₁ ⟨side,op⟩ came inTime
    cases op with
    | waitDone cycle => exact came.mono inTime
    | isReady cycle => exact came.mono (Nat.le_of_lt_succ inTime)
    | _ => trivial
  · rintro g₁ result ⟨ticked,_⟩
    exact ticked

theorem keeps_paced_tickCycles (targetCycle : Nat) : ∀ (cycles : Nat) {l : Link AnyLinkType}
    {g : LinkEnd → EndRecord}, l.Standing AnyLinkType.Holds g → Keeps pacedConduct (l.tickCycles AnyLinkType.linkType targetCycle cycles)
      (fun g' result => ∃ l', result = some l' ∧ l'.currentCycle = l.currentCycle + cycles ∧ l'.Standing AnyLinkType.Holds g') g
  | 0, l, g, standing => ⟨l,rfl,rfl,standing⟩
  | cycles + 1, l, g, standing => by
    rw [tickCycles]
    refine (keeps_paced_tick targetCycle standing).bind ?_
    rintro g₁ _ ⟨l₁,rfl,current,standing'⟩
    rw [← current] at standing'
    refine (keeps_paced_tickCycles targetCycle cycles standing').mono ?_
    rintro g' _ ⟨l',rfl,atEnd,ended⟩
    have atEnd : l'.currentCycle = l₁.currentCycle + 1 + cycles := atEnd
    exact ⟨l',rfl,by omega,ended⟩

end Link
end FlowSim.Network

namespace FlowSim
open FlowSim.Lib FlowSim.AheadPort FlowSim.Queue FlowSim.Node FlowSim.Links FlowSim.Network

namespace Network
variable {σ : Type} {n : Network σ} {g : Worker → PortId → EndRecord} {sortSlice : SliceSort} {start targetCycle : Nat}

/-! ### Workers -/

/-- The pace of a worker, given what it has done at all ports. -/
def paced (links : List Connection) (start target : Nat) : Worker → (PortId → EndRecord) → networkPorts.Op → Prop
  | .node id, g, op =>
    BaseNode.Paced (fun port => (wiring links (id,port)).isSome) start target (fun port => g (id,port)) op.2
  | .link index, g, op => ∀ l ∈ links[index]?, Link.Paced (fun side => g (l.portAt side)) op.2

/-- What a worker may do at its ports, at its pace. -/
abbrev pacedConduct (links : List Connection) (start target : Nat) (w : Worker) : Discipline networkPorts (PortId → EndRecord) :=
  ((wiring links).conduct w).also (paced links start target w)

section
variable {links : List Connection} {α : Type} {g : PortId → EndRecord} {target : Nat}

theorem keeps_paced_node {id : Int} {connected : NodePort → Bool}
    (attached : ∀ port, connected port = true ↔ (wiring links (id,port)).isSome = true) {p : Prog nodePorts α}
    {R : (NodePort → EndRecord) → α → Prop} (keeps : Keeps (BaseNode.pacedConduct connected start target) p R fun port => g (id,port)) :
    Keeps (pacedConduct links start target (.node id)) (p.relabel fun port => (id,port))
      (fun g' value => R (fun port => g' (id,port)) value) g := by
  obtain rfl : connected = fun port => (wiring links (id,port)).isSome := funext fun port => Bool.eq_iff_iff.mpr (attached port)
  exact keeps_relabel_also (fun _ _ same => congrArg Prod.snd same) (fun port isConnected => works_node isConnected)
    (fun g' op pace => pace) keeps

theorem keeps_paced_link (apart : Apart links) {index : Nat} {l : Connection} (found : links[index]? = some l) {p : Prog linkPorts α}
    {R : (LinkEnd → EndRecord) → α → Prop} (keeps : Keeps Link.pacedConduct p R fun side => g (l.portAt side)) :
    Keeps (pacedConduct links start target (.link index)) (p.relabel l.portAt)
      (fun g' value => R (fun side => g' (l.portAt side)) value) g := by
  refine keeps_relabel_also (portAt_injective l) (fun side _ => works_link apart found side) (fun g' op pace l' isLink => ?_) keeps
  obtain rfl := Option.some.inj (found.symm.trans isLink)
  exact pace

end

/-- Every worker does at its ports what it may, and keeps its pace. -/
theorem Sound.keeps_paced_work (sound : n.Sound g) (frozen : n.frozen = true) (abreast : n.Abreast start) (w : Worker) :
    Keeps (pacedConduct n.links start targetCycle w) (n.work sortSlice targetCycle w) (n.Ends targetCycle w) (g w) := by
  cases w with
  | node id =>
    rcases found : n.nodes id with _ | handle
    · simp only [work,found]
      exact found
    · simp only [work,found]
      have current := abreast.nodes id handle found
      have advanced := BaseNode.keeps_paced_advanceTo handle.handler sortSlice targetCycle (sound.nodes id handle found)
      rw [current] at advanced
      refine (keeps_paced_node (sound.attached id handle found) advanced).bind ?_
      rintro g' ⟨error,node⟩ ⟨connected,standing⟩
      refine ⟨handle,found,connected,fun fine => ?_⟩
      obtain ⟨atEnd,ended⟩ := standing fine
      exact ⟨by rw [current]; exact atEnd,ended⟩
  | link index =>
    rcases found : n.links[index]? with _ | l
    · simp only [work,found]
      exact found
    · simp only [work,found]
      have standing := sound.links index l found
      rw [if_pos frozen] at standing
      have advanced := Link.keeps_paced_tickCycles targetCycle (targetCycle + 1 - l.link.currentCycle) standing
      refine (keeps_paced_link sound.apart found advanced).bind ?_
      rintro g' _ ⟨link,rfl,current,ended⟩
      exact ⟨l,found,by omega,ended⟩

end Network
end FlowSim
