import FlowSim.Lib.Restraint
import FlowSim.Network.Workers

/-!
Which cycles the workers of a network wait and ask for. In a call of `AdvanceTo` a node waits
and asks for no cycle after the target, also when it ticks ahead; a link, which receives what
was sent its latency before, waits only for cycles before the target.
-/
namespace FlowSim.Network
open FlowSim.Lib FlowSim.AheadPort FlowSim.Queue FlowSim.Node FlowSim.Links
set_option linter.unusedSimpArgs false

/-! ### What the workers wait for -/

/-- An operation that waits only for cycles before `waits`, and asks only for cycles before `asks`. -/
def Within (waits asks : Nat) : PortOp → Prop
  | .waitDone cycle => cycle < waits
  | .isReady cycle => cycle < asks
  | _ => True

variable {waits asks cycle : Nat}

theorem within_receive (inTime : cycle < waits) :
    Keeps (allowing (Within waits asks)) (receive cycle) (fun _ _ => True) () :=
  ⟨trivial,fun _ _ => ⟨inTime,fun _ _ => ⟨trivial,fun _ _ => trivial⟩⟩⟩

theorem within_updates : ∀ (cycles : List Nat),
    Keeps (allowing (Within waits asks)) (cycles.forM fun i => updateReady i true) (fun _ _ => True) ()
  | [] => trivial
  | i :: rest => by
    have others := within_updates rest
    simp only [List.forM_eq_forM,List.forM_cons] at others ⊢
    exact ⟨trivial,fun _ _ => others⟩

theorem within_inputTick (iq : InputQueue) (inTime : cycle < waits) :
    Keeps (allowing (Within waits asks)) (iq.tick cycle) (fun _ _ => True) () := by
  rw [InputQueue.tick]
  refine (within_receive inTime).bind fun _ pkts _ => ?_
  split
  · trivial
  · refine Keeps.bind (Q := fun _ _ => True) ?_ fun _ _ _ => trivial
    unfold InputQueue.updateUpstream
    split
    · exact ⟨trivial,fun _ _ => trivial⟩
    · exact (within_updates _).bind fun _ _ _ => trivial

theorem within_sendUpTo (inTime : cycle < asks) : ∀ (left : Nat) (oq : OutputQueue),
    Keeps (allowing (Within waits asks)) (oq.sendUpTo cycle left) (fun _ _ => True) ()
  | 0, _ => trivial
  | left + 1, oq => by
    rw [OutputQueue.sendUpTo]
    split_ifs with some_left
    · refine ⟨inTime,fun ready _ => ?_⟩
      cases ready with
      | true => exact ⟨trivial,fun _ _ => within_sendUpTo inTime left _⟩
      | false => trivial
    · trivial

theorem within_outputTick (oq : OutputQueue) (inTime : cycle < asks) :
    Keeps (allowing (Within waits asks)) (oq.tick cycle) (fun _ _ => True) () :=
  (within_sendUpTo inTime _ oq).bind fun _ _ _ => ⟨trivial,fun _ _ => trivial⟩

/-! ### Nodes -/

namespace BaseNode
open FlowSim.Node.BaseNode
variable {σ : Type}

theorem within_tickInputQueues (sortSlice : SliceSort) (connected : NodePort → Bool) (inTime : cycle < waits) :
    ∀ (inputs : List InputQueue) (i : Nat),
      Keeps (allowing fun op : nodePorts.Op => Within waits asks op.2) (tickInputQueues sortSlice connected cycle i inputs) (fun _ _ => True) ()
  | [], _ => trivial
  | iq :: rest, i => by
    rw [tickInputQueues]
    refine Keeps.bind (Q := fun _ _ => True) ?_ ?_
    · unfold tickInput
      split_ifs
      · rw [atPort_eq]
        exact keeps_inside_allowing (within_inputTick iq inTime) _
      · trivial
    · rintro ⟨⟩ ⟨error | error,iq'⟩ _
      · exact (within_tickInputQueues sortSlice connected inTime rest (i + 1)).bind fun _ _ _ => trivial
      · trivial

theorem within_tickAhead (connected : Bool) (i : Nat) : ∀ (remaining curr ahead : Nat) (oq : OutputQueue),
    curr + remaining ≤ asks →
      Keeps (allowing fun op : nodePorts.Op => Within waits asks op.2) (tickAhead connected i cycle remaining curr ahead oq) (fun _ _ => True) ()
  | 0, _, _, _, _ => trivial
  | remaining + 1, curr, ahead, oq, inTime => by
    rw [tickAhead]
    split_ifs
    · trivial
    · refine Keeps.bind (Q := fun _ _ => True) ?_ fun _ oq' _ => within_tickAhead connected i remaining _ _ oq' (by omega)
      unfold tickOutput
      split_ifs
      · rw [atPort_eq]
        exact keeps_inside_allowing (within_outputTick oq (by omega)) _
      · trivial

theorem within_tickOutputQueues (connected : NodePort → Bool) (advanceTarget : Nat) (inTime : cycle ≤ advanceTarget) :
    ∀ (outputs : List OutputQueue) (aheads : List Nat) (i : Nat),
      Keeps (allowing fun op : nodePorts.Op => Within waits (advanceTarget + 1) op.2)
        (tickOutputQueues connected cycle advanceTarget i outputs aheads) (fun _ _ => True) ()
  | [], aheads, i => by
    rw [tickOutputQueues]
    · trivial
    · simp
  | oq :: outputs, [], i => by
    rw [tickOutputQueues]
    · trivial
    · simp
  | oq :: outputs, ahead :: aheads, i => by
    rw [tickOutputQueues]
    refine Keeps.bind (Q := fun _ _ => True) ?_ ?_
    · by_cases beyond : max cycle ahead ≤ advanceTarget + 1
      · exact within_tickAhead _ i _ _ _ oq (by omega)
      · rw [Nat.sub_eq_zero_of_le (by omega)]
        trivial
    · rintro ⟨⟩ ⟨oq',ahead'⟩ _
      exact (within_tickOutputQueues connected advanceTarget inTime outputs aheads (i + 1)).bind fun _ _ _ => trivial

theorem within_tick (handler : Handler σ) (sortSlice : SliceSort) (n : BaseNode σ) (inTime : n.currentCycle ≤ n.advanceTarget) :
    Keeps (allowing fun op : nodePorts.Op => Within (n.advanceTarget + 1) (n.advanceTarget + 1) op.2) (n.tick handler sortSlice n.currentCycle)
      (fun _ result => result.2.currentCycle = n.currentCycle ∧ result.2.advanceTarget = n.advanceTarget) () := by
  rw [tick]
  refine (within_tickInputQueues sortSlice n.connected (by omega) n.queues.inputs 0).bind ?_
  rintro ⟨⟩ ⟨error | error,inputs,refs⟩ _
  · dsimp only
    rcases runOn (handler n.currentCycle n.state refs) { n.queues with inputs } with ⟨⟨error | error,state⟩,queues⟩
    · refine (within_tickOutputQueues n.connected n.advanceTarget inTime queues.outputs n.outputQueueAhead 0).bind ?_
      exact fun _ _ _ => ⟨rfl,rfl⟩
    · exact ⟨rfl,rfl⟩
  · exact ⟨rfl,rfl⟩

theorem within_advanceLoop (handler : Handler σ) (sortSlice : SliceSort) (targetCycle : Nat) : ∀ (remaining : Nat) (n : BaseNode σ),
    n.currentCycle + remaining = targetCycle + 1 → n.advanceTarget = targetCycle →
      Keeps (allowing fun op : nodePorts.Op => Within (targetCycle + 1) (targetCycle + 1) op.2) (advanceLoop handler sortSlice remaining n)
        (fun _ _ => True) ()
  | 0, _, _, _ => trivial
  | remaining + 1, n, atEnd, target => by
    rw [advanceLoop]
    have ticked := within_tick handler sortSlice n (by omega)
    rw [target] at ticked
    refine ticked.bind ?_
    rintro ⟨⟩ ⟨error | error,n'⟩ ⟨current,target'⟩
    · refine within_advanceLoop handler sortSlice targetCycle remaining _ ?_ target'
      have current : n'.currentCycle = n.currentCycle := current
      show n'.currentCycle + 1 + remaining = targetCycle + 1
      omega
    · trivial

/-- A node waits and asks for no cycle after the target. -/
theorem within_advanceTo (handler : Handler σ) (sortSlice : SliceSort) (targetCycle : Nat) (n : BaseNode σ) :
    Keeps (allowing fun op : nodePorts.Op => Within (targetCycle + 1) (targetCycle + 1) op.2) (n.advanceTo handler sortSlice targetCycle)
      (fun _ _ => True) () := by
  rw [advanceTo]
  split_ifs with passed
  · trivial
  · refine within_advanceLoop handler sortSlice targetCycle _ _ ?_ rfl
    show n.currentCycle + (targetCycle + 1 - n.currentCycle) = targetCycle + 1
    omega

end BaseNode

/-! ### Links -/

section
variable {α : Type} {R : Unit → α → Prop}

theorem keeps_atEnd_allowing {allowed : PortOp → Prop} {p : Prog portInterface α} (side : LinkEnd)
    (keeps : Keeps (allowing allowed) p R ()) :
    Keeps (allowing fun op : linkPorts.Op => allowed op.2) (atEnd side p) R () := by
  rw [atEnd_eq]
  exact keeps_inside_allowing keeps side

theorem within_sendAll (inTime : cycle < asks) : ∀ pkts : List PacketWithCycle,
    Keeps (allowing (Within waits asks)) (BufferedLinkType.sendAll cycle pkts) (fun _ _ => True) ()
  | [] => trivial
  | pwc :: rest => by
    rw [BufferedLinkType.sendAll]
    refine ⟨inTime,fun ready _ => ?_⟩
    cases ready with
    | true => exact ⟨trivial,fun _ _ => (within_sendAll inTime rest).bind fun _ _ _ => trivial⟩
    | false => exact (within_sendAll inTime rest).bind fun _ _ _ => trivial

theorem within_offerAll (inTime : cycle < asks) : ∀ (pkts : List Packet) (h : BufferlessLinkType),
    Keeps (allowing (Within waits asks)) (pkts.foldlM (BufferlessLinkType.offer cycle) h) (fun _ _ => True) ()
  | [], _ => trivial
  | pkt :: rest, h => by
    rw [List.foldlM_cons]
    refine Keeps.bind (Q := fun _ _ => True) ⟨inTime,fun ready _ => ?_⟩ fun _ h' _ => within_offerAll inTime rest h'
    cases ready with
    | true => exact ⟨trivial,fun _ _ => trivial⟩
    | false => trivial

theorem within_process (t : AnyLinkType) (targetCycle : Nat) (incoming : List Packet) (inTime : cycle < asks) :
    Keeps (allowing fun op : linkPorts.Op => Within waits asks op.2) (t.process cycle targetCycle incoming) (fun _ _ => True) () := by
  have signalled : ∀ ready, Keeps (allowing fun op : linkPorts.Op => Within waits asks op.2)
      (atEnd .upstream (updateReady (cycle + 1) ready)) (fun _ _ => True) () := fun ready => ⟨trivial,fun _ _ => trivial⟩
  cases t with
  | buffered h =>
    refine Keeps.bind (Q := fun _ _ => True) ?_ fun _ _ _ => trivial
    unfold BufferedLinkType.process
    split
    · trivial
    · next h' _ =>
      refine Keeps.bind (Q := fun _ _ => True) ?_ fun _ _ _ => (signalled _).bind fun _ _ _ => trivial
      refine ⟨inTime,fun ready _ => ?_⟩
      cases ready with
      | true =>
        refine (keeps_atEnd_allowing .downstream (within_sendAll inTime (h'.getSlot cycle))).bind fun _ pending _ => ?_
        split
        · trivial
        · trivial
      | false => trivial
  | bufferless h =>
    refine Keeps.bind (Q := fun _ _ => True) ?_ fun _ _ _ => trivial
    refine (keeps_atEnd_allowing (R := fun _ _ => True) .downstream ?_).bind fun _ h' _ => ?_
    · unfold BufferlessLinkType.retry
      split_ifs
      · trivial
      · exact within_offerAll inTime _ _
    · refine (keeps_atEnd_allowing .downstream (within_offerAll inTime incoming h')).bind fun _ _ _ => ?_
      exact (signalled _).bind fun _ _ _ => trivial

theorem within_linkTick (l : Link AnyLinkType) (targetCycle : Nat) (delayed : 0 < l.latency) (inWaits : l.currentCycle ≤ waits)
    (inAsks : l.currentCycle < asks) :
    Keeps (allowing fun op : linkPorts.Op => Within waits asks op.2)
      (l.tick AnyLinkType.linkType l.currentCycle targetCycle)
      (fun _ result => ∀ l', result = some l' → l'.latency = l.latency ∧ l'.currentCycle = l.currentCycle) () := by
  rw [Link.tick]
  refine Keeps.bind (Q := fun _ _ => True) ?_ fun _ incoming _ => ?_
  · unfold Link.incoming
    split_ifs with received
    · exact keeps_atEnd_allowing .upstream (within_receive (by omega))
    · trivial
  · refine (within_process l.state targetCycle incoming inAsks).bind ?_
    rintro ⟨⟩ (_ | state) _
    · intro l' result
      cases result
    · refine ⟨trivial,fun _ _ l' result => ?_⟩
      obtain rfl := Option.some.inj result
      exact ⟨rfl,rfl⟩

theorem within_tickCycles (targetCycle : Nat) : ∀ (cycles : Nat) (l : Link AnyLinkType), 0 < l.latency →
    l.currentCycle + cycles ≤ targetCycle + 1 → Keeps (allowing fun op : linkPorts.Op => Within targetCycle (targetCycle + 1) op.2)
      (l.tickCycles AnyLinkType.linkType targetCycle cycles) (fun _ _ => True) ()
  | 0, _, _, _ => trivial
  | cycles + 1, l, delayed, inTime => by
    rw [Link.tickCycles]
    refine (within_linkTick l targetCycle delayed (by omega) (by omega)).bind ?_
    rintro ⟨⟩ (_ | l') same
    · trivial
    · obtain ⟨latency,current⟩ := same l' rfl
      refine within_tickCycles targetCycle cycles _ ?_ ?_
      · show 0 < l'.latency
        omega
      · show l'.currentCycle + 1 + cycles ≤ targetCycle + 1
        omega

end

end FlowSim.Network
