import FlowSim.Node.BaseNode
import FlowSim.Queue.Sending

/-!
In which cycles a node ticks its output queues. A queue may be ticked ahead of the node, and
the mark of how far ahead it is survives from one `AdvanceTo` to the next; still each queue
is ticked once in every cycle, in order (`ticks_every_cycle`).
-/
namespace FlowSim.Node
open FlowSim.Lib FlowSim.AheadPort FlowSim.Queue
set_option linter.unusedSimpArgs false

/-- The cycles that are marked done at the port of an output queue. -/
def marks (queue : Nat) (events : List (Event nodePorts)) : List Nat :=
  events.filterMap fun event =>
    match event.op with
    | (.output i,.markDone cycle) => if i = queue then some cycle else none
    | _ => none

section
variable {α : Type} {queue : Nat}

@[simp] theorem marks_nil : marks queue [] = [] := rfl

@[simp] theorem marks_append (before after : List (Event nodePorts)) :
    marks queue (before ++ after) = marks queue before ++ marks queue after := List.filterMap_append

/-- An event of a port, at one of the ports of a node. -/
def atNodePort (port : NodePort) (event : Event portInterface) : Event nodePorts := ⟨(port,event.op),event.answer⟩

theorem does_atPort (port : NodePort) {p : Prog portInterface α} : ∀ {events : List (Event nodePorts)} {value : α},
    (atPort port p).Does events value → ∃ portEvents, p.Does portEvents value ∧ events = portEvents.map (atNodePort port) := by
  induction p with
  | done value =>
    rintro events result ⟨rfl,rfl⟩
    exact ⟨[],⟨rfl,rfl⟩,rfl⟩
  | call op next ih =>
    rintro events result ⟨answer,rest,rfl,later⟩
    obtain ⟨portEvents,does,rfl⟩ := ih answer later
    exact ⟨⟨op,answer⟩ :: portEvents,⟨answer,portEvents,rfl,does⟩,rfl⟩

theorem marks_map_input (i : Nat) (portEvents : List (Event portInterface)) :
    marks queue (portEvents.map (atNodePort (.input i))) = [] := by
  rw [marks,List.filterMap_map]
  exact List.filterMap_eq_nil_iff.mpr fun _ _ => rfl

theorem marks_map_other {i : Nat} (other : i ≠ queue) (portEvents : List (Event portInterface)) :
    marks queue (portEvents.map (atNodePort (.output i))) = [] := by
  rw [marks,List.filterMap_map]
  refine List.filterMap_eq_nil_iff.mpr fun event _ => ?_
  obtain ⟨op,answer⟩ := event
  cases op with
  | markDone cycle => exact if_neg other
  | _ => rfl

/-- A tick marks its own cycle done, and no other. -/
theorem marks_sendsFirst {cycle outBandwidth : Nat} {waiting sent rest : List Packet} {events : List (Event portInterface)}
    (sends : SendsFirst cycle outBandwidth waiting sent rest events) :
    marks queue (events.map (atNodePort (.output queue))) = [cycle] := by
  have accepted : marks queue ((sent.flatMap (acceptedAt cycle)).map (atNodePort (.output queue))) = [] := by
    clear sends
    induction sent with
    | nil => rfl
    | cons pkt rest ih =>
      rw [List.flatMap_cons,List.map_append,marks_append,ih]
      rfl
  have refused : ∀ stopped : Prop, [Decidable stopped] →
      marks queue ((if stopped then [refusedAt cycle] else []).map (atNodePort (.output queue))) = [] := by
    intro stopped _
    split <;> rfl
  rw [sends.events_eq,List.map_append,List.map_append,marks_append,marks_append,accepted,refused]
  simp [marks,atNodePort]

end

namespace BaseNode

/-! ### One cycle -/

theorem marks_tickInputQueues (sortSlice : SliceSort) (connected : NodePort → Bool) (cycle queue : Nat) :
    ∀ (inputs : List InputQueue) (i : Nat) {events : List (Event nodePorts)} {result},
      (tickInputQueues sortSlice connected cycle i inputs).Does events result → marks queue events = []
  | [], i, events, result, does => by
    obtain ⟨rfl,_⟩ := does
    rfl
  | iq :: rest, i, events, result, does => by
    obtain ⟨first,⟨error,iq'⟩,second,rfl,ticked,later⟩ := Prog.does_bind.mp does
    have none_first : marks queue first = [] := by
      unfold tickInput at ticked
      split at ticked
      · obtain ⟨portEvents,_,rfl⟩ := does_atPort _ ticked
        exact marks_map_input i portEvents
      · obtain ⟨rfl,_⟩ := ticked
        rfl
    rw [marks_append,none_first,List.nil_append]
    cases error with
    | some error =>
      obtain ⟨rfl,_⟩ := later
      rfl
    | none =>
      obtain ⟨third,others,fourth,rfl,others_ticked,returned⟩ := Prog.does_bind.mp later
      obtain ⟨rfl,_⟩ := returned
      rw [marks_append,marks_tickInputQueues sortSlice connected cycle queue rest (i + 1) others_ticked]
      rfl

theorem marks_tickOutput {connected : Bool} {i cycle : Nat} {oq oq' : OutputQueue} {events : List (Event nodePorts)}
    (does : (tickOutput connected i cycle oq).Does events oq') (queue : Nat) :
    marks queue events = if i = queue ∧ connected = true then [cycle] else [] := by
  unfold tickOutput at does
  split at does
  · next connected =>
    obtain ⟨portEvents,ticked,rfl⟩ := does_atPort _ does
    obtain ⟨⟨sent,sends⟩,_⟩ := OutputQueue.does_tick ticked
    by_cases here : i = queue
    · subst here
      rw [if_pos ⟨rfl,connected⟩]
      exact marks_sendsFirst sends
    · rw [if_neg fun both => here both.1]
      exact marks_map_other here portEvents
  · next unconnected =>
    obtain ⟨rfl,_⟩ := does
    rw [if_neg fun both => unconnected both.2]
    rfl

/-- Ticking ahead goes through the cycles in order, and does the node's own cycle. -/
theorem marks_tickAhead (connected : Bool) (i cycle : Nat) : ∀ (remaining curr : Nat) {oq : OutputQueue}
    {events : List (Event nodePorts)} {oq' : OutputQueue} {ahead' : Nat},
    (tickAhead connected i cycle remaining curr curr oq).Does events (oq',ahead') →
      curr ≤ ahead' ∧ ahead' ≤ curr + remaining ∧ (curr ≤ cycle → 0 < remaining → curr < ahead') ∧
      ∀ queue, marks queue events = if i = queue ∧ connected = true then List.range' curr (ahead' - curr) else []
  | 0, curr, oq, events, oq', ahead', does => by
    obtain ⟨rfl,same⟩ := does
    obtain ⟨_,rfl⟩ := Prod.mk.inj same
    refine ⟨Nat.le_refl _,Nat.le_refl _,fun _ some_left => absurd some_left (Nat.lt_irrefl _),fun queue => ?_⟩
    rw [Nat.sub_self]
    split <;> rfl
  | remaining + 1, curr, oq, events, oq', ahead', does => by
    unfold tickAhead at does
    split at does
    · next stops =>
      obtain ⟨rfl,same⟩ := does
      obtain ⟨_,rfl⟩ := Prod.mk.inj same
      refine ⟨Nat.le_refl _,Nat.le_add_right _ _,fun now _ => by omega,fun queue => ?_⟩
      rw [Nat.sub_self]
      split <;> rfl
    · obtain ⟨first,ticked,second,rfl,ticks,later⟩ := Prog.does_bind.mp does
      obtain ⟨from_,upTo,_,rest⟩ := marks_tickAhead connected i cycle remaining (curr + 1) later
      refine ⟨by omega,by omega,fun _ _ => by omega,fun queue => ?_⟩
      rw [marks_append,marks_tickOutput ticks,rest]
      by_cases here : i = queue ∧ connected = true
      · rw [if_pos here,if_pos here,if_pos here,show ahead' - curr = ahead' - (curr + 1) + 1 by omega]
        rfl
      · rw [if_neg here,if_neg here,if_neg here]
        rfl

/-- How far ahead the output queues are after a cycle, and what they were ticked for, the
    first of them being number `i`. -/
structure Ahead (connected : NodePort → Bool) (cycle target i : Nat) (aheads aheads' : List Nat) (events : List (Event nodePorts)) :
    Prop where
  length : aheads'.length = aheads.length
  within : ∀ ahead ∈ aheads', cycle < ahead ∧ ahead ≤ target + 1
  marked : ∀ k ahead ahead', aheads[k]? = some ahead → aheads'[k]? = some ahead' → connected (.output (i + k)) = true →
    ahead ≤ ahead' ∧ marks (i + k) events = List.range' ahead (ahead' - ahead)
  others : ∀ queue < i, marks queue events = []

theorem ahead_tickOutputQueues (connected : NodePort → Bool) {cycle target : Nat} (now : cycle ≤ target) :
    ∀ {aheads : List Nat} {outputs : List OutputQueue} {i : Nat} {outputs' : List OutputQueue} {aheads' : List Nat}
      {events : List (Event nodePorts)}, outputs.length = aheads.length → (∀ ahead ∈ aheads, cycle ≤ ahead ∧ ahead ≤ target + 1) →
      (tickOutputQueues connected cycle target i outputs aheads).Does events (outputs',aheads') →
      outputs'.length = aheads.length ∧ Ahead connected cycle target i aheads aheads' events
  | [], outputs, i, outputs', aheads', events, same, within, does => by
    obtain rfl := List.length_eq_zero_iff.mp same
    obtain ⟨rfl,result⟩ := does
    obtain ⟨rfl,rfl⟩ := Prod.mk.inj result
    exact ⟨rfl,rfl,fun _ member => absurd member List.not_mem_nil,fun _ _ _ found => (by cases found),fun _ _ => rfl⟩
  | ahead :: aheads, [], i, outputs', aheads', events, same, within, does => by cases same
  | ahead :: aheads, oq :: outputs, i, outputs', aheads', events, same, within, does => by
    obtain ⟨from_,upTo⟩ := within ahead List.mem_cons_self
    obtain ⟨first,⟨oq',ahead'⟩,second,rfl,ticks,later⟩ := Prog.does_bind.mp does
    obtain ⟨third,⟨outputs₂,aheads₂⟩,fourth,rfl,others,returned⟩ := Prog.does_bind.mp later
    obtain ⟨rfl,result⟩ := returned
    obtain ⟨rfl,rfl⟩ := Prod.mk.inj result
    rw [Nat.max_eq_right from_] at ticks
    obtain ⟨low,high,moves,marked⟩ := marks_tickAhead _ i cycle _ ahead ticks
    obtain ⟨same₂,rest⟩ := ahead_tickOutputQueues connected now (Nat.succ.inj same)
      (fun other member => within other (List.mem_cons_of_mem _ member)) others
    refine ⟨congrArg Nat.succ same₂,congrArg Nat.succ rest.length,?_,?_,?_⟩
    · refine List.forall_mem_cons.mpr ⟨⟨?_,by omega⟩,rest.within⟩
      by_cases done : ahead = target + 1
      · omega
      · by_cases here : ahead ≤ cycle
        · have moved := moves here (by omega)
          omega
        · omega
    · intro k before after found found' connected'
      rw [List.append_nil,marks_append]
      cases k with
      | zero =>
        cases found
        cases found'
        rw [Nat.add_zero] at connected' ⊢
        rw [marked,if_pos ⟨rfl,connected'⟩,rest.others i (Nat.lt_succ_self i),List.append_nil]
        exact ⟨low,rfl⟩
      | succ k =>
        rw [show i + (k + 1) = i + 1 + k by omega] at connected' ⊢
        rw [marked,if_neg (by omega),List.nil_append]
        exact rest.marked k before after found found' connected'
    · intro queue before
      rw [List.append_nil,marks_append,marked,if_neg (by omega),rest.others queue (by omega)]
      rfl

/-! ### A stretch of time -/

variable {σ : Type}

/-- The output queues are ahead of the node, but not of the target. -/
structure InRange (n : BaseNode σ) : Prop where
  length : n.queues.outputs.length = n.outputQueueAhead.length
  within : ∀ ahead ∈ n.outputQueueAhead, n.currentCycle ≤ ahead ∧ ahead ≤ n.advanceTarget + 1

/-- The queues were ticked for the cycles between the old marks and the new ones. -/
structure Went (n n' : BaseNode σ) (events : List (Event nodePorts)) : Prop where
  connected : n'.connected = n.connected
  advanceTarget : n'.advanceTarget = n.advanceTarget
  length : n'.outputQueueAhead.length = n.outputQueueAhead.length
  marked : ∀ queue ahead ahead', n.outputQueueAhead[queue]? = some ahead → n'.outputQueueAhead[queue]? = some ahead' →
    n.connected (.output queue) = true → ahead ≤ ahead' ∧ marks queue events = List.range' ahead (ahead' - ahead)

section
variable {n n' n'' : BaseNode σ} {before after : List (Event nodePorts)}

theorem Went.refl (n : BaseNode σ) : Went n n [] where
  connected := rfl
  advanceTarget := rfl
  length := rfl
  marked := by
    intro queue ahead ahead' found found' _
    obtain rfl := Option.some.inj (found.symm.trans found')
    exact ⟨Nat.le_refl _,by rw [Nat.sub_self]; rfl⟩

theorem Went.trans (first : Went n n' before) (second : Went n' n'' after) : Went n n'' (before ++ after) where
  connected := second.connected.trans first.connected
  advanceTarget := second.advanceTarget.trans first.advanceTarget
  length := second.length.trans first.length
  marked := by
    intro queue ahead ahead'' found found'' connected
    have inside : queue < n'.outputQueueAhead.length := by
      rw [first.length]
      exact (List.getElem?_eq_some_iff.mp found).1
    have found' := List.getElem?_eq_getElem inside
    obtain ⟨le₁,marked₁⟩ := first.marked queue ahead _ found found' connected
    obtain ⟨le₂,marked₂⟩ := second.marked queue _ ahead'' found' found'' (by rw [first.connected]; exact connected)
    refine ⟨le₁.trans le₂,?_⟩
    rw [marks_append,marked₁,marked₂]
    have joined := @List.range'_append_1 ahead (n'.outputQueueAhead[queue] - ahead) (ahead'' - n'.outputQueueAhead[queue])
    rw [show ahead + (n'.outputQueueAhead[queue] - ahead) = n'.outputQueueAhead[queue] by omega,
      show n'.outputQueueAhead[queue] - ahead + (ahead'' - n'.outputQueueAhead[queue]) = ahead'' - ahead by omega] at joined
    exact joined

end

/-- A handler cannot add or remove output queues. -/
theorem length_outputs_runOn {α : Type} (p : Prog nodeInterface α) (qs : Queues) :
    (runOn p qs).2.outputs.length = qs.outputs.length := by
  refine @runOn_preserves α (fun after => after.outputs.length = qs.outputs.length) ?_ p qs rfl
  intro before op same
  cases op with
  | injectPackets output cycle pkts =>
    show (before.injectPackets output cycle pkts).2.outputs.length = _
    unfold Queues.injectPackets
    split
    · exact same
    · rw [← same]
      exact List.length_set
  | _ => exact same

/-- A cycle that goes well. -/
theorem went_tick {handler : Handler σ} {sortSlice : SliceSort} {n n' : BaseNode σ} {events : List (Event nodePorts)}
    (inRange : n.InRange) (now : n.currentCycle ≤ n.advanceTarget)
    (does : (n.tick handler sortSlice n.currentCycle).Does events (none,n')) :
    Went n n' events ∧ InRange { n' with currentCycle := n'.currentCycle + 1 } ∧ n'.currentCycle = n.currentCycle := by
  obtain ⟨first,⟨error,inputs,refs⟩,second,rfl,received,later⟩ := Prog.does_bind.mp does
  cases error with
  | some error =>
    obtain ⟨_,failed⟩ := later
    cases failed
  | none =>
    dsimp only at later
    rcases worked : runOn (handler n.currentCycle n.state refs) { n.queues with inputs } with ⟨⟨error,state⟩,queues⟩
    rw [worked] at later
    cases error with
    | some error =>
      obtain ⟨_,failed⟩ := later
      cases failed
    | none =>
      obtain ⟨third,⟨outputs,aheads⟩,fourth,rfl,sent,returned⟩ := Prog.does_bind.mp later
      obtain ⟨rfl,result⟩ := returned
      obtain ⟨_,rfl⟩ := Prod.mk.inj result
      have kept : queues.outputs.length = n.outputQueueAhead.length := by
        have same := length_outputs_runOn (handler n.currentCycle n.state refs) { n.queues with inputs }
        rw [worked] at same
        exact same.trans inRange.length
      obtain ⟨same,ahead⟩ := ahead_tickOutputQueues n.connected now kept inRange.within sent
      refine ⟨⟨rfl,rfl,ahead.length,?_⟩,⟨same.trans ahead.length.symm,ahead.within⟩,rfl⟩
      intro queue before after found found' connected
      rw [List.append_nil,marks_append,marks_tickInputQueues _ _ _ queue _ _ received,List.nil_append]
      have marked := ahead.marked queue before after found found'
      rw [Nat.zero_add] at marked
      exact marked connected

theorem went_advanceLoop {handler : Handler σ} {sortSlice : SliceSort} : ∀ (remaining : Nat) {n n' : BaseNode σ}
    {events : List (Event nodePorts)}, n.InRange → n.currentCycle + remaining = n.advanceTarget + 1 →
    (advanceLoop handler sortSlice remaining n).Does events (none,n') →
      Went n n' events ∧ n'.InRange ∧ n'.currentCycle = n.advanceTarget + 1
  | 0, n, n', events, inRange, until_, does => by
    obtain ⟨rfl,result⟩ := does
    obtain ⟨_,rfl⟩ := Prod.mk.inj result
    exact ⟨.refl _,inRange,until_⟩
  | remaining + 1, n, n', events, inRange, until_, does => by
    obtain ⟨first,⟨error,next⟩,second,rfl,ticked,later⟩ := Prog.does_bind.mp does
    cases error with
    | some error =>
      obtain ⟨_,failed⟩ := later
      cases failed
    | none =>
      obtain ⟨went,inRange',same⟩ := went_tick inRange (by omega) ticked
      have left : next.currentCycle + 1 + remaining = next.advanceTarget + 1 := by
        rw [same,went.advanceTarget]
        omega
      obtain ⟨went',inRange'',current⟩ := @went_advanceLoop handler sortSlice remaining
        { next with currentCycle := next.currentCycle + 1 } n' second inRange' left later
      have step : Went n { next with currentCycle := next.currentCycle + 1 } first :=
        ⟨went.connected,went.advanceTarget,went.length,went.marked⟩
      refine ⟨step.trans went',inRange'',?_⟩
      rw [current]
      exact congrArg Nat.succ went.advanceTarget

/-- A target may lie before the node's cycle, also before all cycles; then there is nothing
    to do. -/
def advanceToTarget (handler : Handler σ) (sortSlice : SliceSort) (n : BaseNode σ) (targetCycle : Int) :
    Prog nodePorts (Option String × BaseNode σ) :=
  if targetCycle < n.currentCycle then return (none,n) else n.advanceTo handler sortSlice targetCycle.toNat

/-- Injects a packet into the first output queue. -/
def injectPacket (n : BaseNode σ) (pkt : Packet) : BaseNode σ :=
  { n with queues := (n.queues.injectPackets 0 n.currentCycle [pkt]).2 }

end BaseNode

/-! ### Runs -/

/-- A node, the targets it was advanced to, and the cycles its output queues were ticked for,
    each with the target of the call that did it. -/
structure TickingSession (σ : Type) where
  node : BaseNode σ
  targets : List Int
  ticked : Nat → List (Nat × Int)

/-- The calls on a node; in an advance every operation gets any answer. -/
inductive TickingAction where
  | advanceTo (target : Int) (answers : Answers nodePorts)
  | injectPacket (pkt : Packet)

namespace TickingSession
open BaseNode
variable {σ : Type}

/-- A new node with any queues, whatever they hold. -/
def new (id : Int) (queues : Queues) (connected : NodePort → Bool) (state : σ) : TickingSession σ :=
  { node := .newBaseNode id queues connected state, targets := [], ticked := fun _ => [] }

/-- The session once the node has advanced. -/
def advanced (s : TickingSession σ) (target : Int) (node : BaseNode σ) (events : List (Event nodePorts)) : TickingSession σ where
  node := node
  targets := s.targets ++ [target]
  ticked := fun queue => s.ticked queue ++ (marks queue events).map fun cycle => (cycle,target)

/-- A call; an advance that fails is no step. -/
def step (handler : Handler σ) (sortSlice : SliceSort) (s : TickingSession σ) : TickingAction → Option (TickingSession σ)
  | .advanceTo target answers =>
    match (advanceToTarget handler sortSlice s.node target).under answers with
    | ((none,node),events) => some (s.advanced target node events)
    | _ => none
  | .injectPacket pkt => some { s with node := s.node.injectPacket pkt }

/-- What holds between the calls: all queues have been ticked for the cycles before the
    node's own, and the node is beyond all targets. -/
structure Sound (connected : NodePort → Bool) (queues : Nat) (s : TickingSession σ) : Prop where
  ports : s.node.connected = connected
  outputs : s.node.queues.outputs.length = queues
  aheads : s.node.outputQueueAhead = List.replicate queues s.node.currentCycle
  beyond : ∀ target ∈ s.targets, target < s.node.currentCycle
  ticked : ∀ queue < queues, connected (.output queue) = true →
    (s.ticked queue).map Prod.fst = List.range s.node.currentCycle
  within : ∀ queue < queues, connected (.output queue) = true → ∀ tick ∈ s.ticked queue, (tick.1 : Int) ≤ tick.2

section
variable {connected : NodePort → Bool} {queues : Nat} {s s' : TickingSession σ} {handler : Handler σ} {sortSlice : SliceSort}

/-- A target that is behind the node. -/
theorem Sound.behind {target : Int} (sound : s.Sound connected queues) (behind : target < s.node.currentCycle) :
    (s.advanced target s.node []).Sound connected queues where
  ports := sound.ports
  outputs := sound.outputs
  aheads := sound.aheads
  beyond := by
    intro other member
    rcases List.mem_append.mp member with old | new
    · exact sound.beyond other old
    · rw [List.mem_singleton.mp new]
      exact behind
  ticked := by
    intro queue inside isConnected
    show (s.ticked queue ++ []).map Prod.fst = _
    rw [List.append_nil]
    exact sound.ticked queue inside isConnected
  within := by
    intro queue inside isConnected tick member
    have old : tick ∈ s.ticked queue ++ [] := member
    rw [List.append_nil] at old
    exact sound.within queue inside isConnected tick old

theorem Sound.advanced {target : Nat} {node : BaseNode σ} {events : List (Event nodePorts)} (sound : s.Sound connected queues)
    (ahead : s.node.currentCycle ≤ target)
    (does : (advanceLoop handler sortSlice (target + 1 - s.node.currentCycle) { s.node with advanceTarget := target }).Does events
      (none,node)) : (s.advanced target node events).Sound connected queues := by
  have inRange : InRange { s.node with advanceTarget := target } := by
    refine ⟨?_,?_⟩
    · show s.node.queues.outputs.length = s.node.outputQueueAhead.length
      rw [sound.aheads,List.length_replicate,sound.outputs]
    · intro ahead' member
      have same : ahead' = s.node.currentCycle := by
        rw [show ({ s.node with advanceTarget := target } : BaseNode σ).outputQueueAhead = _ from sound.aheads] at member
        exact List.eq_of_mem_replicate member
      show s.node.currentCycle ≤ ahead' ∧ ahead' ≤ target + 1
      omega
  obtain ⟨went,inRange',current⟩ := went_advanceLoop _ inRange
    (show s.node.currentCycle + (target + 1 - s.node.currentCycle) = target + 1 by omega) does
  have current : node.currentCycle = target + 1 := current
  have atTarget : node.advanceTarget = target := went.advanceTarget
  have length : node.outputQueueAhead.length = queues := by
    rw [went.length]
    show s.node.outputQueueAhead.length = queues
    rw [sound.aheads,List.length_replicate]
  have aheads : node.outputQueueAhead = List.replicate queues (target + 1) := by
    refine List.eq_replicate_iff.mpr ⟨length,fun ahead' member => ?_⟩
    have between := inRange'.within ahead' member
    rw [current,atTarget] at between
    omega
  have marked : ∀ queue < queues, connected (.output queue) = true →
      marks queue events = List.range' s.node.currentCycle (target + 1 - s.node.currentCycle) := by
    intro queue inside isConnected
    have before : s.node.outputQueueAhead[queue]? = some s.node.currentCycle := by
      rw [sound.aheads,List.getElem?_replicate,if_pos inside]
    have after : node.outputQueueAhead[queue]? = some (target + 1) := by
      rw [aheads,List.getElem?_replicate,if_pos inside]
    exact (went.marked queue _ _ before after (by rw [← sound.ports] at isConnected; exact isConnected)).2
  constructor
  case ports => exact went.connected.trans sound.ports
  case outputs => exact inRange'.length.trans length
  case aheads => 
    show node.outputQueueAhead = List.replicate queues node.currentCycle
    rw [aheads,current]
  case beyond =>
    intro other member
    show other < node.currentCycle
    rw [current]
    rcases List.mem_append.mp member with old | new
    · have before := sound.beyond other old
      omega
    · have here := List.mem_singleton.mp new
      omega
  case ticked =>
    intro queue inside isConnected
    show (s.ticked queue ++ (marks queue events).map fun cycle => (cycle,(target : Int))).map Prod.fst = List.range node.currentCycle
    rw [List.map_append,sound.ticked queue inside isConnected,List.map_map]
    show List.range s.node.currentCycle ++ (marks queue events).map (fun cycle => cycle) = _
    rw [List.map_id_fun',id_eq,marked queue inside isConnected,current,List.range_eq_range',List.range_eq_range']
    have joined := @List.range'_append_1 0 s.node.currentCycle (target + 1 - s.node.currentCycle)
    rw [Nat.zero_add,show s.node.currentCycle + (target + 1 - s.node.currentCycle) = target + 1 by omega] at joined
    exact joined
  case within =>
    intro queue inside isConnected tick member
    rcases List.mem_append.mp member with old | new
    · exact sound.within queue inside isConnected tick old
    · obtain ⟨cycle,isMarked,rfl⟩ := List.mem_map.mp new
      rw [marked queue inside isConnected,List.mem_range'_1] at isMarked
      show (cycle : Int) ≤ target
      omega

theorem Sound.injectPacket (sound : s.Sound connected queues) (pkt : Packet) :
    Sound connected queues { s with node := s.node.injectPacket pkt } where
  ports := sound.ports
  outputs := by
    have same := length_outputs_runOn (injectPackets 0 s.node.currentCycle [pkt]) s.node.queues
    rw [runOn_injectPackets] at same
    exact same.trans sound.outputs
  aheads := sound.aheads
  beyond := sound.beyond
  ticked := sound.ticked
  within := sound.within

theorem Sound.step {action : TickingAction} (sound : s.Sound connected queues)
    (stepped : s.step handler sortSlice action = some s') : s'.Sound connected queues := by
  cases action with
  | injectPacket pkt =>
    rw [← Option.some.inj stepped]
    exact sound.injectPacket pkt
  | advanceTo target answers =>
    have does := Prog.does_under (advanceToTarget handler sortSlice s.node target) answers
    rw [TickingSession.step] at stepped
    split at stepped
    · next node events ran =>
      rw [ran] at does
      rw [← Option.some.inj stepped]
      unfold advanceToTarget at does
      split at does
      · next behind =>
        obtain ⟨rfl,result⟩ := does
        obtain ⟨_,rfl⟩ := Prod.mk.inj result
        exact sound.behind behind
      · next ahead =>
        obtain ⟨cycle,rfl⟩ : ∃ cycle : Nat, target = cycle := ⟨target.toNat,by omega⟩
        rw [Int.toNat_natCast,advanceTo,if_neg (by omega)] at does
        exact sound.advanced (by omega) does
    · cases stepped

end

/-- Whatever the targets, the packets in the queues, the handler and the answers at the
    ports: as long as nothing fails, each output queue with a port is ticked in the cycles
    0, 1, 2, ..., up to the largest target, and never beyond the target of the call. -/
theorem ticks_every_cycle (handler : Handler σ) (sortSlice : SliceSort) (id : Int) (queues : Queues) (connected : NodePort → Bool)
    (state : σ) (s : TickingSession σ) (reached : Reachable (step handler sortSlice) (new id queues connected state) s)
    (queue : Nat) (isQueue : queue < queues.outputs.length) (isConnected : connected (.output queue) = true) :
    (s.ticked queue).map Prod.fst = List.range (s.ticked queue).length ∧
    (∀ target ∈ s.targets, ∀ cycle : Nat, (cycle : Int) ≤ target → cycle ∈ (s.ticked queue).map Prod.fst) ∧
    ∀ tick ∈ s.ticked queue, (tick.1 : Int) ≤ tick.2 := by
  have sound : s.Sound connected queues.outputs.length := by
    refine reached.invariant ?_ fun _ now _ stepped => now.step stepped
    exact ⟨rfl,rfl,rfl,fun _ member => absurd member List.not_mem_nil,fun _ _ _ => rfl,
      fun _ _ _ _ member => absurd member List.not_mem_nil⟩
  have all := sound.ticked queue isQueue isConnected
  have count : (s.ticked queue).length = s.node.currentCycle := by
    have lengths := congrArg List.length all
    rw [List.length_map,List.length_range] at lengths
    exact lengths
  refine ⟨?_,?_,sound.within queue isQueue isConnected⟩
  · rw [all,count]
  · intro target member cycle upTo
    have before := sound.beyond target member
    rw [all,List.mem_range]
    omega

/-- A receiver that is always ready. -/
def welcoming : Answers nodePorts := fun _ op =>
  match op with
  | (_,.isReady _) => true
  | (_,.retrieve _) => []
  | (_,.drainChannel) | (_,.waitDone _) | (_,.updateReady _ _) | (_,.send _) | (_,.markDone _) => ()

/-- A queue of two packets runs ahead of its node, and a later target finds it there. -/
theorem ticks_every_cycle_ahead : ∃ s : TickingSession Unit, s.ticked 0 = [(0,2),(1,2),(2,2),(3,3)] ∧
    (s.ticked 0).map Prod.fst = List.range (s.ticked 0).length := by
  let pkt (data : UInt64) : Packet := { sourceID := 0, targetID := 1, data }
  let oq := ((OutputQueue.newOutputQueue 4 1 (by decide)).injectPackets 0 [pkt 1,pkt 2]).2
  let handler : Handler Unit := fun _ _ _ => return (none,())
  let actions : List TickingAction :=
    [.advanceTo 2 welcoming,.advanceTo 1 welcoming,.injectPacket (pkt 3),.advanceTo 3 welcoming]
  have ends : (runActions (step handler stableSort) (fun _ _ => True) actions (new 0 ⟨[],[oq]⟩ (fun _ => true) ())).map
      (fun s => s.ticked 0) = some [(0,2),(1,2),(2,2),(3,3)] := by decide +kernel
  obtain ⟨s,ran,ticked⟩ := Option.map_eq_some_iff.mp ends
  exact ⟨s,ticked,(ticks_every_cycle handler stableSort 0 ⟨[],[oq]⟩ (fun _ => true) () s (reaches_runActions _ ran) 0
    (by decide) rfl).1⟩

end TickingSession
end FlowSim.Node
