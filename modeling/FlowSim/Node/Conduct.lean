import FlowSim.AheadPort.Wiring
import FlowSim.Queue.Credit
import FlowSim.Node.BaseNode

/-!
What a node does at its ports, whatever its handler does. At its input ports it receives the
cycles in order and decides them in order; at its output ports, also when it ticks ahead, it
stamps every packet with a cycle it has still to mark done. A call of `AdvanceTo` that does
not fail leaves the node standing for the next one, all cycles up to the target marked done
(`keeps_advanceTo`).
-/
namespace FlowSim.Node
open FlowSim.Lib FlowSim.AheadPort FlowSim.Queue
set_option linter.unusedSimpArgs false

theorem atPort_eq {α : Type} (port : NodePort) (p : Prog portInterface α) : atPort port p = p.inside port := by
  induction p with
  | done value => rfl
  | call op next ih =>
    rw [atPort,Prog.inside]
    congr 1
    funext answer
    exact ih answer

/-! ### Queues at their ports -/

/-- Sending in the next cycle to be marked done. -/
theorem keeps_sendUpTo (cycle : Nat) : ∀ (left : Nat) (oq : OutputQueue) {s : EndRecord}, s.marked + 1 = cycle →
    Keeps (sending PromptMay) (oq.sendUpTo cycle left) (fun s' _ => s'.marked = s.marked) s
  | 0, _, _, _ => rfl
  | left + 1, oq, s, next => by
    have asked : ∀ ready : Bool, (s.grow (.isReady cycle) ready).marked = s.marked := by
      intro ready
      cases ready
      · rfl
      · rfl
    rw [OutputQueue.sendUpTo]
    split_ifs with some_left
    · refine ⟨next.ge,fun ready _ => ?_⟩
      cases ready with
      | true =>
        have sent := marked_send (s.grow (.isReady cycle) true) ⟨cycle,(oq.front some_left).packet⟩
        rw [asked] at sent
        refine ⟨?_,fun _ _ => ?_⟩
        · show (s.grow (.isReady cycle) true).marked < cycle
          rw [asked]
          omega
        · refine (keeps_sendUpTo cycle left _ ?_).mono ?_
          · exact (congrArg (· + 1) sent).trans next
          · exact fun s' _ same => same.trans sent
      | false => exact asked false
    · rfl

theorem keeps_tickOutputQueue (oq : OutputQueue) {cycle : Nat} {s : EndRecord} (next : s.marked + 1 = cycle) :
    Keeps (sending PromptMay) (oq.tick cycle) (fun s' _ => s'.marked = cycle) s := by
  refine (keeps_sendUpTo cycle oq.outBandwidth oq next).bind ?_
  intro s' oq' same
  have upTo : s'.marked < cycle := by omega
  exact ⟨upTo,fun _ _ => rfl⟩

/-- Every input queue has got roomier, if it has changed. -/
def Queues.Roomier (qs qs' : Queues) : Prop :=
  ∀ (i : Nat) (iq' : InputQueue), qs'.inputs[i]? = some iq' → ∃ iq, qs.inputs[i]? = some iq ∧ InputQueue.Roomier iq iq'

theorem Queues.Roomier.modify {qs qs' : Queues} (roomier : Queues.Roomier qs qs') (queue : Nat) {f : InputQueue → InputQueue}
    (each : ∀ iq, InputQueue.Roomier iq (f iq)) : Queues.Roomier qs { qs' with inputs := qs'.inputs.modify queue f } := by
  intro i iq' found
  have found : (qs'.inputs.modify queue f)[i]? = some iq' := found
  rw [List.getElem?_modify] at found
  obtain ⟨iq₁,found₁,rfl⟩ := Option.map_eq_some_iff.mp found
  obtain ⟨iq,first,now⟩ := roomier i iq₁ found₁
  refine ⟨iq,first,?_⟩
  split_ifs
  · exact now.trans (each iq₁)
  · exact now

/-- Whatever a handler does, the input queues only get roomier. -/
theorem roomier_runOn {α : Type} (p : Prog nodeInterface α) (qs : Queues) : Queues.Roomier qs (runOn p qs).2 := by
  refine runOn_preserves (P := Queues.Roomier qs) ?_ p fun i iq' found => ⟨iq',found,.refl iq'⟩
  intro qs' op roomier
  cases op with
  | queues => exact roomier
  | free queue slot => exact roomier.modify queue fun iq => InputQueue.roomier_free iq slot
  | block queue slot reason => exact roomier.modify queue fun iq => InputQueue.roomier_block iq slot reason
  | injectPackets output cycle pkts =>
    have same : (qs'.injectPackets output cycle pkts).2.inputs = qs'.inputs := by
      unfold Queues.injectPackets
      split <;> rfl
    intro i iq' found
    refine roomier i iq' ?_
    rw [← found]
    exact congrArg (fun inputs => inputs[i]?) same.symm

/-- Whatever a handler does, a node has the queues that it has. -/
theorem lengths_runOn {α : Type} (p : Prog nodeInterface α) (qs : Queues) :
    (runOn p qs).2.inputs.length = qs.inputs.length ∧ (runOn p qs).2.outputs.length = qs.outputs.length := by
  refine runOn_preserves (P := fun qs' => qs'.inputs.length = qs.inputs.length ∧ qs'.outputs.length = qs.outputs.length)
    ?_ p ⟨rfl,rfl⟩
  intro qs' op same
  cases op with
  | queues => exact same
  | free queue slot => exact ⟨(List.length_modify ..).trans same.1,same.2⟩
  | block queue slot reason => exact ⟨(List.length_modify ..).trans same.1,same.2⟩
  | injectPackets output cycle pkts =>
    have lengths : (qs'.injectPackets output cycle pkts).2.inputs.length = qs'.inputs.length ∧
        (qs'.injectPackets output cycle pkts).2.outputs.length = qs'.outputs.length := by
      unfold Queues.injectPackets
      split
      · exact ⟨rfl,rfl⟩
      · exact ⟨rfl,List.length_set ..⟩
    exact ⟨lengths.1.trans same.1,lengths.2.trans same.2⟩

/-! ### A node at its ports -/

/-- What a node is at each of its ports. -/
def nodeRole : NodePort → Discipline portInterface EndRecord
  | .input _ => receiving none
  | .output _ => sending PromptMay

/-- A node works at its connected ports. -/
abbrev nodeConduct (connected : NodePort → Bool) : Discipline nodePorts (NodePort → EndRecord) :=
  Discipline.each (fun port => connected port = true) nodeRole

namespace BaseNode
variable {σ : Type} {connected : NodePort → Bool} {g : NodePort → EndRecord} {i cycle : Nat}

/-- The connected input queues from index `i` on stand before the tick of the cycle. -/
def InputsStand (connected : NodePort → Bool) (i cycle : Nat) (inputs : List InputQueue) (g : NodePort → EndRecord) : Prop :=
  ∀ (k : Nat) iq, inputs[k]? = some iq → connected (.input (i + k)) = true →
    InputQueue.Standing none iq cycle (g (.input (i + k)))

/-- At the connected output ports from index `i` on the cycles before the tracker were marked,
    and the trackers are between the node's cycle and a limit. -/
def OutputsStand (connected : NodePort → Bool) (i cycle limit : Nat) (aheads : List Nat) (g : NodePort → EndRecord) : Prop :=
  ∀ (k ahead : Nat), aheads[k]? = some ahead → (cycle ≤ ahead ∧ ahead ≤ limit) ∧
    (connected (.output (i + k)) = true → (g (.output (i + k))).marked + 1 = ahead)

/-- The port belongs to a queue. -/
def HasQueue (n : BaseNode σ) : NodePort → Prop
  | .input queue => queue < n.queues.inputs.length
  | .output queue => queue < n.queues.outputs.length

/-- What holds of a node between two cycles. -/
structure Standing (n : BaseNode σ) (limit : Nat) (g : NodePort → EndRecord) : Prop where
  inputs : InputsStand n.connected 0 n.currentCycle n.queues.inputs g
  outputs : OutputsStand n.connected 0 n.currentCycle limit n.outputQueueAhead g
  sized : n.outputQueueAhead.length = n.queues.outputs.length
  hasQueue : ∀ port, n.connected port = true → n.HasQueue port

theorem keeps_tickInput (iq : InputQueue)
    (stands : connected (.input i) = true → InputQueue.Standing none iq cycle (g (.input i))) :
    Keeps (nodeConduct connected) (tickInput (connected (.input i)) i cycle iq)
      (fun g' result => (result.1 = none → connected (.input i) = true →
        InputQueue.Standing none result.2 (cycle + 1) (g' (.input i))) ∧ ∀ p, p ≠ .input i → g' p = g p) g := by
  by_cases here : connected (.input i) = true
  · rw [tickInput,if_pos here,atPort_eq]
    refine (keeps_inside (p := .input i) (D := nodeRole) here (InputQueue.keeps_tick (stands here))).mono ?_
    rintro g' result ⟨⟨pkts,ticked⟩,others⟩
    exact ⟨fun fine _ => ticked.standing fine,others⟩
  · rw [tickInput,if_neg here]
    exact ⟨fun _ connected_ => absurd connected_ here,fun _ _ => rfl⟩

theorem keeps_tickInputQueues (sortSlice : SliceSort) (connected : NodePort → Bool) (cycle : Nat) :
    ∀ (inputs : List InputQueue) (i : Nat) {g : NodePort → EndRecord}, InputsStand connected i cycle inputs g →
      Keeps (nodeConduct connected) (tickInputQueues sortSlice connected cycle i inputs)
        (fun g' result => (result.1 = none → InputsStand connected i (cycle + 1) result.2.1 g') ∧
          result.2.1.length = inputs.length ∧ ∀ p, (∀ k, i ≤ k → p ≠ .input k) → g' p = g p) g
  | [], i, g, _ => ⟨fun _ k iq found => by simp at found,rfl,fun _ _ => rfl⟩
  | iq :: rest, i, g, stand => by
    rw [tickInputQueues]
    refine (keeps_tickInput iq (stand 0 iq rfl)).bind ?_
    rintro g₁ ⟨error | error,iq'⟩ ⟨first,others⟩
    · have after : InputsStand connected (i + 1) cycle rest g₁ := by
        intro k found at_k here
        rw [others _ (by rw [ne_eq,NodePort.input.injEq]; omega)]
        have before := stand (k + 1) found at_k
        rw [show i + (k + 1) = i + 1 + k by omega] at before
        exact before here
      refine (keeps_tickInputQueues sortSlice connected cycle rest (i + 1) after).bind ?_
      rintro g₂ ⟨error,rest',refs⟩ ⟨later,length,others'⟩
      refine ⟨fun fine k found at_k here => ?_,congrArg Nat.succ length,fun p other => ?_⟩
      · cases k with
        | zero =>
          obtain rfl : iq' = found := Option.some.inj at_k
          have same : g₂ (.input (i + 0)) = g₁ (.input i) := others' _ fun k later => by
            rw [ne_eq,NodePort.input.injEq]
            omega
          rw [same]
          exact first rfl here
        | succ k =>
          rw [show i + (k + 1) = i + 1 + k by omega] at here ⊢
          exact later fine k found at_k here
      · rw [others' p fun k later => other k (by omega)]
        exact others p (other i (Nat.le_refl i))
    · refine ⟨fun fine => ?_,rfl,fun p other => others p (other i (Nat.le_refl i))⟩
      cases fine

theorem keeps_tickOutput (oq : OutputQueue) {curr : Nat}
    (next : connected (.output i) = true → (g (.output i)).marked + 1 = curr) :
    Keeps (nodeConduct connected) (tickOutput (connected (.output i)) i curr oq)
      (fun g' _ => (connected (.output i) = true → (g' (.output i)).marked = curr) ∧ ∀ p, p ≠ .output i → g' p = g p) g := by
  by_cases here : connected (.output i) = true
  · rw [tickOutput,if_pos here,atPort_eq]
    refine (keeps_inside (p := .output i) (D := nodeRole) here (keeps_tickOutputQueue oq (next here))).mono ?_
    rintro g' _ ⟨marked,others⟩
    exact ⟨fun _ => marked,others⟩
  · rw [tickOutput,if_neg here]
    exact ⟨fun connected_ => absurd connected_ here,fun _ _ => rfl⟩

/-- Also the cycles that are ticked ahead are marked in order, up to the target. -/
theorem keeps_tickAhead (connected : NodePort → Bool) (i cycle : Nat) : ∀ (remaining curr : Nat) (oq : OutputQueue)
    {g : NodePort → EndRecord}, (connected (.output i) = true → (g (.output i)).marked + 1 = curr) →
      Keeps (nodeConduct connected) (tickAhead (connected (.output i)) i cycle remaining curr curr oq)
        (fun g' result => (connected (.output i) = true → (g' (.output i)).marked + 1 = result.2) ∧
          (curr ≤ result.2 ∧ result.2 ≤ curr + remaining) ∧ (curr = cycle → 0 < remaining → cycle < result.2) ∧
          ∀ p, p ≠ .output i → g' p = g p) g
  | 0, curr, _, _, marked => ⟨marked,⟨le_refl curr,le_refl curr⟩,fun _ none_left => absurd none_left (Nat.lt_irrefl 0),fun _ _ => rfl⟩
  | remaining + 1, curr, oq, g, marked => by
    rw [tickAhead]
    split_ifs with stops
    · exact ⟨marked,⟨le_refl curr,Nat.le_add_right ..⟩,fun same _ => absurd stops.1 (by omega),fun _ _ => rfl⟩
    · refine (keeps_tickOutput oq marked).bind ?_
      rintro g₁ oq₁ ⟨ticked,others⟩
      refine (keeps_tickAhead connected i cycle remaining (curr + 1) oq₁ ?_).mono ?_
      · intro here
        have now := ticked here
        omega
      · rintro g₂ result ⟨later,bounds,_,others'⟩
        refine ⟨later,by omega,fun same _ => by omega,fun p other => (others' p other).trans (others p other)⟩

theorem keeps_tickOutputQueues (connected : NodePort → Bool) (cycle advanceTarget : Nat) (inTime : cycle ≤ advanceTarget) :
    ∀ (outputs : List OutputQueue) (aheads : List Nat) (i : Nat) {g : NodePort → EndRecord},
      aheads.length = outputs.length → OutputsStand connected i cycle (advanceTarget + 1) aheads g →
      Keeps (nodeConduct connected) (tickOutputQueues connected cycle advanceTarget i outputs aheads)
        (fun g' result => OutputsStand connected i (cycle + 1) (advanceTarget + 1) result.2 g' ∧
          (result.1.length = outputs.length ∧ result.2.length = outputs.length) ∧
          ∀ p, (∀ k, i ≤ k → p ≠ .output k) → g' p = g p) g
  | [], aheads, i, g, sized, stand => by
    obtain rfl := List.length_eq_zero_iff.mp sized
    rw [tickOutputQueues]
    · exact ⟨fun k ahead found => by simp at found,⟨rfl,rfl⟩,fun _ _ => rfl⟩
    · simp
  | oq :: outputs, [], i, g, sized, stand => by
    simp at sized
  | oq :: outputs, ahead :: aheads, i, g, sized, stand => by
    have bounds := (stand 0 ahead rfl).1
    rw [tickOutputQueues]
    dsimp only
    rw [max_eq_right bounds.1]
    refine (keeps_tickAhead connected i cycle _ ahead oq fun here => ?_).bind ?_
    · have now := (stand 0 ahead rfl).2 here
      rwa [Nat.add_zero] at now
    · rintro g₁ ⟨oq₁,ahead₁⟩ ⟨first,between,beyond,others⟩
      have after : OutputsStand connected (i + 1) cycle (advanceTarget + 1) aheads g₁ := by
        intro k found at_k
        obtain ⟨inside,before⟩ := stand (k + 1) found at_k
        refine ⟨inside,fun here => ?_⟩
        rw [others _ (by rw [ne_eq,NodePort.output.injEq]; omega)]
        rw [show i + (k + 1) = i + 1 + k by omega] at before
        exact before here
      refine (keeps_tickOutputQueues connected cycle advanceTarget inTime outputs aheads (i + 1) (by simpa using sized)
        after).bind ?_
      rintro g₂ ⟨outputs₂,aheads₂⟩ ⟨later,lengths,others'⟩
      refine ⟨fun k found at_k => ?_,⟨congrArg Nat.succ lengths.1,congrArg Nat.succ lengths.2⟩,fun p other => ?_⟩
      · cases k with
        | zero =>
          obtain rfl : ahead₁ = found := Option.some.inj at_k
          have same : g₂ (.output (i + 0)) = g₁ (.output i) := others' _ fun k later => by
            rw [ne_eq,NodePort.output.injEq]
            omega
          rw [same]
          exact ⟨by omega,first⟩
        | succ k =>
          rw [show i + (k + 1) = i + 1 + k by omega]
          exact later k found at_k
      · rw [others' p fun k later => other k (by omega)]
        exact others p (other i (Nat.le_refl i))

/-- What a tick leaves, unless it fails. -/
theorem keeps_tick (handler : Handler σ) (sortSlice : SliceSort) {n : BaseNode σ} (inTime : n.currentCycle ≤ n.advanceTarget)
    (standing : n.Standing (n.advanceTarget + 1) g) :
    Keeps (nodeConduct n.connected) (n.tick handler sortSlice n.currentCycle)
      (fun g' result => (result.2.connected = n.connected ∧ result.2.currentCycle = n.currentCycle ∧
          result.2.advanceTarget = n.advanceTarget) ∧
        (result.1 = none → Standing { result.2 with currentCycle := n.currentCycle + 1 } (n.advanceTarget + 1) g')) g := by
  rw [tick]
  refine (keeps_tickInputQueues sortSlice n.connected n.currentCycle n.queues.inputs 0 standing.inputs).bind ?_
  rintro g₁ ⟨error | error,inputs,refs⟩ ⟨received,length,others⟩
  · dsimp only
    have lengths := lengths_runOn (handler n.currentCycle n.state refs) { n.queues with inputs }
    have roomier := roomier_runOn (handler n.currentCycle n.state refs) { n.queues with inputs }
    rcases worked : runOn (handler n.currentCycle n.state refs) { n.queues with inputs } with ⟨⟨error | error,state⟩,queues⟩
    · rw [worked] at roomier lengths
      have outputs : OutputsStand n.connected 0 n.currentCycle (n.advanceTarget + 1) n.outputQueueAhead g₁ := by
        intro k ahead found
        rw [others _ (by simp)]
        exact standing.outputs k ahead found
      refine (keeps_tickOutputQueues n.connected n.currentCycle n.advanceTarget inTime queues.outputs n.outputQueueAhead 0
        (standing.sized.trans lengths.2.symm) outputs).bind ?_
      rintro g₂ ⟨outputs₂,aheads⟩ ⟨sent,sized,others'⟩
      refine ⟨⟨rfl,rfl,rfl⟩,fun _ => ⟨fun k iq' found here => ?_,sent,sized.2.trans sized.1.symm,fun port here => ?_⟩⟩
      · obtain ⟨iq,before,roomier⟩ := roomier k iq' found
        rw [others' _ (by simp)]
        exact (received rfl k iq before here).roomier roomier
      · have before := standing.hasQueue port here
        cases port with
        | input queue => exact before.trans_eq (lengths.1.trans length).symm
        | output queue => exact before.trans_eq (sized.1.trans lengths.2).symm
    · refine ⟨⟨rfl,rfl,rfl⟩,fun fine => ?_⟩
      cases fine
  · refine ⟨⟨rfl,rfl,rfl⟩,fun fine => ?_⟩
    cases fine

theorem keeps_advanceLoop (handler : Handler σ) (sortSlice : SliceSort) : ∀ (remaining : Nat) {n : BaseNode σ}
    {g : NodePort → EndRecord}, n.currentCycle + remaining = n.advanceTarget + 1 → n.Standing (n.advanceTarget + 1) g →
      Keeps (nodeConduct n.connected) (advanceLoop handler sortSlice remaining n)
        (fun g' result => result.2.connected = n.connected ∧ (result.1 = none →
          result.2.currentCycle = n.advanceTarget + 1 ∧ result.2.Standing (n.advanceTarget + 1) g')) g
  | 0, _, _, atEnd, standing => ⟨rfl,fun _ => ⟨atEnd,standing⟩⟩
  | remaining + 1, n, g, atEnd, standing => by
    rw [advanceLoop]
    refine (keeps_tick handler sortSlice (by omega) standing).bind ?_
    rintro g₁ ⟨error | error,n₁⟩ ⟨⟨connected,current,target⟩,ticked⟩
    · have after := ticked rfl
      have current : n₁.currentCycle = n.currentCycle := current
      have connected : n₁.connected = n.connected := connected
      have target : n₁.advanceTarget = n.advanceTarget := target
      dsimp only
      rw [← current,← target] at after
      rw [← connected,← target]
      refine keeps_advanceLoop handler sortSlice remaining ?_ after
      show n₁.currentCycle + 1 + remaining = n₁.advanceTarget + 1
      omega
    · refine ⟨connected,fun fine => ?_⟩
      cases fine

/-- A node that advances does at its ports what it may, and if it does not fail it stands again,
    at the cycle after the target. -/
theorem keeps_advanceTo (handler : Handler σ) (sortSlice : SliceSort) (targetCycle : Nat) {n : BaseNode σ}
    (standing : n.Standing n.currentCycle g) : Keeps (nodeConduct n.connected) (n.advanceTo handler sortSlice targetCycle)
      (fun g' result => result.2.connected = n.connected ∧ (result.1 = none →
        result.2.currentCycle = max n.currentCycle (targetCycle + 1) ∧ result.2.Standing result.2.currentCycle g')) g := by
  rw [advanceTo]
  split_ifs with passed
  · exact ⟨rfl,fun _ => ⟨(max_eq_left passed).symm,standing⟩⟩
  · have upTo : OutputsStand n.connected 0 n.currentCycle (targetCycle + 1) n.outputQueueAhead g := by
      intro k ahead found
      obtain ⟨bounds,marked⟩ := standing.outputs k ahead found
      exact ⟨by omega,marked⟩
    refine (keeps_advanceLoop handler sortSlice _ (n := { n with advanceTarget := targetCycle })
      (show n.currentCycle + (targetCycle + 1 - n.currentCycle) = targetCycle + 1 by omega)
      ⟨standing.inputs,upTo,standing.sized,standing.hasQueue⟩).mono ?_
    rintro g' result ⟨connected,after⟩
    refine ⟨connected,fun fine => ?_⟩
    obtain ⟨current,standing'⟩ := after fine
    have current : result.2.currentCycle = targetCycle + 1 := current
    exact ⟨by omega,by rw [current]; exact standing'⟩

end BaseNode
end FlowSim.Node
