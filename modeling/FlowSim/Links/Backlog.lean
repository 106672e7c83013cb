import FlowSim.Links.Safety

/-!
How much a buffered link can hold. What the link holds and what may still arrive for the
cycles it has signalled ready is a potential that no tick raises above `latency + 2` times
the bandwidth (`Bounded.tick`).
-/
namespace FlowSim.Links
open FlowSim.Lib FlowSim.AheadPort
set_option linter.unusedSimpArgs false

namespace LinkSession
open BufferedLinkType

/-- An upstream component that sends at most the bandwidth for a cycle it has still to mark
    done, and only for cycles signalled ready. -/
def Obedient (bandwidth : Nat) (s : LinkSession BufferedLinkType) : LinkAction → Prop
  | .upstream (.send pwc) => s.world.up.done < pwc.cycle ∧ (s.world.up.inFlight pwc.cycle).length < bandwidth ∧
      s.world.signalled pwc.cycle = some true
  | .upstream (.markDone cycle) => s.world.up.done < cycle
  | _ => True

instance (bandwidth : Nat) (s : LinkSession BufferedLinkType) : DecidablePred (s.Obedient bandwidth) := by
  intro action
  unfold Obedient
  split <;> infer_instance

/-- The packets in the slots and those that wait. -/
def held (s : LinkSession BufferedLinkType) : Nat :=
  (s.link.state.slots.map List.length).sum + s.link.state.pendingPackets.length

/-- The most that can arrive for a cycle. -/
def allowance (bandwidth : Nat) (signalled : Nat → Option Bool) (cycle : Nat) : Nat :=
  if signalled cycle = some true then bandwidth else 0

/-- The first cycle whose packets the link has not received. -/
def unread (s : LinkSession BufferedLinkType) : Nat := s.link.currentCycle - s.link.latency

/-- The most that can still arrive for the cycles that are decided. -/
def expected (bandwidth : Nat) (s : LinkSession BufferedLinkType) : Nat :=
  ∑ j ∈ Finset.range (s.link.latency + 1), allowance bandwidth s.world.signalled (s.unread + j)

/-- What holds of a link whose upstream component is obedient. -/
structure Bounded (bandwidth : Nat) (s : LinkSession BufferedLinkType) : Prop where
  sound : s.Sound
  wide : s.link.state.bandwidth = bandwidth
  few : ∀ k, (s.world.up.inFlight k).length ≤ allowance bandwidth s.world.signalled k
  later : ∀ k, s.world.up.inFlight k ≠ [] → s.unread ≤ k
  told : ∀ k, s.world.signalled k ≠ none → k ≤ max s.link.latency s.link.currentCycle
  marked : ∀ k < s.unread, (k : Int) ≤ s.world.up.done
  potential : s.held + s.expected bandwidth ≤ (s.link.latency + 2) * bandwidth

section
variable {bandwidth : Nat} {s s' : LinkSession BufferedLinkType}

theorem allowance_le (bandwidth : Nat) (signalled : Nat → Option Bool) (cycle : Nat) :
    allowance bandwidth signalled cycle ≤ bandwidth := by
  unfold allowance
  split
  · exact Nat.le_refl _
  · exact Nat.zero_le _

theorem expected_le (bandwidth : Nat) (s : LinkSession BufferedLinkType) :
    s.expected bandwidth ≤ (s.link.latency + 1) * bandwidth := by
  calc s.expected bandwidth
    _ ≤ ∑ _j ∈ Finset.range (s.link.latency + 1), bandwidth := Finset.sum_le_sum fun j _ => allowance_le ..
    _ = (s.link.latency + 1) * bandwidth := by rw [Finset.sum_const,Finset.card_range,smul_eq_mul]

/-- When one list alone may hold something, it holds everything. -/
theorem sum_length_alone {α : Type} : ∀ {lists : List (List α)} {i : Nat}, (∀ j, j ≠ i → lists.getD j [] = []) →
    (lists.map List.length).sum = (lists.getD i []).length
  | [], _, _ => rfl
  | list :: rest, 0, alone => by
    have others : (rest.map List.length).sum = (rest.getD rest.length []).length := by
      refine sum_length_alone fun j _ => ?_
      exact alone (j + 1) (Nat.succ_ne_zero j)
    have outside : rest.getD rest.length [] = [] := List.getD_eq_default _ _ (Nat.le_refl _)
    rw [List.map_cons,List.sum_cons,others,outside]
    rfl
  | list :: rest, i + 1, alone => by
    have others : (rest.map List.length).sum = (rest.getD i []).length :=
      sum_length_alone fun j other => alone (j + 1) (by omega)
    have first : list = [] := alone 0 (Nat.succ_ne_zero i).symm
    rw [List.map_cons,List.sum_cons,others,first]
    exact Nat.zero_add _

theorem Sound.held_eq (sound : s.Sound) :
    s.held = (s.link.state.getSlot s.link.currentCycle).length + s.link.state.pendingPackets.length := by
  unfold held
  rw [sum_length_alone sound.alone]
  rfl

/-- Everything on its way is among what is expected. -/
theorem Bounded.inFlight_le (bounded : Bounded bandwidth s) (n : Nat) :
    ∑ k ∈ Finset.range n, (s.world.up.inFlight k).length ≤ s.expected bandwidth := by
  have inside : ∀ k ∈ Finset.range n, (s.world.up.inFlight k).length ≠ 0 →
      k ∈ Finset.Ico s.unread (s.unread + (s.link.latency + 1)) := by
    intro k _ some_
    have few := bounded.few k
    have nonempty : s.world.up.inFlight k ≠ [] := fun nothing => some_ (by rw [nothing]; rfl)
    have late := bounded.later k nonempty
    have known : s.world.signalled k ≠ none := by
      intro unknown
      rw [allowance,unknown,if_neg (by simp)] at few
      omega
    have early := bounded.told k known
    rw [Finset.mem_Ico]
    refine ⟨late,?_⟩
    unfold unread
    omega
  calc ∑ k ∈ Finset.range n, (s.world.up.inFlight k).length
    _ ≤ ∑ k ∈ Finset.Ico s.unread (s.unread + (s.link.latency + 1)), (s.world.up.inFlight k).length :=
        Finset.sum_le_sum_of_ne_zero inside
    _ ≤ ∑ k ∈ Finset.Ico s.unread (s.unread + (s.link.latency + 1)), allowance bandwidth s.world.signalled k :=
        Finset.sum_le_sum fun k _ => bounded.few k
    _ = s.expected bandwidth := by
        rw [Finset.sum_Ico_eq_sum_range,Nat.add_sub_cancel_left]
        rfl

theorem bounded_connected {latency : Nat} (pos : 0 < latency) (bandwidthPos : 0 < bandwidth) :
    Bounded bandwidth (connected latency bandwidth pos bandwidthPos) where
  sound := sound_connected pos bandwidthPos
  wide := rfl
  few := fun _ => Nat.zero_le _
  later := fun _ some_ => absurd rfl some_
  told := by
    intro k (known : (if k < latency + 1 then some true else none) ≠ none)
    show k ≤ max latency 0
    by_contra late
    rw [if_neg (by omega)] at known
    exact known rfl
  marked := by
    intro k (early : k < 0 - latency)
    omega
  potential := by
    have nothing : (connected latency bandwidth pos bandwidthPos).held = 0 := by
      rw [(sound_connected pos bandwidthPos).held_eq]
      exact congrArg List.length (getD_new pos bandwidthPos _)
    rw [nothing,Nat.zero_add]
    exact le_trans (expected_le bandwidth _) (Nat.mul_le_mul_right _ (Nat.le_succ _))

/-! ### One tick -/

theorem inFlight_upAfter (s : LinkSession BufferedLinkType) (k : Nat) : s.upAfter.inFlight k =
    if s.link.latency ≤ s.link.currentCycle ∧ k = s.unread then [] else s.world.up.inFlight k := by
  unfold upAfter
  split
  · next through =>
    show Function.update s.world.up.inFlight s.unread [] k = _
    rw [Function.update_apply]
    by_cases here : k = s.unread
    · rw [if_pos here,if_pos ⟨through,here⟩]
    · rw [if_neg here,if_neg (fun both => here both.2)]
  · next early => rw [if_neg (fun both => early both.1)]

/-- The packets of a slot and those that wait, after a tick. -/
theorem Settled.held_after {h : BufferedLinkType} {cycle : Nat} {ready : Bool} {total : Nat} (settled : Settled cycle h)
    (all : (h.getSlot cycle).length + h.pendingPackets.length = total) :
    ((h.handOn cycle ready).getSlot (cycle + 1)).length + h.pendingPackets.length + h.bandwidth ≤ total ∨
      ((h.handOn cycle ready).checkSpace (cycle + 1) = false ∧
        ((h.handOn cycle ready).getSlot (cycle + 1)).length + h.pendingPackets.length = total) ∨
      ((h.handOn cycle ready).getSlot (cycle + 1)).length + h.pendingPackets.length ≤ h.bandwidth := by
  have slot := @getSlot_handOn h cycle ready settled.alone
  cases ready with
  | true =>
    rw [if_pos rfl] at slot
    rw [slot]
    by_cases waits : h.pendingPackets = []
    · right; right
      rw [waits]
      exact Nat.zero_le _
    · left
      have full : ¬ (h.getSlot cycle).length < h.bandwidth := of_decide_eq_false (settled.full waits)
      show 0 + h.pendingPackets.length + h.bandwidth ≤ total
      omega
  | false =>
    rw [if_neg Bool.false_ne_true] at slot
    rw [slot]
    by_cases space : h.checkSpace cycle = true
    · right; right
      have nothing : h.pendingPackets = [] := by
        by_contra waits
        rw [settled.full waits] at space
        cases space
      rw [nothing]
      exact settled.room
    · right; left
      refine ⟨?_,all⟩
      unfold checkSpace at space ⊢
      rw [slot,bandwidth_handOn]
      simpa using space

/-- A tick trades the cycle it has received for the one it has signalled. -/
theorem expected_after (through : s.link.latency ≤ s.link.currentCycle) (h : BufferedLinkType) (ready : Bool) (up : Exchange) :
    (s.after h ready up).expected bandwidth + allowance bandwidth s.world.signalled s.unread =
      s.expected bandwidth + allowance bandwidth (s.after h ready up).world.signalled (s.link.currentCycle + 1) := by
  have next : (s.after h ready up).unread = s.unread + 1 := by
    show s.link.currentCycle + 1 - s.link.latency = s.link.currentCycle - s.link.latency + 1
    omega
  have last : s.unread + 1 + s.link.latency = s.link.currentCycle + 1 := by
    unfold unread
    omega
  have same : ∀ j ∈ Finset.range s.link.latency,
      allowance bandwidth (s.after h ready up).world.signalled (s.unread + 1 + j) =
        allowance bandwidth s.world.signalled (s.unread + (j + 1)) := by
    intro j inside
    have early := Finset.mem_range.mp inside
    have kept : (s.after h ready up).world.signalled (s.unread + 1 + j) = s.world.signalled (s.unread + 1 + j) :=
      Function.update_of_ne (by omega) ..
    unfold allowance
    rw [show s.unread + (j + 1) = s.unread + 1 + j by omega,kept]
  unfold expected
  rw [next]
  show (∑ j ∈ Finset.range (s.link.latency + 1), _) + _ = _
  rw [Finset.sum_range_succ,Finset.sum_range_succ',Finset.sum_congr rfl same,last]
  show _ + _ + allowance bandwidth s.world.signalled s.unread = _ + allowance bandwidth s.world.signalled s.unread + _
  omega

/-- What a tick leaves on its way upstream was on its way before. -/
theorem inFlight_after {h : BufferedLinkType} {ready : Bool} {up : Exchange} (signalled : s.signalling h ready = some ((),up)) :
    up.inFlight = s.upAfter.inFlight ∧ up.done = s.world.up.done := by
  have done : s.upAfter.done = s.world.up.done := by
    unfold upAfter
    split <;> rfl
  rcases now_updateReady signalled with ⟨_,rfl⟩ | ⟨_,rfl⟩
  · exact ⟨rfl,done⟩
  · exact ⟨rfl,done⟩

theorem Bounded.potential_tick {h : BufferedLinkType} {ready : Bool} {up : Exchange} (bounded : Bounded bandwidth s)
    (sound' : (s.after h ready up).Sound) (settled : Settled s.link.currentCycle h) (wide : h.bandwidth = bandwidth)
    (all : (h.getSlot s.link.currentCycle).length + h.pendingPackets.length = s.held + s.arriving.length) :
    (s.after h ready up).held + (s.after h ready up).expected bandwidth ≤ (s.link.latency + 2) * bandwidth := by
  have within := expected_le bandwidth (s.after h ready up)
  have enough : (s.link.latency + 2) * bandwidth = (s.link.latency + 1) * bandwidth + bandwidth := Nat.succ_mul _ _
  have few : (s.after h ready up).held ≤ bandwidth →
      (s.after h ready up).held + (s.after h ready up).expected bandwidth ≤ (s.link.latency + 2) * bandwidth := by
    intro small
    rw [enough]
    calc (s.after h ready up).held + (s.after h ready up).expected bandwidth
      _ ≤ bandwidth + (s.link.latency + 1) * bandwidth := Nat.add_le_add small within
      _ = (s.link.latency + 1) * bandwidth + bandwidth := Nat.add_comm _ _
  have left : (s.after h ready up).held =
      ((h.handOn s.link.currentCycle ready).getSlot (s.link.currentCycle + 1)).length + h.pendingPackets.length := by
    rw [sound'.held_eq]
    show _ + (h.handOn s.link.currentCycle ready).pendingPackets.length = _
    rw [pendingPackets_handOn]
    rfl
  by_cases through : s.link.latency ≤ s.link.currentCycle
  · have arrives : s.arriving.length ≤ allowance bandwidth s.world.signalled s.unread := by
      unfold arriving
      rw [if_pos through]
      exact bounded.few s.unread
    have trade := @expected_after bandwidth s through h ready up
    have before := bounded.potential
    rcases @Settled.held_after h s.link.currentCycle ready _ settled all with sent | ⟨refused,kept⟩ | small
    · have most := allowance_le bandwidth (s.after h ready up).world.signalled (s.link.currentCycle + 1)
      omega
    · have none_ : allowance bandwidth (s.after h ready up).world.signalled (s.link.currentCycle + 1) = 0 := by
        have told : (s.after h ready up).world.signalled (s.link.currentCycle + 1) = some false := by
          rw [← refused]
          exact Function.update_self ..
        unfold allowance
        rw [told]
        rfl
      omega
    · exact few (by omega)
  · -- nothing has arrived yet
    have nothing : (s.after h ready up).held = 0 := by
      have received := sound'.order
      rw [sound'.early (by show s.link.currentCycle + 1 ≤ s.link.latency; omega),List.append_assoc,List.map_append] at received
      have kept := List.map_eq_nil_iff.mp (List.append_eq_nil_iff.mp received.symm).2
      obtain ⟨slot,pending⟩ := List.append_eq_nil_iff.mp kept
      rw [sound'.held_eq,slot,pending]
      rfl
    exact few (by omega)

theorem Bounded.tick {targetCycle : Nat} (bounded : Bounded bandwidth s)
    (stepped : s.step linkType (.tick targetCycle) = some s') : Bounded bandwidth s' := by
  have sound' := bounded.sound.tick stepped
  obtain ⟨h,ready,up,arrived,placed,_,signalled,rfl⟩ := step_tick.mp stepped
  obtain ⟨h',placed',settled,latency,bandwidth',held⟩ := bounded.sound.takeIn
  obtain rfl : h' = h := Option.some.inj (placed'.symm.trans placed)
  obtain ⟨inFlight,done⟩ := inFlight_after signalled
  have all : (h'.getSlot s.link.currentCycle).length + h'.pendingPackets.length = s.held + s.arriving.length := by
    have lengths := congrArg List.length held
    rw [List.length_append,List.length_map,List.length_map,List.length_append,List.length_append] at lengths
    rw [lengths,bounded.sound.held_eq]
  have fewer : ∀ k, (up.inFlight k).length ≤ (s.world.up.inFlight k).length := by
    intro k
    rw [inFlight,inFlight_upAfter]
    split
    · exact Nat.zero_le _
    · exact Nat.le_refl _
  refine ⟨sound',?_,?_,?_,?_,?_,?_⟩
  · show (h'.handOn _ ready).bandwidth = bandwidth
    rw [bandwidth_handOn,bandwidth',bounded.wide]
  · intro k
    refine le_trans (fewer k) (le_trans (bounded.few k) ?_)
    show _ ≤ allowance bandwidth (Function.update s.world.signalled (s.link.currentCycle + 1) _) k
    by_cases here : k = s.link.currentCycle + 1
    · subst here
      unfold allowance
      split
      · next promised =>
        -- a cycle that is signalled again was promised when the link was connected
        have early := bounded.told _ (by rw [promised]; exact Option.some_ne_none _)
        have decided := bounded.sound.promised (s.link.currentCycle + 1) (by omega)
        rcases now_updateReady signalled with ⟨open_,_⟩ | ⟨again,_⟩
        · rw [decision_upAfter,decided] at open_
          cases open_
        · rw [decision_upAfter,decided] at again
          rw [Function.update_self,← again,if_pos rfl]
      · exact Nat.zero_le _
    · unfold allowance
      rw [Function.update_of_ne here]
  · intro k some_
    have some_ : up.inFlight k ≠ [] := some_
    rw [inFlight,inFlight_upAfter] at some_
    show s.link.currentCycle + 1 - s.link.latency ≤ k
    split at some_
    · exact absurd rfl some_
    · next other =>
      have late : s.link.currentCycle - s.link.latency ≤ k := bounded.later k some_
      have different : ¬ (s.link.latency ≤ s.link.currentCycle ∧ k = s.link.currentCycle - s.link.latency) := other
      omega
  · intro k (known : Function.update s.world.signalled (s.link.currentCycle + 1) _ k ≠ none)
    show k ≤ max s.link.latency (s.link.currentCycle + 1)
    by_cases here : k = s.link.currentCycle + 1
    · omega
    · rw [Function.update_of_ne here] at known
      have early := bounded.told k known
      omega
  · intro k (early : k < s.link.currentCycle + 1 - s.link.latency)
    show (k : Int) ≤ up.done
    rw [done]
    by_cases here : k = s.link.currentCycle - s.link.latency
    · rw [here]
      exact arrived (by omega)
    · exact bounded.marked k (by unfold unread; omega)
  · exact bounded.potential_tick sound' settled (bandwidth'.trans bounded.wide) all

/-! ### Whole runs -/

theorem Bounded.upstream {op : PortOp} (bounded : Bounded bandwidth s) (obedient : s.Obedient bandwidth (.upstream op))
    (stepped : s.step linkType (.upstream op) = some s') : Bounded bandwidth s' := by
  have sound' := bounded.sound.upstream stepped
  obtain ⟨answer,up,sends,now,rfl⟩ := step_upstream.mp stepped
  cases op with
  | isReady cycle =>
    have same : up.inFlight = s.world.up.inFlight ∧ up.done = s.world.up.done := by
      rcases read : s.world.up.decision cycle with _ | ready
      · simp [Exchange.now,Exchange.exec,read] at now
      · simp only [Exchange.now,Exchange.exec,read,Option.some.injEq,Prod.mk.injEq] at now
        obtain ⟨_,rfl⟩ := now
        exact ⟨rfl,rfl⟩
    refine ⟨sound',bounded.wide,?_,?_,bounded.told,?_,bounded.potential⟩
    · intro k
      show (up.inFlight k).length ≤ _
      rw [same.1]
      exact bounded.few k
    · intro k (some_ : up.inFlight k ≠ [])
      rw [same.1] at some_
      exact bounded.later k some_
    · intro k early
      show (k : Int) ≤ up.done
      rw [same.2]
      exact bounded.marked k early
  | send pwc =>
    obtain ⟨fresh,room,promised⟩ := obedient
    cases now
    refine ⟨sound',bounded.wide,?_,?_,bounded.told,bounded.marked,bounded.potential⟩
    · intro k
      show (Function.update s.world.up.inFlight pwc.cycle _ k).length ≤ _
      by_cases here : k = pwc.cycle
      · subst here
        have all : allowance bandwidth s.world.signalled pwc.cycle = bandwidth := if_pos promised
        rw [Function.update_self,List.length_append,List.length_singleton]
        exact all.symm ▸ room
      · rw [Function.update_of_ne here]
        exact bounded.few k
    · intro k (some_ : Function.update s.world.up.inFlight pwc.cycle _ k ≠ [])
      by_cases here : k = pwc.cycle
      · subst here
        by_contra early
        have done := bounded.marked pwc.cycle (Nat.not_le.mp early)
        omega
      · rw [Function.update_of_ne here] at some_
        exact bounded.later k some_
  | markDone cycle =>
    have later : s.world.up.done < cycle := obedient
    cases now
    refine ⟨sound',bounded.wide,bounded.few,bounded.later,bounded.told,?_,bounded.potential⟩
    intro k early
    have before := bounded.marked k early
    show (k : Int) ≤ cycle
    omega
  | _ => exact absurd sends id

theorem Bounded.step {action : LinkAction} (bounded : Bounded bandwidth s) (obedient : s.Obedient bandwidth action)
    (stepped : s.step linkType action = some s') : Bounded bandwidth s' := by
  cases action with
  | tick targetCycle => exact bounded.tick stepped
  | upstream op => exact bounded.upstream obedient stepped
  | downstream op =>
    have sound' := bounded.sound.step stepped
    obtain ⟨_,_,_,_,rfl⟩ := step_downstream.mp stepped
    exact { bounded with sound := sound' }

theorem latency_step {action : LinkAction} (stepped : s.step linkType action = some s') :
    s'.link.latency = s.link.latency := by
  cases action with
  | tick targetCycle =>
    obtain ⟨h,ready,up,_,_,_,_,rfl⟩ := step_tick.mp stepped
    rfl
  | upstream op =>
    obtain ⟨_,_,_,_,rfl⟩ := step_upstream.mp stepped
    rfl
  | downstream op =>
    obtain ⟨_,_,_,_,rfl⟩ := step_downstream.mp stepped
    rfl

end

/-- An upstream component that sends at most the bandwidth in a cycle, and only in cycles
    signalled ready, never has more than `latency + 2` times the bandwidth in the link and on
    the way to it, whatever the downstream component does. -/
theorem held_and_inFlight_le (latency bandwidth : Nat) (pos : 0 < latency) (bandwidthPos : 0 < bandwidth) :
    ∃ start, connect linkType latency (newBufferedLinkType latency bandwidth pos bandwidthPos) = some start ∧
      ∀ s, Reaches (LinkSession.step linkType) (Obedient bandwidth) start s → ∀ cycles,
        s.held + ∑ k ∈ Finset.range cycles, (s.world.up.inFlight k).length ≤ (latency + 2) * bandwidth := by
  refine ⟨_,connect_eq pos bandwidthPos,fun s reached cycles => ?_⟩
  have holds : Bounded bandwidth s ∧ s.link.latency = latency := by
    refine @Reaches.invariant _ _ _ _ (fun s => Bounded bandwidth s ∧ s.link.latency = latency) _ _ reached
      ⟨bounded_connected pos bandwidthPos,rfl⟩ ?_
    rintro s s' action ⟨bounded,same⟩ obedient stepped
    exact ⟨bounded.step obedient stepped,(latency_step stepped).trans same⟩
  obtain ⟨bounded,same⟩ := holds
  calc s.held + ∑ k ∈ Finset.range cycles, (s.world.up.inFlight k).length
    _ ≤ s.held + s.expected bandwidth := Nat.add_le_add_left (bounded.inFlight_le cycles) _
    _ ≤ (s.link.latency + 2) * bandwidth := bounded.potential
    _ = (latency + 2) * bandwidth := by rw [same]

/-- A packet of cycle 0 that the link keeps because cycle 1 is refused downstream, and one
    of cycle 1 that is still on its way. -/
theorem held_and_inFlight_le_kept : ∃ s : LinkSession BufferedLinkType, s.held = 1 ∧ (s.world.up.inFlight 1).length = 1 ∧
    s.held + ∑ k ∈ Finset.range 2, (s.world.up.inFlight k).length ≤ (1 + 2) * 1 := by
  obtain ⟨start,connected_,small⟩ := held_and_inFlight_le 1 1 (by decide) (by decide)
  obtain rfl : connected 1 1 (by decide) (by decide) = start :=
    Option.some.inj ((connect_eq (by decide) (by decide)).symm.trans connected_)
  let pkt : Packet := { sourceID := 0, targetID := 1 }
  let actions : List LinkAction := [.upstream (.send ⟨0,pkt⟩),.upstream (.markDone 0),.upstream (.send ⟨1,pkt⟩),
    .downstream (.updateReady 0 true),.downstream (.updateReady 1 false),.tick 1,.tick 1]
  have counts : (runActions (LinkSession.step linkType) (Obedient 1) actions (connected 1 1 (by decide) (by decide))).map
      (fun s => (s.held,(s.world.up.inFlight 1).length)) = some (1,1) := by decide +kernel
  obtain ⟨s,ran,both⟩ := Option.map_eq_some_iff.mp counts
  obtain ⟨held,onTheWay⟩ := Prod.mk.inj both
  exact ⟨s,held,onTheWay,small s (reaches_runActions actions ran) 2⟩

end LinkSession
end FlowSim.Links
