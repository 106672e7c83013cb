import FlowSim.Links.Backlog
import FlowSim.Links.BufferlessLinkType

/-!
The number of packets that a link says it holds. A bufferless link always tells the packets
it has received and not sent. A buffered link tells those in its slots, and leaves out the
packets that found no room there.
-/
namespace FlowSim.Links
open FlowSim.Lib FlowSim.AheadPort
set_option linter.unusedSimpArgs false

namespace Link
variable {σ : Type} (getOccupancy : σ → Nat → List Nat)

def snapshotOccupancy (l : Link σ) : List Nat := getOccupancy l.state l.currentCycle

def pendingPacketCount (l : Link σ) : Nat := (l.snapshotOccupancy getOccupancy).sum

end Link

namespace LinkSession

/-- The link tells exactly the packets that it has received and not sent. -/
def Exact {σ : Type} (getOccupancy : σ → Nat → List Nat) (s : LinkSession σ) : Prop :=
  s.link.pendingPacketCount getOccupancy + s.world.sent.length = s.world.received.length

/-- In a tick, what is in the slot of the cycle and what arrives fits in the slot. -/
def Fits (s : LinkSession BufferedLinkType) : LinkAction → Prop
  | .tick _ => (s.link.state.getSlot s.link.currentCycle).length + s.arriving.length ≤ s.link.state.bandwidth
  | _ => True

instance (s : LinkSession BufferedLinkType) : DecidablePred s.Fits := by
  intro action
  unfold Fits
  split <;> infer_instance

/-! ### Bufferless links -/

theorem Delayed.exact {s : LinkSession BufferlessLinkType} (delayed : s.Delayed) : s.Exact BufferlessLinkType.getOccupancy := by
  unfold Exact Link.pendingPacketCount Link.snapshotOccupancy
  rw [BufferlessLinkType.getOccupancy_sum _ _ delayed.now]
  exact delayed.counted

/-! ### Buffered links -/

open BufferedLinkType
variable {s s' : LinkSession BufferedLinkType}

/-- What a buffered link leaves out are the packets behind its slots. -/
theorem Sound.received_eq (sound : s.Sound) :
    s.world.received.length = s.link.pendingPacketCount BufferedLinkType.getOccupancy + s.world.sent.length +
      s.link.state.pendingPackets.length := by
  have told : s.link.pendingPacketCount BufferedLinkType.getOccupancy =
      (s.link.state.getSlot s.link.currentCycle).length := sum_length_alone sound.alone
  rw [told,sound.order,List.length_map,List.length_append,List.length_append]
  omega

theorem Sound.exact_iff (sound : s.Sound) :
    s.Exact BufferedLinkType.getOccupancy ↔ s.link.state.pendingPackets = [] := by
  have all := sound.received_eq
  unfold Exact
  rw [← List.length_eq_zero_iff]
  omega

/-- What holds of a session as long as the link has found room for everything. -/
structure Roomy (s : LinkSession BufferedLinkType) : Prop where
  sound : s.Sound
  nothing : s.link.state.pendingPackets = []

/-- Packets are left behind the slots exactly when they do not fit. -/
theorem nothing_waits_iff {h : BufferedLinkType} {cycle : Nat} (settled : Settled cycle h) :
    h.pendingPackets = [] ↔ (h.getSlot cycle).length + h.pendingPackets.length ≤ h.bandwidth := by
  constructor
  · intro nothing
    rw [nothing]
    exact settled.room
  · intro fits
    by_contra waits
    have full : ¬ (h.getSlot cycle).length < h.bandwidth := of_decide_eq_false (settled.full waits)
    have some_ := List.length_pos_iff.mpr waits
    omega

theorem Roomy.exact_step {action : LinkAction} (roomy : s.Roomy) (stepped : s.step linkType action = some s') :
    s'.Exact BufferedLinkType.getOccupancy ↔ s.Fits action := by
  obtain ⟨sound,nothing⟩ := roomy
  rw [(sound.step stepped).exact_iff]
  cases action with
  | tick targetCycle =>
    obtain ⟨h,ready,up,_,placed,_,_,rfl⟩ := step_tick.mp stepped
    obtain ⟨h',placed',settled,_,bandwidth,held⟩ := sound.takeIn
    obtain rfl : h' = h := Option.some.inj (placed'.symm.trans placed)
    have all := congrArg List.length held
    rw [List.length_append,List.length_map,List.length_map,List.length_append,List.length_append,nothing,
      List.length_nil] at all
    show (h'.handOn s.link.currentCycle ready).pendingPackets = [] ↔ _
    rw [pendingPackets_handOn,nothing_waits_iff settled,bandwidth,all]
    rfl
  | upstream op =>
    obtain ⟨_,_,_,_,rfl⟩ := step_upstream.mp stepped
    exact iff_of_true nothing trivial
  | downstream op =>
    obtain ⟨_,_,_,_,rfl⟩ := step_downstream.mp stepped
    exact iff_of_true nothing trivial

theorem Roomy.step {action : LinkAction} (roomy : s.Roomy) (stepped : s.step linkType action = some s') (fits : s.Fits action) :
    s'.Roomy := by
  have sound' := roomy.sound.step stepped
  exact ⟨sound',sound'.exact_iff.mp ((roomy.exact_step stepped).mpr fits)⟩

/-! ### Whole runs -/

/-- A bufferless link always tells what it holds; a buffered link does so in a run exactly
    when in each of its ticks what is in the slot and what arrives fits in the slot. -/
theorem pendingPacketCount_exact_iff (latency bandwidth : Nat) (pos : 0 < latency) (bandwidthPos : 0 < bandwidth) :
    (∀ (latency : Nat) (start s : LinkSession BufferlessLinkType),
      connect BufferlessLinkType.linkType latency .newBufferlessLinkType = some start →
        Reachable (LinkSession.step BufferlessLinkType.linkType) start s → s.Exact BufferlessLinkType.getOccupancy) ∧
    ∃ start, connect linkType latency (newBufferedLinkType latency bandwidth pos bandwidthPos) = some start ∧
      start.Exact BufferedLinkType.getOccupancy ∧ ∀ actions,
        (∀ taken ∈ trace (LinkSession.step linkType) start actions, taken.2.2.Exact BufferedLinkType.getOccupancy) ↔
          ∀ taken ∈ trace (LinkSession.step linkType) start actions, taken.1.Fits taken.2.1 := by
  refine ⟨fun latency start s connected reached => ?_,_,connect_eq pos bandwidthPos,?_,fun actions => ?_⟩
  · refine Delayed.exact (reached.invariant (delayed_connect connected) ?_)
    exact fun action delayed _ stepped => delayed.step stepped
  · exact (sound_connected pos bandwidthPos).exact_iff.mpr rfl
  · exact @trace_forall_iff _ _ (LinkSession.step linkType) Roomy (fun _ _ s' => s'.Exact BufferedLinkType.getOccupancy) Fits
      (fun roomy stepped => roomy.exact_step stepped) (fun roomy stepped fits => roomy.step stepped fits) _ _
      ⟨sound_connected pos bandwidthPos,rfl⟩

/-- Three cycles with a packet of cycle 0 and one of cycle 1; downstream only cycle 0 is ready. -/
def refusals (pkt : Packet) : List LinkAction :=
  [.upstream (.send ⟨0,pkt⟩),.upstream (.markDone 0),.upstream (.send ⟨1,pkt⟩),.upstream (.markDone 1),
    .downstream (.updateReady 0 true),.downstream (.updateReady 1 false),.downstream (.updateReady 2 false),
    .tick 1,.tick 1,.tick 2]

/-- Both links tell the first of these packets while they hold it. -/
theorem pendingPacketCount_exact_first :
    ((runActions (LinkSession.step linkType) (fun _ _ => True) ((refusals { sourceID := 0, targetID := 1 }).take 9)
      (connected 1 1 (by decide) (by decide))).map fun s => (s.link.pendingPacketCount getOccupancy,s.world.received.length)) =
        some (1,1) ∧
    (∀ taken ∈ trace (LinkSession.step linkType) (connected 1 1 (by decide) (by decide))
      ((refusals { sourceID := 0, targetID := 1 }).take 9), taken.2.2.Exact getOccupancy) ∧
    ∃ start s : LinkSession BufferlessLinkType, connect BufferlessLinkType.linkType 1 .newBufferlessLinkType = some start ∧
      s.link.pendingPacketCount BufferlessLinkType.getOccupancy = 1 ∧ s.Exact BufferlessLinkType.getOccupancy := by
  obtain ⟨bufferless,start,connected_,_,buffered⟩ := pendingPacketCount_exact_iff 1 1 (by decide) (by decide)
  obtain rfl : connected 1 1 (by decide) (by decide) = start :=
    Option.some.inj ((connect_eq (by decide) (by decide)).symm.trans connected_)
  have counts : ((connect BufferlessLinkType.linkType 1 .newBufferlessLinkType).bind fun start =>
      (runActions (LinkSession.step BufferlessLinkType.linkType) (fun _ _ => True)
        ((refusals { sourceID := 0, targetID := 1 }).take 3 ++ [.downstream (.updateReady 0 true),
          .downstream (.updateReady 1 false),.tick 1,.tick 1]) start).map
        fun s => s.link.pendingPacketCount BufferlessLinkType.getOccupancy) = some 1 := by decide +kernel
  obtain ⟨start,connected',ran⟩ := Option.bind_eq_some_iff.mp counts
  obtain ⟨s,ran,told⟩ := Option.map_eq_some_iff.mp ran
  refine ⟨by decide +kernel,(buffered _).mpr (allowed_of_runActions (by decide +kernel)),start,s,connected',told,?_⟩
  exact bufferless 1 start s connected' (reaches_runActions _ ran)

/-- A link of latency and bandwidth 1 has received both packets, in the cycles that it
    promised, and sent none, but it tells one: the other waits behind the full slot. -/
theorem pendingPacketCount_leaves_out : ∃ start s : LinkSession BufferedLinkType,
    connect linkType 1 (newBufferedLinkType 1 1 (by decide) (by decide)) = some start ∧
    Reaches (LinkSession.step linkType) (Obedient 1) start s ∧ s.link.pendingPacketCount getOccupancy = 1 ∧
    s.world.received.length = 2 ∧ s.world.sent = [] ∧ ¬ s.Exact getOccupancy := by
  have counts : (runActions (LinkSession.step linkType) (Obedient 1) (refusals { sourceID := 0, targetID := 1 })
      (connected 1 1 (by decide) (by decide))).map
        (fun s => (s.link.pendingPacketCount getOccupancy,s.world.received.length,s.world.sent)) = some (1,2,[]) := by
    decide +kernel
  obtain ⟨s,ran,all⟩ := Option.map_eq_some_iff.mp counts
  obtain ⟨told,both⟩ := Prod.mk.inj all
  obtain ⟨received,sent⟩ := Prod.mk.inj both
  refine ⟨_,s,connect_eq (by decide) (by decide),reaches_runActions _ ran,told,received,sent,?_⟩
  unfold Exact
  rw [told,received,sent]
  decide

end LinkSession
end FlowSim.Links
