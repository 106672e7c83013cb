import FlowSim.Links.BufferedTick

/-!
What holds of every session of a buffered link: no packet is lost or passes another, only
the slot of the current cycle is in use, and the link never contradicts its own signals.
-/
namespace FlowSim.Links
open FlowSim.Lib FlowSim.AheadPort
set_option linter.unusedSimpArgs false

namespace LinkSession
open BufferedLinkType

/-- What holds before a tick. The link has decided the cycles up to its own, and those that
    it promised when it was connected; it has received nothing before the latency is over. -/
structure Sound (s : LinkSession BufferedLinkType) : Prop where
  latency : s.link.latency = s.link.state.latency
  room : (s.link.state.getSlot s.link.currentCycle).length ≤ s.link.state.bandwidth
  alone : s.link.state.Alone s.link.currentCycle
  due : ∀ pkt ∈ s.link.state.pendingPackets, pkt.cycle ≤ s.link.currentCycle
  order : s.world.received = (s.world.sent ++ s.link.state.getSlot s.link.currentCycle ++
    s.link.state.pendingPackets).map PacketWithCycle.packet
  early : s.link.currentCycle ≤ s.link.latency → s.world.received = []
  decided : ∀ k, s.world.up.decision k ≠ none ↔ k ≤ max s.link.latency s.link.currentCycle
  promised : ∀ k ≤ s.link.latency, s.world.up.decision k = some true

/-! ### Connecting -/

/-- The ports once the cycles before `n` are promised. -/
def promising (n : Nat) : LinkWorld :=
  { LinkWorld.new with
    up := { LinkWorld.new.up with decision := fun k => if k < n then some true else none }
    signalled := fun k => if k < n then some true else none }

theorem run_promises : ∀ n : Nat, ((List.range n).forM (fun i => atEnd .upstream (updateReady i true))).runWith
    LinkWorld.exec .new = some ((),promising n)
  | 0 => by
    show some ((),LinkWorld.new) = some ((),promising 0)
    congr 2
  | n + 1 => by
    have before := run_promises n
    have next : Exchange.now (promising n).up (.updateReady n true) = some ((),(promising (n + 1)).up) := by
      have open_ : (promising n).up.decision n = none := if_neg (Nat.lt_irrefl n)
      have more : Function.update (promising n).up.decision n (some true) = (promising (n + 1)).up.decision := by
        funext k
        rw [Function.update_apply]
        show (if k = n then some true else if k < n then some true else none) = if k < n + 1 then some true else none
        split_ifs <;> first | rfl | omega
      simp only [Exchange.now,Exchange.exec,open_,more]
      rfl
    have told : Function.update (promising n).signalled n (some true) = (promising (n + 1)).signalled := by
      funext k
      rw [Function.update_apply]
      show (if k = n then some true else if k < n then some true else none) = if k < n + 1 then some true else none
      split_ifs <;> first | rfl | omega
    rw [List.range_succ]
    simp only [List.forM_eq_forM,List.forM_append] at before ⊢
    rw [Prog.runWith_bind,before,Option.bind_some]
    show (atEnd .upstream (updateReady n true) >>= fun _ => pure ()).runWith LinkWorld.exec (promising n) = _
    rw [Prog.runWith_bind,run_updateReady,next,Option.map_some,Option.bind_some]
    dsimp only
    rw [told]
    rfl

/-- A new buffered link, connected. -/
def connected (latency bandwidth : Nat) (pos : 0 < latency) (bandwidthPos : 0 < bandwidth) : LinkSession BufferedLinkType where
  link := .newLink latency (newBufferedLinkType latency bandwidth pos bandwidthPos)
  world := promising (latency + 1)

section
variable {latency bandwidth : Nat} (pos : 0 < latency) (bandwidthPos : 0 < bandwidth)

/-- Connecting a buffered link never fails. -/
theorem connect_eq : connect linkType latency (newBufferedLinkType latency bandwidth pos bandwidthPos) =
    some (connected latency bandwidth pos bandwidthPos) := by
  show Option.map _ (Prog.runWith LinkWorld.exec
    ((List.range (latency + 1)).forM (fun i => atEnd .upstream (updateReady i true))) .new) = _
  rw [run_promises]
  rfl

theorem getD_new (i : Nat) : (newBufferedLinkType latency bandwidth pos bandwidthPos).slots.getD i [] = [] := by
  show (List.replicate latency []).getD i [] = []
  rw [List.getD_eq_getElem?_getD,List.getElem?_replicate]
  split <;> rfl

theorem sound_connected : (connected latency bandwidth pos bandwidthPos).Sound where
  latency := rfl
  room := (congrArg List.length (getD_new pos bandwidthPos _)).trans_le (Nat.zero_le _)
  alone := fun i _ => getD_new pos bandwidthPos i
  due := fun _ member => absurd member (List.not_mem_nil)
  order := by
    have empty : (newBufferedLinkType latency bandwidth pos bandwidthPos).getSlot 0 = [] := getD_new pos bandwidthPos _
    show [] = (([] : List PacketWithCycle) ++ (newBufferedLinkType latency bandwidth pos bandwidthPos).getSlot 0 ++ []).map _
    rw [empty]
    rfl
  early := fun _ => rfl
  decided := by
    intro k
    show (if k < latency + 1 then some true else none) ≠ none ↔ k ≤ max latency 0
    split_ifs with within
    · exact iff_of_true (Option.some_ne_none _) (by omega)
    · exact iff_of_false (fun some_ => some_ rfl) (by omega)
  promised := fun k upTo => if_pos (Nat.lt_succ_of_le upTo)

end

/-! ### Steps -/

section
variable {s s' : LinkSession BufferedLinkType}

/-- A slot that was not sent is the slot of the next cycle. -/
theorem getSlot_handOn {h : BufferedLinkType} {cycle : Nat} {ready : Bool} (alone : h.Alone cycle) :
    (h.handOn cycle ready).getSlot (cycle + 1) = if ready then [] else h.getSlot cycle := by
  cases ready with
  | true => exact alone.clearSlot _
  | false =>
    show h.slots.getD (slotIndex { h with totalBackpressure := h.totalBackpressure + 1 } (cycle + 1)) [] = _
    rw [slotIndex_delayed]
    rfl

theorem alone_handOn {h : BufferedLinkType} {cycle : Nat} {ready : Bool} (alone : h.Alone cycle) :
    (h.handOn cycle ready).Alone (cycle + 1) := by
  cases ready with
  | true => exact fun i _ => alone.clearSlot i
  | false =>
    intro i other
    refine alone i fun here => other ?_
    rw [here]
    exact (slotIndex_delayed h cycle).symm

@[simp] theorem pendingPackets_handOn (h : BufferedLinkType) (cycle : Nat) (ready : Bool) :
    (h.handOn cycle ready).pendingPackets = h.pendingPackets := by
  cases ready <;> rfl

@[simp] theorem bandwidth_handOn (h : BufferedLinkType) (cycle : Nat) (ready : Bool) :
    (h.handOn cycle ready).bandwidth = h.bandwidth := by
  cases ready <;> rfl

@[simp] theorem latency_handOn (h : BufferedLinkType) (cycle : Nat) (ready : Bool) :
    (h.handOn cycle ready).latency = h.latency := by
  cases ready <;> rfl

/-- What is handed on and what stays in the slot is the slot. -/
theorem handed_append {h : BufferedLinkType} {cycle : Nat} {ready : Bool} (alone : h.Alone cycle) :
    h.handed cycle ready ++ (h.handOn cycle ready).getSlot (cycle + 1) = h.getSlot cycle := by
  rw [getSlot_handOn alone]
  cases ready with
  | true => exact List.append_nil _
  | false => rfl

theorem decision_upAfter (s : LinkSession BufferedLinkType) : s.upAfter.decision = s.world.up.decision := by
  unfold upAfter
  split <;> rfl

/-- A signal that is given decides its cycle, or repeats the decision. -/
theorem now_updateReady {e e' : Exchange} {cycle : Nat} {ready : Bool} (now : Exchange.now e (.updateReady cycle ready) = some ((),e')) :
    (e.decision cycle = none ∧ e' = { e with decision := Function.update e.decision cycle (some ready) }) ∨
      (e.decision cycle = some ready ∧ e' = e) := by
  unfold Exchange.now Exchange.exec at now
  rcases decided : e.decision cycle with _ | old
  · simp only [decided,Option.some.injEq,Prod.mk.injEq,true_and] at now
    exact .inl ⟨rfl,now.symm⟩
  · simp only [decided] at now
    by_cases same : ready = old
    · simp only [if_pos same,Option.some.injEq,Prod.mk.injEq,true_and] at now
      exact .inr ⟨by rw [same],now.symm⟩
    · simp [if_neg same] at now

theorem now_open {e : Exchange} {cycle : Nat} (open_ : e.decision cycle = none) (ready : Bool) :
    Exchange.now e (.updateReady cycle ready) = some ((),{ e with decision := Function.update e.decision cycle (some ready) }) := by
  simp only [Exchange.now,Exchange.exec,open_]

theorem now_again {e : Exchange} {cycle : Nat} {ready : Bool} (decided : e.decision cycle = some ready) :
    Exchange.now e (.updateReady cycle ready) = some ((),e) := by
  simp only [Exchange.now,Exchange.exec,decided,if_pos]

/-- Placing what arrives neither loses nor reorders packets. -/
theorem Sound.takeIn (sound : s.Sound) : ∃ h, s.link.state.takeIn s.link.currentCycle s.arriving = some h ∧
    Settled s.link.currentCycle h ∧ h.latency = s.link.state.latency ∧ h.bandwidth = s.link.state.bandwidth ∧
    (h.getSlot s.link.currentCycle ++ h.pendingPackets).map PacketWithCycle.packet =
      (s.link.state.getSlot s.link.currentCycle ++ s.link.state.pendingPackets).map PacketWithCycle.packet ++ s.arriving := by
  obtain ⟨h,placed,held,settled,_,latency,bandwidth⟩ := takeIn_spec s.arriving sound.room sound.alone sound.due
  refine ⟨h,placed,settled,latency,bandwidth,?_⟩
  have fresh : (s.arriving.map (PacketWithCycle.mk s.link.currentCycle)).map PacketWithCycle.packet = s.arriving := by
    rw [List.map_map]
    exact List.map_id _
  rw [held,List.map_append,List.map_append,List.map_append,packet_retarget,fresh]

theorem Sound.tick {targetCycle : Nat} (sound : s.Sound) (stepped : s.step linkType (.tick targetCycle) = some s') :
    s'.Sound := by
  obtain ⟨h,ready,up,_,placed,_,signalled,rfl⟩ := step_tick.mp stepped
  obtain ⟨h',placed',settled,latency,bandwidth,held⟩ := sound.takeIn
  obtain rfl : h' = h := Option.some.inj (placed'.symm.trans placed)
  have signal := now_updateReady signalled
  rw [decision_upAfter] at signal
  have decided := sound.decided
  refine ⟨?_,?_,alone_handOn settled.alone,?_,?_,?_,?_,?_⟩
  · show s.link.latency = (h'.handOn _ ready).latency
    rw [latency_handOn,latency]
    exact sound.latency
  · show ((h'.handOn s.link.currentCycle ready).getSlot (s.link.currentCycle + 1)).length ≤ (h'.handOn _ ready).bandwidth
    rw [getSlot_handOn settled.alone,bandwidth_handOn]
    split
    · exact Nat.zero_le _
    · exact settled.room
  · intro pkt member
    rw [show (s.after h' ready up).link.state.pendingPackets = h'.pendingPackets from pendingPackets_handOn ..] at member
    exact (settled.due pkt member).le.trans (Nat.le_succ _)
  · show s.world.received ++ s.arriving = ((s.world.sent ++ h'.handed _ ready) ++
      (h'.handOn _ ready).getSlot (s.link.currentCycle + 1) ++ (h'.handOn _ ready).pendingPackets).map _
    rw [pendingPackets_handOn,List.append_assoc s.world.sent,handed_append settled.alone,List.append_assoc,List.map_append,
      held,← List.append_assoc,← List.map_append,← List.append_assoc,← sound.order]
  · intro (upTo : s.link.currentCycle + 1 ≤ s.link.latency)
    show s.world.received ++ s.arriving = []
    rw [sound.early (by omega),arriving,if_neg (by omega)]
    rfl
  · intro k
    show up.decision k ≠ none ↔ k ≤ max s.link.latency (s.link.currentCycle + 1)
    rcases signal with ⟨open_,rfl⟩ | ⟨old,rfl⟩
    · have later : ¬ s.link.currentCycle + 1 ≤ max s.link.latency s.link.currentCycle := fun within =>
        (decided (s.link.currentCycle + 1)).mpr within open_
      show Function.update s.world.up.decision _ _ k ≠ none ↔ _
      rw [Function.update_apply]
      split_ifs with here
      · exact iff_of_true (Option.some_ne_none _) (by omega)
      · rw [decided k]
        omega
    · have early := (decided (s.link.currentCycle + 1)).mp (by rw [old]; exact Option.some_ne_none _)
      rw [decision_upAfter,decided k]
      omega
  · intro k (upTo : k ≤ s.link.latency)
    show up.decision k = some true
    have before := sound.promised k upTo
    rcases signal with ⟨open_,rfl⟩ | ⟨old,rfl⟩
    · show Function.update s.world.up.decision _ _ k = _
      rw [Function.update_of_ne]
      · exact before
      · rintro rfl
        rw [before] at open_
        cases open_
    · rw [decision_upAfter]
      exact before

/-- What the upstream component does decides no cycle and takes no promise back. -/
theorem Sound.upstream {op : PortOp} (sound : s.Sound) (stepped : s.step linkType (.upstream op) = some s') : s'.Sound := by
  obtain ⟨answer,up,sends,now,rfl⟩ := step_upstream.mp stepped
  have kept : (∀ k, up.decision k ≠ none ↔ s.world.up.decision k ≠ none) ∧
      ∀ k, s.world.up.decision k = some true → up.decision k = some true := by
    cases op with
    | isReady cycle =>
      rcases read : s.world.up.decision cycle with _ | ready
      · simp [Exchange.now,Exchange.exec,read] at now
      · simp only [Exchange.now,Exchange.exec,read,Option.some.injEq,Prod.mk.injEq] at now
        obtain ⟨_,rfl⟩ := now
        have upTo := (sound.decided cycle).mp (by rw [read]; exact Option.some_ne_none _)
        refine ⟨fun k => ?_,fun k promised => ?_⟩
        · show (if k ≤ cycle then some true else s.world.up.decision k) ≠ none ↔ _
          split_ifs with early
          · exact iff_of_true (Option.some_ne_none _) ((sound.decided k).mpr (by omega))
          · exact Iff.rfl
        · show (if k ≤ cycle then some true else s.world.up.decision k) = _
          split_ifs
          · rfl
          · exact promised
    | send pwc =>
      cases now
      exact ⟨fun _ => Iff.rfl,fun _ promised => promised⟩
    | markDone cycle =>
      cases now
      exact ⟨fun _ => Iff.rfl,fun _ promised => promised⟩
    | _ => exact absurd sends id
  exact { sound with
    decided := fun k => (kept.1 k).trans (sound.decided k)
    promised := fun k upTo => kept.2 k (sound.promised k upTo) }

theorem Sound.step {action : LinkAction} (sound : s.Sound) (stepped : s.step linkType action = some s') : s'.Sound := by
  cases action with
  | tick targetCycle => exact sound.tick stepped
  | upstream op => exact sound.upstream stepped
  | downstream op =>
    obtain ⟨_,_,_,_,rfl⟩ := step_downstream.mp stepped
    exact { sound with }

/-- A tick never panics: it is finished as soon as the packets to receive have been sent and
    the cycle is decided downstream. -/
theorem Sound.finishes (sound : s.Sound) (arrived : s.Arrived) (decided : s.world.down.decision s.link.currentCycle ≠ none)
    (targetCycle : Nat) : ∃ s', s.step linkType (.tick targetCycle) = some s' := by
  obtain ⟨ready,decided⟩ := Option.ne_none_iff_exists'.mp decided
  obtain ⟨h,placed,settled,_,bandwidth,held⟩ := sound.takeIn
  have signalled : ∃ up, s.signalling h ready = some ((),up) := by
    unfold signalling
    rcases old : s.world.up.decision (s.link.currentCycle + 1) with _ | value
    · exact ⟨_,now_open (by rw [decision_upAfter]; exact old) _⟩
    · -- a cycle that was promised when the link was connected, before anything could arrive
      have upTo := (sound.decided (s.link.currentCycle + 1)).mp (by rw [old]; exact Option.some_ne_none _)
      have promised := sound.promised (s.link.currentCycle + 1) (by omega)
      have nothing : h.getSlot s.link.currentCycle ++ h.pendingPackets = [] := by
        have received := sound.order
        rw [sound.early (by omega),List.append_assoc,List.map_append] at received
        have kept := (List.append_eq_nil_iff.mp received.symm).2
        rw [kept,arriving,if_neg (by omega)] at held
        exact List.map_eq_nil_iff.mp held
      have space : (h.handOn s.link.currentCycle ready).checkSpace (s.link.currentCycle + 1) = true := by
        unfold checkSpace
        rw [getSlot_handOn settled.alone,(List.append_eq_nil_iff.mp nothing).1,bandwidth_handOn]
        exact decide_eq_true (by split <;> exact h.bandwidth_pos)
      rw [space]
      exact ⟨_,now_again (by rw [decision_upAfter]; exact promised)⟩
  obtain ⟨up,signalled⟩ := signalled
  exact ⟨_,step_tick.mpr ⟨h,ready,up,arrived,placed,decided,signalled,rfl⟩⟩

end

/-- A buffered link between ports whose other ends do what they like. Connecting it never
    fails, and in every state that is reached a tick never panics, only the slot of the
    current cycle holds packets, and the packets received are those sent downstream, then
    those of the slot, then those that wait. -/
theorem buffered_link_safe (latency bandwidth : Nat) (pos : 0 < latency) (bandwidthPos : 0 < bandwidth) :
    ∃ start, connect linkType latency (newBufferedLinkType latency bandwidth pos bandwidthPos) = some start ∧
      ∀ s, Reachable (LinkSession.step linkType) start s →
        (s.Arrived → s.world.down.decision s.link.currentCycle ≠ none → ∀ targetCycle,
          ∃ s', s.step linkType (.tick targetCycle) = some s') ∧
        (∀ i, i ≠ s.link.state.slotIndex s.link.currentCycle → s.link.state.slots.getD i [] = []) ∧
        s.world.received = (s.world.sent ++ s.link.state.getSlot s.link.currentCycle ++
          s.link.state.pendingPackets).map PacketWithCycle.packet := by
  refine ⟨_,connect_eq pos bandwidthPos,fun s reached => ?_⟩
  have sound : s.Sound := reached.invariant (sound_connected pos bandwidthPos) fun _ now _ stepped => now.step stepped
  exact ⟨sound.finishes,sound.alone,sound.order⟩

/-- A packet of cycle 0 is received in cycle 1 and waits in its slot, as cycle 1 is refused. -/
theorem buffered_link_safe_kept : ∃ s : LinkSession BufferedLinkType, s.world.sent = [] ∧
    s.world.received = [{ sourceID := 0, targetID := 1 }] ∧
    s.world.received = (s.world.sent ++ s.link.state.getSlot s.link.currentCycle ++
      s.link.state.pendingPackets).map PacketWithCycle.packet := by
  obtain ⟨start,connected_,safe⟩ := buffered_link_safe 1 1 (by decide) (by decide)
  obtain rfl : connected 1 1 (by decide) (by decide) = start :=
    Option.some.inj ((connect_eq (by decide) (by decide)).symm.trans connected_)
  let pkt : Packet := { sourceID := 0, targetID := 1 }
  let actions : List LinkAction := [.upstream (.send ⟨0,pkt⟩),.upstream (.markDone 0),.downstream (.updateReady 0 true),
    .downstream (.updateReady 1 false),.tick 1,.tick 1]
  have packets : (runActions (LinkSession.step linkType) (fun _ _ => True) actions (connected 1 1 (by decide) (by decide))).map
      (fun s => (s.world.sent,s.world.received)) = some ([],[pkt]) := by decide +kernel
  obtain ⟨s,ran,both⟩ := Option.map_eq_some_iff.mp packets
  obtain ⟨sent,received⟩ := Prod.mk.inj both
  exact ⟨s,sent,received,(safe s (reaches_runActions actions ran)).2.2⟩

end LinkSession
end FlowSim.Links
