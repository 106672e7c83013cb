import FlowSim.AheadPort.Wiring
import FlowSim.Links.Safety
import FlowSim.Links.BufferlessLinkType

/-!
What a link does at its ports. Upstream it decides the cycles in order; downstream it stamps a
packet with a cycle it has still to mark done, or with one that was refused. `Conducts` asks
this of the way a link type processes a cycle, and both link types satisfy it.
-/
namespace FlowSim.Links
open FlowSim.Lib FlowSim.AheadPort
set_option linter.unusedSimpArgs false

theorem atEnd_eq {α : Type} (side : LinkEnd) (p : Prog portInterface α) : atEnd side p = p.inside side := by
  induction p with
  | done value => rfl
  | call op next ih =>
    rw [atEnd,Prog.inside]
    congr 1
    funext answer
    exact ih answer

/-- What a link is at either end. -/
def linkRole : LinkEnd → Discipline portInterface EndRecord
  | .upstream => deciding
  | .downstream => sending SenderMay

/-- A link works at both ends. -/
abbrev linkConduct : Discipline linkPorts (LinkEnd → EndRecord) := Discipline.each (fun _ => True) linkRole

/-! ### Either end -/

/-- The cycles up to the given one are decided, and later ones only as promises. -/
structure DecidedTo (cycle : Nat) (r : EndRecord) : Prop where
  decided : cycle + 1 ≤ r.decisions.length
  promised : ∀ i, cycle < i → i < r.decisions.length → r.Promised i

/-- Neither the cycle nor a later one was marked or refused. -/
structure Unmarked (cycle : Nat) (s : EndRecord) : Prop where
  marked : s.marked < cycle
  refused : s.refused < cycle

section
variable {cycle : Nat} {r s : EndRecord} {α : Type} {g : LinkEnd → EndRecord}

theorem keeps_upstream {p : Prog portInterface α} {R : EndRecord → α → Prop} (keeps : Keeps deciding p R (g .upstream)) :
    Keeps linkConduct (atEnd .upstream p)
      (fun g' value => R (g' .upstream) value ∧ g' .downstream = g .downstream) g := by
  rw [atEnd_eq]
  refine (keeps_inside (p := LinkEnd.upstream) (D := linkRole) trivial keeps).mono ?_
  rintro g' value ⟨result,others⟩
  exact ⟨result,others .downstream (by decide)⟩

theorem keeps_downstream {p : Prog portInterface α} {R : EndRecord → α → Prop}
    (keeps : Keeps (sending SenderMay) p R (g .downstream)) :
    Keeps linkConduct (atEnd .downstream p)
      (fun g' value => R (g' .downstream) value ∧ g' .upstream = g .upstream) g := by
  rw [atEnd_eq]
  refine (keeps_inside (p := LinkEnd.downstream) (D := linkRole) trivial keeps).mono ?_
  rintro g' value ⟨result,others⟩
  exact ⟨result,others .upstream (by decide)⟩

theorem keeps_receive (cycle : Nat) (r : EndRecord) :
    Keeps deciding (receive cycle) (fun r' _ => r'.decisions = r.decisions) r :=
  ⟨trivial,fun _ _ => ⟨trivial,fun _ _ => ⟨le_refl _,fun _ _ => rfl⟩⟩⟩

/-- The next cycle is decided, unless it was promised. -/
theorem keeps_signal (ready : Bool) (upTo : DecidedTo cycle r) :
    Keeps deciding (updateReady (cycle + 1) ready) (fun r' _ => DecidedTo (cycle + 1) r') r := by
  have decided := upTo.decided
  by_cases next : cycle + 1 = r.decisions.length
  · refine ⟨.inl next,fun _ _ => ?_⟩
    show DecidedTo (cycle + 1) (r.grow (.updateReady (cycle + 1) ready) ())
    simp only [EndRecord.grow,if_pos next]
    constructor
    · rw [List.length_append,List.length_singleton]
      omega
    · intro i later inside
      rw [List.length_append,List.length_singleton] at inside
      omega
  · refine ⟨.inr (upTo.promised _ (Nat.lt_succ_self _) (by omega)),fun _ _ => ?_⟩
    show DecidedTo (cycle + 1) (r.grow (.updateReady (cycle + 1) ready) ())
    simp only [EndRecord.grow,if_neg next]
    exact ⟨by omega,fun i later inside => upTo.promised i (by omega) inside⟩

end

/-! ### Link types -/

/-- However a link type processes a cycle, it does at its ends what it may. `Holds` is what it
    keeps from cycle to cycle, given the last cycle that was refused. -/
def LinkType.Conducts {σ : Type} (linkType : LinkType σ) (Holds : σ → Nat → Int → Prop) : Prop :=
  ∀ (state : σ) (cycle targetCycle : Nat) (incoming : List Packet) (g : LinkEnd → EndRecord),
    DecidedTo cycle (g .upstream) → Unmarked cycle (g .downstream) → Holds state cycle (g .downstream).refused →
      Keeps linkConduct (linkType.process state cycle targetCycle incoming)
        (fun g' result => ∃ state', result = some state' ∧ DecidedTo (cycle + 1) (g' .upstream) ∧
          (g' .downstream).marked < cycle ∧ (g' .downstream).refused ≤ cycle ∧
          Holds state' (cycle + 1) (g' .downstream).refused) g

namespace Link
variable {σ : Type} {linkType : LinkType σ} {Holds : σ → Nat → Int → Prop} {l : Link σ} {g : LinkEnd → EndRecord}

/-- What holds of a link between two cycles. -/
structure Standing (Holds : σ → Nat → Int → Prop) (l : Link σ) (g : LinkEnd → EndRecord) : Prop where
  delayed : 0 < l.latency
  decided : DecidedTo l.currentCycle (g .upstream)
  unmarked : Unmarked l.currentCycle (g .downstream)
  marked : (g .downstream).marked + 1 = l.currentCycle
  holds : Holds l.state l.currentCycle (g .downstream).refused

theorem keeps_tick (conducts : linkType.Conducts Holds) (targetCycle : Nat) (standing : l.Standing Holds g) :
    Keeps linkConduct (l.tick linkType l.currentCycle targetCycle)
      (fun g' result => ∃ l', result = some l' ∧ l'.currentCycle = l.currentCycle ∧
        Standing Holds { l' with currentCycle := l.currentCycle + 1 } g') g := by
  have received : Keeps linkConduct (l.incoming l.currentCycle)
      (fun g' _ => (g' .upstream).decisions = (g .upstream).decisions ∧ g' .downstream = g .downstream) g := by
    rw [incoming]
    split_ifs
    · exact keeps_upstream (keeps_receive _ _)
    · exact ⟨rfl,rfl⟩
  rw [tick]
  refine received.bind ?_
  rintro g₁ pkts ⟨decisions,same⟩
  have decided : DecidedTo l.currentCycle (g₁ .upstream) := by
    have before := standing.decided
    constructor
    · rw [decisions]
      exact before.decided
    · intro i later inside
      rw [decisions] at inside
      unfold EndRecord.Promised
      rw [decisions]
      exact before.promised i later inside
  have processed := conducts l.state l.currentCycle targetCycle pkts g₁ decided (same ▸ standing.unmarked) (same ▸ standing.holds)
  refine processed.bind ?_
  rintro g₂ _ ⟨state,rfl,decided',marked,refused,holds⟩
  have done : Keeps (sending SenderMay) (markDone l.currentCycle)
      (fun s' _ => s' = { g₂ .downstream with marked := (l.currentCycle : Int) }) (g₂ .downstream) :=
    ⟨marked,fun _ _ => rfl⟩
  refine (keeps_downstream done).bind ?_
  rintro g₃ _ ⟨now,same'⟩
  refine ⟨_,rfl,rfl,standing.delayed,?_,?_,?_,?_⟩
  · rw [same']
    exact decided'
  · rw [now]
    exact ⟨by dsimp only; omega,by dsimp only; omega⟩
  · rw [now]
    rfl
  · rw [now]
    exact holds

theorem keeps_tickCycles (conducts : linkType.Conducts Holds) (targetCycle : Nat) : ∀ (cycles : Nat) {l : Link σ}
    {g : LinkEnd → EndRecord}, l.Standing Holds g → Keeps linkConduct (l.tickCycles linkType targetCycle cycles)
      (fun g' result => ∃ l', result = some l' ∧ l'.currentCycle = l.currentCycle + cycles ∧ l'.Standing Holds g') g
  | 0, l, g, standing => ⟨l,rfl,rfl,standing⟩
  | cycles + 1, l, g, standing => by
    rw [tickCycles]
    refine (keeps_tick conducts targetCycle standing).bind ?_
    rintro g₁ _ ⟨l₁,rfl,current,standing'⟩
    rw [← current] at standing'
    refine (keeps_tickCycles conducts targetCycle cycles standing').mono ?_
    rintro g' _ ⟨l',rfl,atEnd,ended⟩
    have atEnd : l'.currentCycle = l₁.currentCycle + 1 + cycles := atEnd
    exact ⟨l',rfl,by omega,ended⟩

/-- A link that advances does at its ports what it may, and stands again at the cycle after the target. -/
theorem keeps_advanceTo (conducts : linkType.Conducts Holds) (targetCycle : Nat) (standing : l.Standing Holds g) :
    Keeps linkConduct (l.advanceTo linkType targetCycle)
      (fun g' result => ∃ l', result = some l' ∧ l'.currentCycle = max l.currentCycle (targetCycle + 1) ∧ l'.Standing Holds g') g := by
  refine (keeps_tickCycles conducts targetCycle _ standing).mono ?_
  rintro g' _ ⟨l',rfl,current,ended⟩
  exact ⟨l',rfl,by omega,ended⟩

end Link

/-! ### The buffered link type -/

namespace BufferedLinkType
variable {h : BufferedLinkType} {cycle : Nat} {s : EndRecord}

/-- What waits in the slot of the cycle was stamped with a cycle that has been refused since. -/
structure Waits (h : BufferedLinkType) (cycle : Nat) (refused : Int) : Prop where
  room : (h.getSlot cycle).length ≤ h.bandwidth
  alone : h.Alone cycle
  due : ∀ pkt ∈ h.pendingPackets, pkt.cycle ≤ cycle
  stale : ∀ pwc ∈ h.getSlot cycle, (pwc.cycle : Int) ≤ refused

/-- Sending in a granted cycle what is stamped with it, or with a refused cycle. -/
theorem conducts_sendAll : ∀ (pkts : List PacketWithCycle) {s : EndRecord}, Unmarked cycle s → s.granted = cycle →
    (cycle : Int) ≤ s.asked → (∀ pwc ∈ pkts, pwc.cycle = cycle ∨ (pwc.cycle : Int) ≤ s.refused) →
      Keeps (sending SenderMay) (sendAll cycle pkts)
        (fun s' pending => pending = [] ∧ s'.marked = s.marked ∧ s'.refused = s.refused) s
  | [], _, _, _, _, _ => ⟨rfl,rfl,rfl⟩
  | pwc :: pkts, s, unmarked, granted, asked, stamps => by
    obtain ⟨here,others⟩ := List.forall_mem_cons.mp stamps
    rw [sendAll]
    refine ⟨trivial,fun ready learned => ?_⟩
    obtain rfl : ready = true := learned asked
    have grown : (sending SenderMay).grow s (.isReady cycle) true = { s with asked := max s.asked cycle, granted := (cycle : Int) } := rfl
    rw [grown]
    have marked := unmarked.marked
    have refused := unmarked.refused
    refine ⟨?_,fun _ _ => ?_⟩
    · show s.marked < pwc.cycle ∨ ((pwc.cycle : Int) ≤ s.refused ∧ s.refused < (cycle : Int))
      rcases here with now | old
      · left
        rw [now]
        exact marked
      · exact .inr ⟨old,refused⟩
    · generalize sent : (sending SenderMay).grow { s with asked := max s.asked cycle, granted := (cycle : Int) } (.send pwc) () = s'
      have parts : s'.marked = s.marked ∧ s'.refused = s.refused ∧ s'.granted = cycle ∧ s'.asked = max s.asked cycle := by
        rw [← sent]
        simp only [sending,EndRecord.grow]
        split_ifs <;> exact ⟨rfl,rfl,rfl,rfl⟩
      obtain ⟨marked',refused',granted',asked'⟩ := parts
      refine (conducts_sendAll pkts ⟨by omega,by omega⟩ granted' (by omega) (by rwa [refused'])).bind ?_
      rintro s₂ _ ⟨rfl,marked₂,refused₂⟩
      exact ⟨rfl,marked₂.trans marked',refused₂.trans refused'⟩

/-- The slot is sent in a granted cycle, and stays in a refused one. -/
theorem conducts_sendSlot {g : LinkEnd → EndRecord} (unmarked : Unmarked cycle (g .downstream))
    (stamps : ∀ pwc ∈ h.getSlot cycle, pwc.cycle = cycle ∨ (pwc.cycle : Int) ≤ (g .downstream).refused) :
    Keeps linkConduct (h.sendSlot cycle)
      (fun g' h' => g' .upstream = g .upstream ∧ (g' .downstream).marked = (g .downstream).marked ∧ ∃ ready,
        h' = h.handOn cycle ready ∧ (g' .downstream).refused = if ready then (g .downstream).refused else cycle) g := by
  rw [sendSlot]
  have asks : Keeps (sending SenderMay) (isReady cycle) (fun s' ready => s' = (g .downstream).grow (.isReady cycle) ready)
      (g .downstream) := ⟨trivial,fun _ _ => rfl⟩
  refine (keeps_downstream asks).bind ?_
  rintro g₁ ready ⟨asked,same⟩
  cases ready with
  | true =>
    rw [if_pos rfl]
    have granted : Keeps (sending SenderMay) (sendAll cycle (h.getSlot cycle))
        (fun s' pending => pending = [] ∧ s'.marked = (g .downstream).marked ∧ s'.refused = (g .downstream).refused)
        (g₁ .downstream) := by
      rw [asked]
      exact conducts_sendAll (h.getSlot cycle) (s := (g .downstream).grow (.isReady cycle) true)
        ⟨unmarked.marked,unmarked.refused⟩ rfl (le_max_right _ _) stamps
    refine (keeps_downstream granted).bind ?_
    rintro g₂ _ ⟨⟨rfl,marked,refused⟩,same'⟩
    exact ⟨same'.trans same,marked,true,rfl,refused⟩
  | false =>
    refine ⟨same,?_,false,rfl,?_⟩
    · rw [asked]
      rfl
    · rw [asked]
      rfl

/-- What is placed is stamped with the cycle. -/
theorem Waits.takeIn {refused : Int} (waits : h.Waits cycle refused) (incoming : List Packet) :
    ∃ h', h.takeIn cycle incoming = some h' ∧ Settled cycle h' ∧
      ∀ pwc ∈ h'.getSlot cycle, pwc.cycle = cycle ∨ (pwc.cycle : Int) ≤ refused := by
  obtain ⟨h',placed,held,settled,-,-,-⟩ := takeIn_spec incoming waits.room waits.alone waits.due
  refine ⟨h',placed,settled,fun pwc member => ?_⟩
  have all : pwc ∈ h.getSlot cycle ++ h.pendingPackets.map (retarget cycle) ++ incoming.map (PacketWithCycle.mk cycle) :=
    held ▸ List.mem_append_left _ member
  rcases List.mem_append.mp all with before | fresh
  · rcases List.mem_append.mp before with old | waited
    · exact .inr (waits.stale pwc old)
    · obtain ⟨pkt,isPending,rfl⟩ := List.mem_map.mp waited
      have early := waits.due pkt isPending
      left
      unfold retarget
      split_ifs with late
      · rfl
      · omega
  · obtain ⟨_,_,rfl⟩ := List.mem_map.mp fresh
    exact .inl rfl

theorem conducts : linkType.Conducts Waits := by
  intro h cycle targetCycle incoming g decided unmarked waits
  obtain ⟨h',placed,settled,stamps⟩ := waits.takeIn incoming
  show Keeps linkConduct (h.process cycle targetCycle incoming) _ g
  unfold process
  rw [placed]
  refine (conducts_sendSlot unmarked stamps).bind ?_
  rintro g₁ h₁ ⟨same,marked,ready,rfl,refused⟩
  have marked_ := unmarked.marked
  have refused_ := unmarked.refused
  have signalled := keeps_signal ((h'.handOn cycle ready).checkSpace (cycle + 1)) decided
  rw [← same] at signalled
  refine (keeps_upstream signalled).bind ?_
  rintro g₂ _ ⟨decided',same'⟩
  have upTo : (g₁ .downstream).refused ≤ cycle := by
    rw [refused]
    split_ifs <;> omega
  refine ⟨_,rfl,decided',?_⟩
  rw [same']
  refine ⟨by omega,upTo,?_⟩
  constructor
  · rw [LinkSession.getSlot_handOn settled.alone,LinkSession.bandwidth_handOn]
    split_ifs
    · exact Nat.zero_le _
    · exact settled.room
  · exact LinkSession.alone_handOn settled.alone
  · rw [LinkSession.pendingPackets_handOn]
    intro pkt member
    rw [settled.due pkt member]
    exact Nat.le_succ cycle
  · rw [LinkSession.getSlot_handOn settled.alone,refused]
    cases ready with
    | true => simp
    | false =>
      intro pwc member
      simp only [Bool.false_eq_true,if_false] at member ⊢
      rcases stamps pwc member with now | old
      · rw [now]
      · omega

end BufferedLinkType

/-! ### The bufferless link type -/

namespace BufferlessLinkType
variable {cycle : Nat} {s : EndRecord}

theorem conducts_offer (h : BufferlessLinkType) (pkt : Packet) (marked : s.marked < cycle) (refused : s.refused ≤ cycle) :
    Keeps (sending SenderMay) (offer cycle h pkt) (fun s' _ => s'.marked < cycle ∧ s'.refused ≤ cycle) s := by
  refine ⟨trivial,fun ready _ => ?_⟩
  cases ready with
  | true =>
    refine ⟨.inl marked,fun _ _ => ?_⟩
    have parts : ∀ s₁ : EndRecord, ((sending SenderMay).grow s₁ (.send ⟨cycle,pkt⟩) ()).marked = s₁.marked ∧
        ((sending SenderMay).grow s₁ (.send ⟨cycle,pkt⟩) ()).refused = s₁.refused := by
      intro s₁
      simp only [sending,EndRecord.grow]
      split_ifs <;> exact ⟨rfl,rfl⟩
    obtain ⟨marked',refused'⟩ := parts ((sending SenderMay).grow s (.isReady cycle) true)
    refine ⟨?_,?_⟩
    · rw [marked']
      exact marked
    · rw [refused']
      exact refused
  | false => exact ⟨marked,le_refl _⟩

theorem conducts_offerAll : ∀ (pkts : List Packet) (h : BufferlessLinkType) {s : EndRecord}, s.marked < cycle → s.refused ≤ cycle →
    Keeps (sending SenderMay) (pkts.foldlM (offer cycle) h) (fun s' _ => s'.marked < cycle ∧ s'.refused ≤ cycle) s
  | [], _, _, marked, refused => ⟨marked,refused⟩
  | pkt :: pkts, h, s, marked, refused => by
    rw [List.foldlM_cons]
    refine (conducts_offer h pkt marked refused).bind ?_
    rintro s' h' ⟨marked',refused'⟩
    exact conducts_offerAll pkts h' marked' refused'

theorem conducts_retry (h : BufferlessLinkType) (marked : s.marked < cycle) (refused : s.refused ≤ cycle) :
    Keeps (sending SenderMay) (h.retry cycle) (fun s' _ => s'.marked < cycle ∧ s'.refused ≤ cycle) s := by
  rw [retry]
  split_ifs
  · exact ⟨marked,refused⟩
  · exact conducts_offerAll _ _ marked refused

/-- What a bufferless link keeps is stamped anew when it is offered. -/
theorem conducts : linkType.Conducts fun _ _ _ => True := by
  intro h cycle targetCycle incoming g decided unmarked _
  refine (keeps_downstream (conducts_retry h unmarked.marked unmarked.refused.le)).bind ?_
  rintro g₁ h₁ ⟨⟨marked₁,refused₁⟩,same₁⟩
  refine (keeps_downstream (conducts_offerAll incoming h₁ marked₁ refused₁)).bind ?_
  rintro g₂ h₂ ⟨⟨marked₂,refused₂⟩,same₂⟩
  have signalled := keeps_signal true decided
  rw [← same₂.trans same₁] at signalled
  refine (keeps_upstream signalled).bind ?_
  rintro g₃ _ ⟨decided',same₃⟩
  refine ⟨_,rfl,decided',?_⟩
  rw [same₃]
  exact ⟨marked₂,refused₂,trivial⟩

end BufferlessLinkType
end FlowSim.Links
