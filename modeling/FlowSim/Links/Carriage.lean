import FlowSim.AheadPort.Carriage
import FlowSim.Links.Conduct

/-!
The packets that a link carries. What it receives upstream it holds until it has sent it
downstream, for either link type: `CarriesOn` says this of the way a type processes a cycle, and
`carries_linkAdvanceTo` of any stretch of time.
-/
namespace FlowSim.Links
open FlowSim.Lib FlowSim.AheadPort
set_option linter.unusedSimpArgs false

/-- Packets without the cycles for which they are stamped. -/
def unstamped (pkts : List PacketWithCycle) : Multiset Packet := (pkts.map PacketWithCycle.packet : List Packet)

@[simp] theorem unstamped_nil : unstamped [] = 0 := rfl

theorem unstamped_cons (pwc : PacketWithCycle) (pkts : List PacketWithCycle) :
    unstamped (pwc :: pkts) = unstamped pkts + {pwc.packet} := by
  rw [unstamped,List.map_cons,← Multiset.cons_coe,← Multiset.singleton_add,add_comm]
  rfl

@[simp] theorem unstamped_append (before after : List PacketWithCycle) :
    unstamped (before ++ after) = unstamped before + unstamped after := by
  rw [unstamped,List.map_append,← Multiset.coe_add]
  rfl

theorem mem_unstamped {pkts : List PacketWithCycle} {pwc : PacketWithCycle} (member : pwc ∈ pkts) : pwc.packet ∈ unstamped pkts :=
  Multiset.mem_coe.mpr (List.mem_map_of_mem member)

section
variable {may : LinkEnd → Packet → Prop} {a : Account (Multiset Packet)} {start rest : Multiset Packet} {cycle : Nat}

/-- What is received upstream may be sent downstream. -/
def Through (may : LinkEnd → Packet → Prop) : Prop := ∀ pkt, may .upstream pkt → may .downstream pkt

theorem keeps_atEnd_carrying {α : Type} {R : Account (Multiset Packet) → α → Prop} {side : LinkEnd} {p : Prog portInterface α}
    (keeps : Keeps (carrying (may side)) p R a) : Keeps (carryingEach may) (atEnd side p) R a := by
  rw [atEnd_eq]
  exact keeps_inside_carrying may keeps

/-! ### Buffered links -/

namespace BufferedLinkType

/-- The packets in the slots and behind them. -/
def packets (h : BufferedLinkType) : Multiset Packet := unstamped h.slots.flatten + unstamped h.pendingPackets

/-- The slot of a cycle and everything else. -/
theorem packets_slot (h : BufferedLinkType) (cycle : Nat) : ∃ rest, h.packets = rest + unstamped (h.getSlot cycle) ∧
    ∀ pkts, (h.updateSlot cycle pkts).packets = rest + unstamped pkts := by
  have inside := h.slotIndex_lt cycle
  have slot : h.getSlot cycle = h.slots[h.slotIndex cycle] := by
    rw [getSlot,List.getD_eq_getElem?_getD,List.getElem?_eq_getElem inside,Option.getD_some]
  refine ⟨unstamped (h.slots.take (h.slotIndex cycle)).flatten + unstamped (h.slots.drop (h.slotIndex cycle + 1)).flatten +
    unstamped h.pendingPackets,?_,fun pkts => ?_⟩
  · have split : h.slots = h.slots.take (h.slotIndex cycle) ++ h.getSlot cycle :: h.slots.drop (h.slotIndex cycle + 1) := by
      rw [slot,List.getElem_cons_drop,List.take_append_drop]
    have flat : unstamped h.slots.flatten = _ := congrArg (fun slots => unstamped (List.flatten slots)) split
    rw [packets,flat,List.flatten_append,List.flatten_cons,unstamped_append,unstamped_append]
    abel
  · have slots : (h.updateSlot cycle pkts).slots =
        h.slots.take (h.slotIndex cycle) ++ pkts :: h.slots.drop (h.slotIndex cycle + 1) := by
      show h.slots.set (h.slotIndex cycle) pkts = _
      rw [List.set_eq_take_append_cons_drop,if_pos inside]
    rw [packets,slots,List.flatten_append,List.flatten_cons,unstamped_append,unstamped_append]
    show _ + unstamped h.pendingPackets = _
    abel

theorem packets_place {h h' : BufferedLinkType} {pwc : PacketWithCycle} (placed : h.place cycle pwc = some h') :
    h'.packets = h.packets + {pwc.packet} := by
  unfold place at placed
  split_ifs at placed
  · unfold addToSlot at placed
    split_ifs at placed
    obtain rfl := Option.some.inj placed
    obtain ⟨rest,before,after⟩ := h.packets_slot pwc.cycle
    rw [after,before,unstamped_append,add_assoc]
    rfl
  · obtain rfl := Option.some.inj placed
    show _ + unstamped (h.pendingPackets ++ [pwc]) = _
    rw [unstamped_append,← add_assoc]
    rfl

theorem packets_placeAll : ∀ {pkts : List PacketWithCycle} {h h' : BufferedLinkType}, pkts.foldlM (place cycle) h = some h' →
    h'.packets = h.packets + unstamped pkts
  | [], h, h', placed => by
    obtain rfl := Option.some.inj placed
    rw [unstamped_nil,add_zero]
  | pwc :: pkts, h, h', placed => by
    rw [List.foldlM_cons] at placed
    obtain ⟨middle,first,others⟩ := Option.bind_eq_some_iff.mp placed
    rw [packets_placeAll others,packets_place first,unstamped_cons]
    abel

/-- Everything that is taken in is held. -/
theorem packets_takeIn {h h' : BufferedLinkType} {incoming : List Packet} (taken : h.takeIn cycle incoming = some h') :
    h'.packets = h.packets + (incoming : Multiset Packet) := by
  unfold takeIn at taken
  obtain ⟨middle,waiting,fresh⟩ := Option.bind_eq_some_iff.mp taken
  have retargeted : unstamped (h.pendingPackets.map (retarget cycle)) = unstamped h.pendingPackets := by
    rw [unstamped,packet_retarget]
    rfl
  have stampedNow : unstamped (incoming.map (PacketWithCycle.mk cycle)) = (incoming : Multiset Packet) := by
    rw [unstamped,List.map_map]
    exact congrArg _ (List.map_id _)
  rw [packets_placeAll fresh,packets_placeAll waiting,retargeted,stampedNow]
  show unstamped h.slots.flatten + 0 + _ + _ = _
  rw [add_zero]
  rfl

/-- What is refused is left. -/
theorem carries_sendAll : ∀ (pkts : List PacketWithCycle) (rest : Multiset Packet) {a : Account (Multiset Packet)},
    a.Balances start (rest + unstamped pkts) → (∀ pwc ∈ pkts, may .downstream pwc.packet) →
    Keeps (carrying (may .downstream)) (sendAll cycle pkts)
      (fun a pending => a.Balances start (rest + unstamped pending) ∧ pending.Sublist pkts) a
  | [], _, _, balances, _ => ⟨balances,.slnil⟩
  | pwc :: pkts, rest, a, balances, allowed => by
    rw [sendAll]
    rw [unstamped_cons,← add_assoc] at balances
    refine (keeps_trySend_carrying pwc balances (allowed pwc List.mem_cons_self) cycle).bind ?_
    intro a sent balances
    have later : ∀ pwc ∈ pkts, may .downstream pwc.packet := fun pwc member => allowed pwc (List.mem_cons_of_mem _ member)
    cases sent with
    | true =>
      refine (carries_sendAll pkts rest balances later).bind ?_
      rintro a pending ⟨balances,part⟩
      exact ⟨balances,part.cons pwc⟩
    | false =>
      refine (carries_sendAll pkts (rest + {pwc.packet}) (balances.congr (add_right_comm ..)) later).bind ?_
      rintro a pending ⟨balances,part⟩
      refine ⟨balances.congr ?_,part.cons_cons pwc⟩
      show _ = rest + unstamped (pwc :: pending)
      rw [unstamped_cons]
      abel

theorem carries_sendSlot (through : Through may) (h : BufferedLinkType) (balances : a.Balances start h.packets)
    (placed : ∀ pkt ∈ h.packets, may .upstream pkt) : Keeps (carryingEach may) (h.sendSlot cycle)
      (fun a h' => a.Balances start h'.packets ∧ ∀ pkt ∈ h'.packets, may .upstream pkt) a := by
  obtain ⟨rest,before,after⟩ := h.packets_slot cycle
  unfold sendSlot
  refine (keeps_atEnd_carrying (keeps_isReady_carrying balances cycle)).bind ?_
  intro a ready balances
  cases ready with
  | true =>
    have slot : ∀ pwc ∈ h.getSlot cycle, may .downstream pwc.packet := by
      intro pwc member
      refine through _ (placed _ ?_)
      rw [before]
      exact Multiset.mem_add.mpr (.inr (mem_unstamped member))
    rw [before] at balances
    refine (keeps_atEnd_carrying (carries_sendAll (h.getSlot cycle) rest balances slot)).bind ?_
    rintro a pending ⟨balances,part⟩
    have left : ∀ pkt ∈ rest + unstamped pending, may .upstream pkt := by
      intro pkt member
      refine placed pkt ?_
      rw [before]
      rcases Multiset.mem_add.mp member with other | waits
      · exact Multiset.mem_add.mpr (.inl other)
      · obtain ⟨pwc,isPending,rfl⟩ := List.mem_map.mp (Multiset.mem_coe.mp waits)
        exact Multiset.mem_add.mpr (.inr (mem_unstamped (part.subset isPending)))
    split
    · next none_left =>
      obtain rfl := List.isEmpty_iff.mp none_left
      rw [← after] at balances left
      exact ⟨balances,left⟩
    · rw [← after] at balances left
      exact ⟨balances,left⟩
  | false => exact ⟨balances,placed⟩

theorem carries_process (through : Through may) (h : BufferedLinkType) (targetCycle : Nat) (incoming : List Packet)
    (balances : a.Balances start (h.packets + (incoming : Multiset Packet))) (placed : ∀ pkt ∈ h.packets, may .upstream pkt)
    (received : ∀ pkt ∈ incoming, may .upstream pkt) : Keeps (carryingEach may) (h.process cycle targetCycle incoming)
      (fun a result => ∀ h', result = some h' → a.Balances start h'.packets ∧ ∀ pkt ∈ h'.packets, may .upstream pkt) a := by
  unfold process
  split
  · intro h' result
    cases result
  · next middle taken =>
    rw [← packets_takeIn taken] at balances
    have placed : ∀ pkt ∈ middle.packets, may .upstream pkt := by
      intro pkt member
      rw [packets_takeIn taken] at member
      rcases Multiset.mem_add.mp member with old | new
      · exact placed pkt old
      · exact received pkt (Multiset.mem_coe.mp new)
    refine (carries_sendSlot through middle balances placed).bind ?_
    rintro a h' ⟨balances,placed⟩
    refine (keeps_atEnd_carrying (keeps_updateReady_carrying balances _ _)).bind ?_
    intro a _ balances h'' result
    obtain rfl := Option.some.inj result
    exact ⟨balances,placed⟩

end BufferedLinkType

/-! ### Bufferless links -/

namespace BufferlessLinkType

/-- The packets that wait to be offered again. -/
def packets (h : BufferlessLinkType) : Multiset Packet := (h.pending.entries.map fun entry => unstamped entry.2).sum

/-- The packets that wait for a cycle and all others. -/
theorem packets_erase (h : BufferlessLinkType) (cycle : Nat) :
    h.packets = packets ⟨h.pending.erase cycle⟩ + unstamped (h.waiting cycle) := by
  by_cases waits : cycle ∈ h.pending.entries.keys
  · obtain ⟨pkts,before,after,_,entries,erased⟩ := List.exists_of_kerase waits
    have found : h.waiting cycle = pkts := by
      have member : ⟨cycle,pkts⟩ ∈ h.pending.entries := by
        rw [entries]
        exact List.mem_append_right _ List.mem_cons_self
      rw [waiting,AList.mem_lookup_iff.mpr member,Option.getD_some]
    have erased : (h.pending.erase cycle).entries = before ++ after := erased
    rw [found,packets,packets,erased,entries]
    simp only [List.map_append,List.map_cons,List.sum_append,List.sum_cons]
    abel
  · have none_ : h.waiting cycle = [] := by
      rw [waiting,AList.lookup_eq_none.mpr waits,Option.getD_none]
    have same : (h.pending.erase cycle).entries = h.pending.entries := List.kerase_of_notMem_keys waits
    rw [none_,unstamped_nil,add_zero,packets,packets,same]

theorem packets_addToPending (h : BufferlessLinkType) (cycle : Nat) (pkt : Packet) :
    (h.addToPending cycle pkt).packets = h.packets + {pkt} := by
  have entries : (h.addToPending cycle pkt).pending.entries =
      ⟨cycle,h.waiting cycle ++ [⟨cycle,pkt⟩]⟩ :: (h.pending.erase cycle).entries := AList.entries_insert
  rw [h.packets_erase cycle,packets,entries,List.map_cons,List.sum_cons,unstamped_append,packets]
  show _ + {pkt} + _ = _
  abel

/-- A packet that is refused waits. -/
theorem carries_offer (h : BufferlessLinkType) (pkt : Packet) (balances : a.Balances start (rest + h.packets + {pkt}))
    (placed : ∀ pkt ∈ h.packets, may .upstream pkt) (allowed : may .upstream pkt) (through : Through may) :
    Keeps (carrying (may .downstream)) (offer cycle h pkt)
      (fun a h' => a.Balances start (rest + h'.packets) ∧ ∀ pkt ∈ h'.packets, may .upstream pkt) a := by
  unfold offer sendPacket
  refine (keeps_trySend_carrying ⟨cycle,pkt⟩ balances (through pkt allowed) cycle).bind ?_
  intro a sent balances
  cases sent with
  | true => exact ⟨balances,placed⟩
  | false =>
    refine ⟨?_,fun other member => ?_⟩
    · rw [packets_addToPending,← add_assoc]
      exact balances
    · rw [packets_addToPending] at member
      rcases Multiset.mem_add.mp member with old | new
      · exact placed other old
      · rw [Multiset.mem_singleton.mp new]
        exact allowed

theorem carries_offerAll (through : Through may) : ∀ (pkts : List Packet) (h : BufferlessLinkType) {a : Account (Multiset Packet)},
    a.Balances start (rest + h.packets + (pkts : Multiset Packet)) → (∀ pkt ∈ h.packets, may .upstream pkt) →
    (∀ pkt ∈ pkts, may .upstream pkt) → Keeps (carrying (may .downstream)) (pkts.foldlM (offer cycle) h)
      (fun a h' => a.Balances start (rest + h'.packets) ∧ ∀ pkt ∈ h'.packets, may .upstream pkt) a
  | [], h, a, balances, placed, _ => ⟨balances.congr (add_zero _),placed⟩
  | pkt :: pkts, h, a, balances, placed, allowed => by
    rw [List.foldlM_cons]
    have here : a.Balances start (rest + (pkts : Multiset Packet) + h.packets + {pkt}) := by
      refine balances.congr ?_
      rw [← Multiset.cons_coe,← Multiset.singleton_add]
      abel
    refine (carries_offer h pkt here placed (allowed pkt List.mem_cons_self) through).bind ?_
    rintro a h' ⟨balances,placed⟩
    refine carries_offerAll through pkts h' (balances.congr ?_) placed fun pkt member => allowed pkt (List.mem_cons_of_mem _ member)
    exact add_right_comm ..

theorem carries_retry (through : Through may) (h : BufferlessLinkType) (balances : a.Balances start (rest + h.packets))
    (placed : ∀ pkt ∈ h.packets, may .upstream pkt) : Keeps (carrying (may .downstream)) (h.retry cycle)
      (fun a h' => a.Balances start (rest + h'.packets) ∧ ∀ pkt ∈ h'.packets, may .upstream pkt) a := by
  unfold retry
  split_ifs
  · exact ⟨balances,placed⟩
  · have split := h.packets_erase cycle
    refine carries_offerAll through _ _ (balances.congr ?_) ?_ ?_
    · rw [split,← add_assoc]
      rfl
    · intro pkt member
      refine placed pkt ?_
      rw [split]
      exact Multiset.mem_add.mpr (.inl member)
    · intro pkt member
      refine placed pkt ?_
      rw [split]
      exact Multiset.mem_add.mpr (.inr (Multiset.mem_coe.mpr member))

theorem carries_process (through : Through may) (h : BufferlessLinkType) (targetCycle : Nat) (incoming : List Packet)
    (balances : a.Balances start (h.packets + (incoming : Multiset Packet))) (placed : ∀ pkt ∈ h.packets, may .upstream pkt)
    (received : ∀ pkt ∈ incoming, may .upstream pkt) : Keeps (carryingEach may) (h.process cycle targetCycle incoming)
      (fun a result => ∀ h', result = some h' → a.Balances start h'.packets ∧ ∀ pkt ∈ h'.packets, may .upstream pkt) a := by
  unfold process
  rw [add_comm] at balances
  refine (keeps_atEnd_carrying (carries_retry through h balances placed)).bind ?_
  rintro a h₁ ⟨balances,placed⟩
  have balances : a.Balances start (0 + h₁.packets + (incoming : Multiset Packet)) := by
    refine balances.congr ?_
    rw [zero_add,add_comm]
  refine (keeps_atEnd_carrying (carries_offerAll through incoming h₁ balances placed received)).bind ?_
  rintro a h₂ ⟨balances,placed⟩
  refine (keeps_atEnd_carrying (keeps_updateReady_carrying balances _ _)).bind ?_
  intro a _ balances h' result
  obtain rfl := Option.some.inj result
  exact ⟨balances.congr (zero_add _),placed⟩

end BufferlessLinkType

/-! ### A stretch of time -/

/-- A link type processes a cycle so that all packets stay accounted for. -/
def CarriesOn {σ : Type} (t : LinkType σ) (held : σ → Multiset Packet) (may : LinkEnd → Packet → Prop) : Prop :=
  ∀ (state : σ) (cycle targetCycle : Nat) (incoming : List Packet) (start : Multiset Packet) (a : Account (Multiset Packet)),
    a.Balances start (held state + (incoming : Multiset Packet)) → (∀ pkt ∈ held state, may .upstream pkt) →
    (∀ pkt ∈ incoming, may .upstream pkt) → Keeps (carryingEach may) (t.process state cycle targetCycle incoming)
      (fun a result => ∀ state', result = some state' → a.Balances start (held state') ∧ ∀ pkt ∈ held state', may .upstream pkt) a

variable {σ : Type} {t : LinkType σ} {held : σ → Multiset Packet}

theorem carries_linkTick (carriesOn : CarriesOn t held may) (l : Link σ) (cycle targetCycle : Nat)
    (balances : a.Balances start (held l.state)) (placed : ∀ pkt ∈ held l.state, may .upstream pkt) :
    Keeps (carryingEach may) (l.tick t cycle targetCycle) (fun a result => ∀ l', result = some l' →
      a.Balances start (held l'.state) ∧ ∀ pkt ∈ held l'.state, may .upstream pkt) a := by
  rw [Link.tick]
  have receives : Keeps (carryingEach may) (l.incoming cycle) (fun a incoming =>
      a.Balances start (held l.state + (incoming : Multiset Packet)) ∧ ∀ pkt ∈ incoming, may .upstream pkt) a := by
    unfold Link.incoming
    split_ifs
    · exact keeps_atEnd_carrying (keeps_receive_carrying balances _)
    · exact ⟨balances.congr (add_zero _).symm,by simp⟩
  refine receives.bind ?_
  rintro a incoming ⟨balances,received⟩
  refine (carriesOn l.state cycle targetCycle incoming start a balances placed received).bind ?_
  rintro a (_ | state) after
  · intro l' result
    cases result
  · obtain ⟨balances,placed⟩ := after state rfl
    refine (keeps_atEnd_carrying (keeps_markDone_carrying balances cycle)).bind ?_
    intro a _ balances l' result
    obtain rfl := Option.some.inj result
    exact ⟨balances,placed⟩

theorem carries_tickCycles (carriesOn : CarriesOn t held may) (targetCycle : Nat) : ∀ (cycles : Nat) (l : Link σ)
    {a : Account (Multiset Packet)}, a.Balances start (held l.state) → (∀ pkt ∈ held l.state, may .upstream pkt) →
    Keeps (carryingEach may) (l.tickCycles t targetCycle cycles) (fun a result => ∀ l', result = some l' →
      a.Balances start (held l'.state) ∧ ∀ pkt ∈ held l'.state, may .upstream pkt) a
  | 0, l, a, balances, placed => by
    intro l' result
    obtain rfl := Option.some.inj result
    exact ⟨balances,placed⟩
  | cycles + 1, l, a, balances, placed => by
    rw [Link.tickCycles]
    refine (carries_linkTick carriesOn l _ targetCycle balances placed).bind ?_
    rintro a (_ | l₁) after
    · intro l' result
      cases result
    · obtain ⟨balances,placed⟩ := after l₁ rfl
      exact carries_tickCycles carriesOn targetCycle cycles _ balances placed

/-- A link accounts for its packets. -/
theorem carries_linkAdvanceTo (carriesOn : CarriesOn t held may) (l : Link σ) (targetCycle : Nat)
    (balances : a.Balances start (held l.state)) (placed : ∀ pkt ∈ held l.state, may .upstream pkt) :
    Keeps (carryingEach may) (l.advanceTo t targetCycle) (fun a result => ∀ l', result = some l' →
      a.Balances start (held l'.state) ∧ ∀ pkt ∈ held l'.state, may .upstream pkt) a :=
  carries_tickCycles carriesOn targetCycle _ l balances placed

end
end FlowSim.Links
