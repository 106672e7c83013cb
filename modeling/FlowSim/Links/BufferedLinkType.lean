import FlowSim.Links.Link

/-!
The buffered link type: a ring of slots addressed by the cycle less the back pressure so
far, and a backlog of packets that found no room in their slot.
-/
namespace FlowSim.Links
open FlowSim.Lib FlowSim.AheadPort
set_option linter.unusedSimpArgs false

/-- A buffered link type. The number of slots is the latency. -/
structure BufferedLinkType where
  slots : List (List PacketWithCycle)
  totalBackpressure : Nat
  latency : Nat
  bandwidth : Nat
  pendingPackets : List PacketWithCycle
  latency_pos : 0 < latency
  bandwidth_pos : 0 < bandwidth
  slots_length : slots.length = latency
deriving DecidableEq

namespace BufferedLinkType

def newBufferedLinkType (latency bandwidth : Nat) (pos : 0 < latency) (bandwidthPos : 0 < bandwidth) : BufferedLinkType where
  slots := List.replicate latency []
  totalBackpressure := 0
  latency := latency
  bandwidth := bandwidth
  pendingPackets := []
  latency_pos := pos
  bandwidth_pos := bandwidthPos
  slots_length := List.length_replicate

/-- The slot of a cycle; the remainder is brought into range when it is negative. -/
def slotIndex (h : BufferedLinkType) (cycle : Nat) : Nat :=
  ((((cycle : Int) - h.totalBackpressure).tmod h.latency + h.latency).tmod h.latency).toNat

def getSlot (h : BufferedLinkType) (cycle : Nat) : List PacketWithCycle := h.slots.getD (h.slotIndex cycle) []

def updateSlot (h : BufferedLinkType) (cycle : Nat) (packets : List PacketWithCycle) : BufferedLinkType :=
  { h with slots := h.slots.set (h.slotIndex cycle) packets, slots_length := by simpa using h.slots_length }

def clearSlot (h : BufferedLinkType) (cycle : Nat) : BufferedLinkType := h.updateSlot cycle []

def checkSpace (h : BufferedLinkType) (cycle : Nat) : Bool := decide ((h.getSlot cycle).length < h.bandwidth)

def canAcceptPacket (h : BufferedLinkType) (cycle targetCycle : Nat) : Bool :=
  if (h.latency : Int) ≤ (targetCycle : Int) - cycle then false else h.checkSpace targetCycle

/-- Adds a packet to the slot of a cycle; `none` when the code panics because it is full. -/
def addToSlot (h : BufferedLinkType) (pkt : PacketWithCycle) (targetCycle : Nat) : Option BufferedLinkType :=
  if h.bandwidth ≤ (h.getSlot targetCycle).length then none
  else some (h.updateSlot targetCycle (h.getSlot targetCycle ++ [pkt]))

/-- Puts a packet into the slot of its cycle, or behind the packets that wait. -/
def place (cycle : Nat) (h : BufferedLinkType) (pkt : PacketWithCycle) : Option BufferedLinkType :=
  if h.canAcceptPacket cycle pkt.cycle then h.addToSlot pkt pkt.cycle
  else some { h with pendingPackets := h.pendingPackets ++ [pkt] }

/-- A waiting packet is due in the current cycle at the earliest. -/
def retarget (cycle : Nat) (pkt : PacketWithCycle) : PacketWithCycle :=
  if pkt.cycle < cycle then { pkt with cycle } else pkt

/-- Places the packets that wait, then the new ones. -/
def takeIn (h : BufferedLinkType) (cycle : Nat) (incoming : List Packet) : Option BufferedLinkType := do
  let h ← (h.pendingPackets.map (retarget cycle)).foldlM (place cycle) { h with pendingPackets := [] }
  (incoming.map (PacketWithCycle.mk cycle)).foldlM (place cycle) h

/-- Sends the packets in turn, and returns those that were refused. -/
def sendAll (cycle : Nat) : List PacketWithCycle → Prog portInterface (List PacketWithCycle)
  | [] => return []
  | pwc :: rest => do
    let sent ← trySend cycle pwc
    let pending ← sendAll cycle rest
    return if sent then pending else pwc :: pending

/-- Sends the current slot if the downstream component is ready. -/
def sendSlot (h : BufferedLinkType) (cycle : Nat) : Prog linkPorts BufferedLinkType := do
  if ← atEnd .downstream (isReady cycle) then
    let pendingInSlot ← atEnd .downstream (sendAll cycle (h.getSlot cycle))
    if pendingInSlot.isEmpty then return h.clearSlot cycle
    else
      let h := h.updateSlot cycle pendingInSlot
      return { h with totalBackpressure := h.totalBackpressure + 1 }
  else return { h with totalBackpressure := h.totalBackpressure + 1 }

def process (h : BufferedLinkType) (cycle _targetCycle : Nat) (incoming : List Packet) :
    Prog linkPorts (Option BufferedLinkType) :=
  match h.takeIn cycle incoming with
  | none => return none
  | some h => do
    let h ← h.sendSlot cycle
    atEnd .upstream (updateReady (cycle + 1) (h.checkSpace (cycle + 1)))
    return some h

/-- Fills the pipeline with promises, and one for cycle 0. -/
def init (h : BufferedLinkType) : Prog linkPorts Unit :=
  (List.range (h.latency + 1)).forM (fun i => atEnd .upstream (updateReady i true))

/-- The back pressure and the slots are as at first; the packets that wait are left. -/
def reset (h : BufferedLinkType) : BufferedLinkType :=
  { h with
    totalBackpressure := 0
    slots := h.slots.map (fun _ => [])
    slots_length := by rw [List.length_map,h.slots_length] }

def linkType : LinkType BufferedLinkType := { init, process }

def getOccupancy (h : BufferedLinkType) (_currentCycle : Nat) : List Nat := h.slots.map List.length

/-! ### Slots -/

section
variable (h : BufferedLinkType)

theorem slotIndex_eq (cycle : Nat) : (h.slotIndex cycle : Int) = ((cycle : Int) - h.totalBackpressure) % h.latency := by
  have pos : (0 : Int) < h.latency := by exact_mod_cast h.latency_pos
  unfold slotIndex
  have bounds := Int.tmod_lt_of_pos ((cycle : Int) - h.totalBackpressure) pos
  have nonneg : 0 ≤ ((cycle : Int) - h.totalBackpressure).tmod h.latency + h.latency := by
    have low := Int.lt_tmod_of_pos ((cycle : Int) - h.totalBackpressure) pos
    omega
  rw [Int.tmod_eq_emod_of_nonneg nonneg,Int.toNat_of_nonneg (Int.emod_nonneg _ (by omega)),Int.add_emod_right]
  rw [Int.tmod_def,Int.sub_mul_emod_self_left]

theorem slotIndex_lt (cycle : Nat) : h.slotIndex cycle < h.slots.length := by
  have eq := h.slotIndex_eq cycle
  have pos : (0 : Int) < h.latency := by exact_mod_cast h.latency_pos
  have bound := Int.emod_lt_of_pos ((cycle : Int) - h.totalBackpressure) pos
  rw [h.slots_length]
  omega

theorem slotIndex_delayed (cycle : Nat) :
    slotIndex { h with totalBackpressure := h.totalBackpressure + 1 } (cycle + 1) = h.slotIndex cycle := by
  unfold slotIndex
  rw [show ((cycle + 1 : Nat) : Int) - (h.totalBackpressure + 1 : Nat) = (cycle : Int) - h.totalBackpressure by omega]

@[simp] theorem getSlot_updateSlot (cycle : Nat) (packets : List PacketWithCycle) :
    (h.updateSlot cycle packets).getSlot cycle = packets := by
  have inside := h.slotIndex_lt cycle
  show (h.slots.set (h.slotIndex cycle) packets).getD (h.slotIndex cycle) [] = packets
  rw [List.getD_eq_getElem?_getD,List.getElem?_set_self inside,Option.getD_some]

/-- The slots other than that of the cycle hold no packets. -/
def Alone (cycle : Nat) : Prop := ∀ i, i ≠ h.slotIndex cycle → h.slots.getD i [] = []

end

variable {h h' : BufferedLinkType} {cycle : Nat}

theorem Alone.updateSlot (alone : h.Alone cycle) (packets : List PacketWithCycle) : (h.updateSlot cycle packets).Alone cycle := by
  intro i (other : i ≠ h.slotIndex cycle)
  show (h.slots.set (h.slotIndex cycle) packets).getD i [] = []
  rw [List.getD_eq_getElem?_getD,List.getElem?_set_ne (Ne.symm other),← List.getD_eq_getElem?_getD]
  exact alone i other

/-- Once the slot of the cycle is cleared no slot holds packets. -/
theorem Alone.clearSlot (alone : h.Alone cycle) (i : Nat) : (h.clearSlot cycle).slots.getD i [] = [] := by
  by_cases here : i = h.slotIndex cycle
  · subst here
    exact h.getSlot_updateSlot cycle []
  · exact alone.updateSlot [] i here

/-! ### Placing packets -/

/-- Nothing waits unless the slot of the cycle is full, the slot holds no more than the
    bandwidth, and what waits is due in the cycle. -/
structure Settled (cycle : Nat) (h : BufferedLinkType) : Prop where
  full : h.pendingPackets ≠ [] → h.checkSpace cycle = false
  room : (h.getSlot cycle).length ≤ h.bandwidth
  due : ∀ pkt ∈ h.pendingPackets, pkt.cycle = cycle
  alone : h.Alone cycle

/-- The packets have joined those of the slot and those that wait, in order. -/
structure Placed (cycle : Nat) (h : BufferedLinkType) (pkts : List PacketWithCycle) (h' : BufferedLinkType) : Prop where
  held : h'.getSlot cycle ++ h'.pendingPackets = h.getSlot cycle ++ h.pendingPackets ++ pkts
  settled : Settled cycle h'
  totalBackpressure : h'.totalBackpressure = h.totalBackpressure
  latency : h'.latency = h.latency
  bandwidth : h'.bandwidth = h.bandwidth

theorem canAcceptPacket_now (h : BufferedLinkType) (cycle : Nat) : h.canAcceptPacket cycle cycle = h.checkSpace cycle := by
  have pos : (0 : Int) < h.latency := by exact_mod_cast h.latency_pos
  unfold canAcceptPacket
  rw [if_neg (by omega)]

theorem place_spec (settled : Settled cycle h) (pkt : PacketWithCycle) (due : pkt.cycle = cycle) :
    ∃ h', h.place cycle pkt = some h' ∧ Placed cycle h [pkt] h' := by
  subst due
  unfold place
  rw [canAcceptPacket_now]
  by_cases space : h.checkSpace pkt.cycle = true
  · have few : (h.getSlot pkt.cycle).length < h.bandwidth := of_decide_eq_true space
    have nothing : h.pendingPackets = [] := by
      by_contra waits
      rw [settled.full waits] at space
      cases space
    rw [if_pos space,addToSlot,if_neg (by omega)]
    refine ⟨_,rfl,?_,?_,rfl,rfl,rfl⟩
    · rw [getSlot_updateSlot]
      show _ ++ h.pendingPackets = _
      rw [nothing,List.append_nil,List.append_nil]
    · refine ⟨fun waits => absurd nothing waits,?_,settled.due,settled.alone.updateSlot _⟩
      rw [getSlot_updateSlot,List.length_append,List.length_singleton]
      exact few
  · rw [if_neg space]
    have noSpace : h.checkSpace pkt.cycle = false := by simpa using space
    refine ⟨_,rfl,(List.append_assoc ..).symm,⟨fun _ => noSpace,settled.room,?_,settled.alone⟩,rfl,rfl,rfl⟩
    intro other member
    rcases List.mem_append.mp member with old | new
    · exact settled.due other old
    · rw [List.mem_singleton.mp new]

theorem placeAll_spec : ∀ (pkts : List PacketWithCycle) {h : BufferedLinkType}, Settled cycle h →
    (∀ pkt ∈ pkts, pkt.cycle = cycle) → ∃ h', pkts.foldlM (place cycle) h = some h' ∧ Placed cycle h pkts h'
  | [], h, settled, _ => ⟨h,rfl,(List.append_nil _).symm,settled,rfl,rfl,rfl⟩
  | pkt :: rest, h, settled, due => by
    obtain ⟨h₁,placed,first⟩ := place_spec settled pkt (due pkt List.mem_cons_self)
    obtain ⟨h₂,others,second⟩ := placeAll_spec rest first.settled (fun other member => due other (List.mem_cons_of_mem _ member))
    refine ⟨h₂,?_,?_,second.settled,second.totalBackpressure.trans first.totalBackpressure,
      second.latency.trans first.latency,second.bandwidth.trans first.bandwidth⟩
    · rw [List.foldlM_cons,placed]
      exact others
    · rw [second.held,first.held,List.append_assoc,List.append_assoc,List.singleton_append,List.append_assoc]

theorem packet_retarget (cycle : Nat) (pkts : List PacketWithCycle) :
    (pkts.map (retarget cycle)).map PacketWithCycle.packet = pkts.map PacketWithCycle.packet := by
  rw [List.map_map]
  refine List.map_congr_left fun pkt _ => ?_
  show (retarget cycle pkt).packet = pkt.packet
  unfold retarget
  split <;> rfl

/-- All packets are placed: those of the slot first, then those that wait, then the new ones. -/
theorem takeIn_spec (incoming : List Packet) (room : (h.getSlot cycle).length ≤ h.bandwidth) (alone : h.Alone cycle)
    (due : ∀ pkt ∈ h.pendingPackets, pkt.cycle ≤ cycle) : ∃ h', h.takeIn cycle incoming = some h' ∧
      h'.getSlot cycle ++ h'.pendingPackets = h.getSlot cycle ++ h.pendingPackets.map (retarget cycle) ++
        incoming.map (PacketWithCycle.mk cycle) ∧
      Settled cycle h' ∧ h'.totalBackpressure = h.totalBackpressure ∧ h'.latency = h.latency ∧ h'.bandwidth = h.bandwidth := by
  have empty : Settled cycle { h with pendingPackets := [] } := ⟨fun waits => absurd rfl waits,room,by simp,alone⟩
  have waiting : ∀ pkt ∈ h.pendingPackets.map (retarget cycle), pkt.cycle = cycle := by
    intro pkt member
    obtain ⟨old,waits,rfl⟩ := List.mem_map.mp member
    unfold retarget
    split
    · rfl
    · next late => exact Nat.le_antisymm (due old waits) (Nat.le_of_not_lt late)
  obtain ⟨h₁,placed₁,first⟩ := placeAll_spec _ empty waiting
  have fresh : ∀ pkt ∈ incoming.map (PacketWithCycle.mk cycle), pkt.cycle = cycle := by
    intro pkt member
    obtain ⟨_,_,rfl⟩ := List.mem_map.mp member
    rfl
  obtain ⟨h₂,placed₂,second⟩ := placeAll_spec _ first.settled fresh
  refine ⟨h₂,?_,?_,second.settled,second.totalBackpressure.trans first.totalBackpressure,
    second.latency.trans first.latency,second.bandwidth.trans first.bandwidth⟩
  · unfold takeIn
    rw [placed₁]
    exact placed₂
  · rw [second.held,first.held]
    show h.getSlot cycle ++ [] ++ _ ++ _ = _
    rw [List.append_nil]

end BufferedLinkType
end FlowSim.Links
