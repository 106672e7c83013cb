import FlowSim.AheadPort.Port

/-!
Input queues: the packets a node has received wait in slots until the node frees
them. The cached length is a field with the proof that it counts the occupied
slots, so no operation can let the two drift apart.
-/
namespace FlowSim.Queue
open FlowSim.Lib FlowSim.AheadPort
set_option linter.unusedSimpArgs false

/-- A slot: what was last stored in it, whether it is free, and the reasons for
    which it is blocked. -/
structure Slot where
  stored : PacketWithCycle
  free : Bool
  blockReasons : Nat
deriving DecidableEq, Repr, Inhabited

/-- A handle to a waiting packet: its slot and the input queue it waits in. -/
structure PacketRef where
  packet : Packet
  slot : Nat
  queue : Nat
deriving DecidableEq, Repr

/-- An input queue. The hook that is told of received packets is left out. -/
structure InputQueue where
  slots : List Slot
  inBandwidth : Nat
  nextUpdateCycle : Nat
  length : Nat
  lastCyclePackets : List Packet
  length_eq : length = slots.countP (fun slot => !slot.free)
  slots_pos : 0 < slots.length
  inBandwidth_pos : 0 < inBandwidth

instance : DecidableEq InputQueue := fun iq iq' =>
  decidable_of_iff (iq.slots = iq'.slots ∧ iq.inBandwidth = iq'.inBandwidth ∧ iq.nextUpdateCycle = iq'.nextUpdateCycle ∧
      iq.length = iq'.length ∧ iq.lastCyclePackets = iq'.lastCyclePackets) (by
    cases iq
    cases iq'
    simp)

/-- The sort of slot indices by a key: the standard library's, which orders but
    need not keep equal keys in place. -/
structure SliceSort where
  sort : (Nat → Nat) → List Nat → List Nat
  perm : ∀ key indices, (sort key indices).Perm indices
  sorted : ∀ key indices, (sort key indices).Pairwise (fun i j => key i ≤ key j)

/-- A sort that keeps equal keys in place. -/
def stableSort : SliceSort where
  sort key indices := indices.insertionSort (fun i j => key i ≤ key j)
  perm _ indices := List.perm_insertionSort _ indices
  sorted key indices := by
    have total : Std.Total (fun i j => key i ≤ key j) := ⟨fun i j => Nat.le_total (key i) (key j)⟩
    have trans : IsTrans Nat (fun i j => key i ≤ key j) := ⟨fun _ _ _ => Nat.le_trans⟩
    exact List.pairwise_insertionSort _ indices

namespace InputQueue

def newInputQueue (capacity inBandwidth : Nat) (pos : 0 < capacity) (bandwidthPos : 0 < inBandwidth) : InputQueue where
  slots := List.replicate capacity { stored := default, free := true, blockReasons := 0 }
  inBandwidth := inBandwidth
  nextUpdateCycle := 0
  length := 0
  lastCyclePackets := []
  length_eq := by rw [List.countP_replicate]; rfl
  slots_pos := by rw [List.length_replicate]; exact pos
  inBandwidth_pos := bandwidthPos

def capacity (iq : InputQueue) : Nat := iq.slots.length

def findFreeSlot (iq : InputQueue) : Option Nat := iq.slots.findIdx? Slot.free

def isFull (iq : InputQueue) : Bool := iq.findFreeSlot.isNone

/-- The packets in the occupied slots, slot by slot. -/
def packets (iq : InputQueue) : List Packet :=
  iq.slots.filterMap (fun slot => if slot.free then none else some slot.stored.packet)

/-- Occupies a free slot. -/
def occupy (iq : InputQueue) (slot : Nat) (inside : slot < iq.slots.length) (isFree : iq.slots[slot].free = true)
    (pwc : PacketWithCycle) : InputQueue :=
  { iq with
    slots := iq.slots.set slot { stored := pwc, free := false, blockReasons := 0 }
    length := iq.length + 1
    length_eq := by rw [List.countP_set inside,iq.length_eq]; simp [isFree]
    slots_pos := by simpa using iq.slots_pos }

theorem findFreeSlot_some {iq : InputQueue} {slot : Nat} (found : iq.findFreeSlot = some slot) :
    ∃ inside : slot < iq.slots.length, iq.slots[slot].free = true := by
  obtain ⟨inside,isFree,_⟩ := List.findIdx?_eq_some_iff_getElem.mp found
  exact ⟨inside,by simpa using isFree⟩

/-- Stores a packet in the first free slot; `none` when there is none. -/
def store (iq : InputQueue) (cycle : Nat) (pkt : Packet) : Option InputQueue :=
  match found : iq.findFreeSlot with
  | none => none
  | some slot => some (iq.occupy slot (findFreeSlot_some found).1 (findFreeSlot_some found).2 ⟨cycle,pkt⟩)

def capacityExceeded (length capacity : Nat) (pkt : Packet) (cycle : Nat) : String :=
  let src := pkt.sourceID
  let dst := pkt.targetID
  s!"InputQueue: capacity exceeded ({length}/{capacity}), cannot store packet Src={src} Dst={dst} at cycle {cycle}"

/-- Stores the packets in turn; the error names the first that finds no slot,
    and those before it stay stored. -/
def storeAll (cycle : Nat) : List Packet → InputQueue → Option String × InputQueue
  | [], iq => (none,iq)
  | pkt :: rest, iq =>
    match iq.store cycle pkt with
    | some iq => storeAll cycle rest iq
    | none => (some (capacityExceeded iq.length iq.capacity pkt cycle),iq)

/-- The number of coming cycles in which a full burst would still fit. -/
def remainReadyCycle (iq : InputQueue) : Nat := (iq.capacity - iq.length) / iq.inBandwidth

/-- Tells the sender about the coming cycles. -/
def updateUpstream (iq : InputQueue) (cycle : Nat) : Prog portInterface InputQueue := do
  match iq.remainReadyCycle with
  | 0 =>
    updateReady (cycle + 1) false
    return { iq with nextUpdateCycle := cycle + 2 }
  | remain =>
    (List.range' iq.nextUpdateCycle (cycle + remain + 1 - iq.nextUpdateCycle)).forM (fun i => updateReady i true)
    return { iq with nextUpdateCycle := max iq.nextUpdateCycle (cycle + remain + 1) }

/-- Receives the cycle's packets, stores them, and tells the sender about the
    coming cycles; the error when a packet finds no slot. -/
def tick (iq : InputQueue) (cycle : Nat) : Prog portInterface (Option String × InputQueue) := do
  let pkts ← receive cycle
  match storeAll cycle pkts iq with
  | (some error,iq) => return (some error,iq)
  | (none,iq) =>
    let iq ← updateUpstream { iq with lastCyclePackets := pkts } cycle
    return (none,iq)

/-- The readiness of cycles 0 and 1, decided when the port is connected. -/
def setUpstreamPort (iq : InputQueue) (port : ComponentSync) : Option ComponentSync := do
  let hasCapacity := decide (iq.length < iq.capacity)
  let port ← port.updateReady 0 hasCapacity
  port.updateReady 1 hasCapacity

/-- References to the waiting packets that are not blocked, oldest first. -/
def peekPickTo (sortSlice : SliceSort) (iq : InputQueue) (queue maxOut : Nat) : List PacketRef :=
  if iq.length = 0 then []
  else
    let candidates := (List.range iq.capacity).filter (fun i =>
      iq.slots[i]?.any (fun slot => !slot.free && slot.blockReasons == 0))
    let cycleOf (i : Nat) : Nat := (iq.slots[i]?.map (fun slot => slot.stored.cycle)).getD 0
    ((sortSlice.sort cycleOf candidates).filterMap (fun i =>
      iq.slots[i]?.map (fun slot => { packet := slot.stored.packet, slot := i, queue }))).take maxOut

/-- Gives up a slot. Slots that are free or do not exist are left alone. -/
def free (iq : InputQueue) (slot : Nat) : InputQueue :=
  if inside : slot < iq.slots.length then
    if occupied : iq.slots[slot].free = false then
      { iq with
        slots := iq.slots.set slot { iq.slots[slot] with free := true, blockReasons := 0 }
        length := iq.length - 1
        length_eq := by rw [List.countP_set inside,iq.length_eq]; simp [occupied]
        slots_pos := by simpa using iq.slots_pos }
    else iq
  else iq

/-- Marks a slot as blocked for a reason. -/
def block (iq : InputQueue) (slot reason : Nat) : InputQueue :=
  if inside : slot < iq.slots.length then
    { iq with
      slots := iq.slots.set slot { iq.slots[slot] with blockReasons := iq.slots[slot].blockReasons ||| reason }
      length_eq := by
        rw [List.countP_set inside,iq.length_eq]
        cases occupied : iq.slots[slot].free with
        | true => simp [occupied]
        | false =>
          have some_left : 0 < iq.slots.countP (fun slot => !slot.free) :=
            List.countP_pos_iff.mpr ⟨_,List.getElem_mem inside,by simp [occupied]⟩
          simp [occupied]
          omega
      slots_pos := by simpa using iq.slots_pos }
  else iq

/-- Takes all waiting packets that are not blocked out of the queue, oldest first. -/
def pick (sortSlice : SliceSort) (iq : InputQueue) : List Packet × InputQueue :=
  let candidates := (List.range iq.capacity).filter (fun i =>
    iq.slots[i]?.any (fun slot => !slot.free && slot.blockReasons == 0))
  let cycleOf (i : Nat) : Nat := (iq.slots[i]?.map (fun slot => slot.stored.cycle)).getD 0
  let order := sortSlice.sort cycleOf candidates
  (order.filterMap (fun i => iq.slots[i]?.map (fun slot => slot.stored.packet)),order.foldl free iq)

/-- What a node may do with a queue between two ticks. -/
inductive QueueCall where
  | pick
  | peekPickTo (maxOut : Nat)
  | free (slot : Nat)
  | block (slot reason : Nat)
deriving DecidableEq, Repr

/-- The queue after a call; what a call returns does not matter to the queue. -/
def call (sortSlice : SliceSort) (iq : InputQueue) : QueueCall → InputQueue
  | .pick => (iq.pick sortSlice).2
  | .peekPickTo _ => iq
  | .free slot => iq.free slot
  | .block slot reason => iq.block slot reason

/-! ### What the operations do to the stored packets -/

theorem length_packets (iq : InputQueue) : iq.packets.length = iq.length := by
  rw [packets,iq.length_eq,List.length_filterMap_eq_countP]
  congr 1
  funext slot
  cases slot.free <;> rfl

theorem length_le (iq : InputQueue) : iq.length ≤ iq.capacity := by
  rw [iq.length_eq]
  exact List.countP_le_length

/-- Replacing a slot of a list, seen from both sides of the slot. -/
theorem set_eq_append {slots : List Slot} {slot : Nat} (inside : slot < slots.length) (new : Slot) :
    slots = slots.take slot ++ slots[slot] :: slots.drop (slot + 1) ∧
      slots.set slot new = slots.take slot ++ new :: slots.drop (slot + 1) :=
  ⟨by rw [List.getElem_cons_drop,List.take_append_drop],List.set_eq_take_append_cons_drop ▸ by simp [inside]⟩

@[simp] theorem capacity_occupy (iq : InputQueue) (slot : Nat) (inside : slot < iq.slots.length)
    (isFree : iq.slots[slot].free = true) (pwc : PacketWithCycle) :
    (iq.occupy slot inside isFree pwc).capacity = iq.capacity := by simp [occupy,capacity]

theorem packets_occupy (iq : InputQueue) (slot : Nat) (inside : slot < iq.slots.length)
    (isFree : iq.slots[slot].free = true) (pwc : PacketWithCycle) :
    (iq.occupy slot inside isFree pwc).packets.Perm (pwc.packet :: iq.packets) := by
  obtain ⟨before,after⟩ := set_eq_append inside { stored := pwc, free := false, blockReasons := 0 }
  have stored : iq.packets = (iq.slots.take slot ++ iq.slots[slot] :: iq.slots.drop (slot + 1)).filterMap
      (fun slot => if slot.free then none else some slot.stored.packet) := by rw [← before]; rfl
  rw [stored]
  simp only [packets,occupy,after,List.filterMap_append,List.filterMap_cons,isFree]
  simp

/-- Freeing an occupied slot takes exactly its packet out of the queue. -/
theorem packets_free (iq : InputQueue) {slot : Nat} (inside : slot < iq.slots.length)
    (occupied : iq.slots[slot].free = false) :
    iq.packets.Perm (iq.slots[slot].stored.packet :: (iq.free slot).packets) := by
  obtain ⟨before,after⟩ := set_eq_append inside { iq.slots[slot] with free := true, blockReasons := 0 }
  have stored : iq.packets = (iq.slots.take slot ++ iq.slots[slot] :: iq.slots.drop (slot + 1)).filterMap
      (fun slot => if slot.free then none else some slot.stored.packet) := by rw [← before]; rfl
  rw [stored]
  simp only [packets,free,inside,occupied,↓reduceDIte,after,List.filterMap_append,List.filterMap_cons]
  simp

/-- Freeing a slot leaves the others. -/
theorem slots_free_ne (iq : InputQueue) {slot other : Nat} (different : slot ≠ other)
    (inside : other < iq.slots.length) :
    ∃ inside' : other < (iq.free slot).slots.length, (iq.free slot).slots[other] = iq.slots[other] := by
  unfold free
  split_ifs
  · exact ⟨by simpa using inside,by simp [List.getElem_set_ne different]⟩
  · exact ⟨inside,rfl⟩
  · exact ⟨inside,rfl⟩

@[simp] theorem capacity_free (iq : InputQueue) (slot : Nat) : (iq.free slot).capacity = iq.capacity := by
  unfold free
  split_ifs <;> simp [capacity]

@[simp] theorem inBandwidth_free (iq : InputQueue) (slot : Nat) : (iq.free slot).inBandwidth = iq.inBandwidth := by
  unfold free
  split_ifs <;> rfl

@[simp] theorem nextUpdateCycle_free (iq : InputQueue) (slot : Nat) :
    (iq.free slot).nextUpdateCycle = iq.nextUpdateCycle := by
  unfold free
  split_ifs <;> rfl

theorem length_free_le (iq : InputQueue) (slot : Nat) : (iq.free slot).length ≤ iq.length := by
  unfold free
  split_ifs
  · exact Nat.sub_le _ _
  · exact le_refl _
  · exact le_refl _

/-- The queue has the same settings and no fewer free slots. -/
structure Roomier (iq iq' : InputQueue) : Prop where
  capacity : iq'.capacity = iq.capacity
  inBandwidth : iq'.inBandwidth = iq.inBandwidth
  nextUpdateCycle : iq'.nextUpdateCycle = iq.nextUpdateCycle
  length : iq'.length ≤ iq.length

theorem Roomier.refl (iq : InputQueue) : Roomier iq iq := ⟨rfl,rfl,rfl,le_refl _⟩

theorem Roomier.trans {iq iq' iq'' : InputQueue} (first : Roomier iq iq') (second : Roomier iq' iq'') : Roomier iq iq'' :=
  ⟨second.capacity.trans first.capacity,second.inBandwidth.trans first.inBandwidth,
    second.nextUpdateCycle.trans first.nextUpdateCycle,second.length.trans first.length⟩

theorem roomier_free (iq : InputQueue) (slot : Nat) : Roomier iq (iq.free slot) :=
  ⟨iq.capacity_free slot,iq.inBandwidth_free slot,iq.nextUpdateCycle_free slot,iq.length_free_le slot⟩

theorem roomier_block (iq : InputQueue) (slot reason : Nat) : Roomier iq (iq.block slot reason) := by
  unfold block
  split_ifs
  · exact ⟨by simp [capacity],rfl,rfl,le_refl _⟩
  · exact .refl iq

theorem roomier_foldl {β : Type} {f : InputQueue → β → InputQueue} (each : ∀ iq item, Roomier iq (f iq item)) :
    ∀ (items : List β) (iq : InputQueue), Roomier iq (items.foldl f iq)
  | [], iq => .refl iq
  | item :: rest, iq => (each iq item).trans (roomier_foldl each rest (f iq item))

/-- Whatever a node does between two ticks, the queue only gets roomier. -/
theorem roomier_call (sortSlice : SliceSort) (iq : InputQueue) (queueCall : QueueCall) :
    Roomier iq (iq.call sortSlice queueCall) := by
  cases queueCall with
  | pick => exact roomier_foldl roomier_free _ iq
  | peekPickTo maxOut => exact .refl iq
  | free slot => exact roomier_free iq slot
  | block slot reason => exact roomier_block iq slot reason

/-- A packet is stored unless the queue is full. -/
theorem store_eq_none {iq : InputQueue} {cycle : Nat} {pkt : Packet} (failed : iq.store cycle pkt = none) :
    iq.length = iq.capacity := by
  unfold store at failed
  split at failed
  · next full =>
    have occupied := List.findIdx?_eq_none_iff.mp full
    rw [iq.length_eq,capacity]
    exact List.countP_eq_length.mpr (fun slot member => by simpa using occupied slot member)
  · simp at failed

theorem store_of_full {iq : InputQueue} (full : iq.findFreeSlot = none) (cycle : Nat) (pkt : Packet) :
    iq.store cycle pkt = none := by
  unfold store
  split
  · rfl
  · next slot found => cases full.symm.trans found

/-- What storing a packet does. -/
theorem store_eq_some {iq iq' : InputQueue} {cycle : Nat} {pkt : Packet} (stored : iq.store cycle pkt = some iq') :
    iq'.packets.Perm (pkt :: iq.packets) ∧ iq'.length = iq.length + 1 ∧ iq'.capacity = iq.capacity ∧
      iq'.inBandwidth = iq.inBandwidth ∧ iq'.nextUpdateCycle = iq.nextUpdateCycle := by
  unfold store at stored
  split at stored
  · simp at stored
  · next slot found =>
    obtain rfl := Option.some.inj stored
    obtain ⟨inside,isFree⟩ := findFreeSlot_some found
    exact ⟨packets_occupy iq slot inside isFree ⟨cycle,pkt⟩,rfl,capacity_occupy iq slot inside isFree ⟨cycle,pkt⟩,rfl,rfl⟩

/-- Packets that fit are all stored. -/
theorem storeAll_fits (cycle : Nat) : ∀ (pkts : List Packet) (iq : InputQueue),
    iq.length + pkts.length ≤ iq.capacity →
      ∃ iq', storeAll cycle pkts iq = (none,iq') ∧ iq'.packets.Perm (pkts ++ iq.packets) ∧
        iq'.length = iq.length + pkts.length ∧ iq'.capacity = iq.capacity ∧
        iq'.inBandwidth = iq.inBandwidth ∧ iq'.nextUpdateCycle = iq.nextUpdateCycle
  | [], iq, _ => ⟨iq,rfl,by simp⟩
  | pkt :: rest, iq, room => by
    rw [storeAll]
    rcases stored : iq.store cycle pkt with _ | iq₁
    · have full := store_eq_none stored
      simp at room
      omega
    · obtain ⟨packets₁,length₁,capacity₁,bandwidth₁,next₁⟩ := store_eq_some stored
      obtain ⟨iq₂,all,packets₂,length₂,capacity₂,bandwidth₂,next₂⟩ :=
        storeAll_fits cycle rest iq₁ (by simp at room; omega)
      refine ⟨iq₂,all,?_,by simp; omega,capacity₂.trans capacity₁,bandwidth₂.trans bandwidth₁,next₂.trans next₁⟩
      exact (packets₂.trans (packets₁.append_left rest)).trans List.perm_middle

/-- Storing stops at the first packet for which no slot is left. -/
theorem storeAll_error (cycle : Nat) : ∀ (pkts : List Packet) (iq : InputQueue), (storeAll cycle pkts iq).1 =
    pkts[iq.capacity - iq.length]?.map fun pkt => capacityExceeded iq.capacity iq.capacity pkt cycle
  | [], _ => rfl
  | pkt :: rest, iq => by
    rw [storeAll]
    rcases stored : iq.store cycle pkt with _ | iq₁
    · have full := store_eq_none stored
      simp only [full,Nat.sub_self,List.getElem?_cons_zero,Option.map_some]
    · obtain ⟨_,length₁,capacity₁,_⟩ := store_eq_some stored
      have bounded := iq₁.length_le
      have room : iq.capacity - iq.length = iq₁.capacity - iq₁.length + 1 := by omega
      rw [room,List.getElem?_cons_succ,← capacity₁]
      exact storeAll_error cycle rest iq₁

/-- Packets that are all stored did fit. -/
theorem fits_of_storeAll (cycle : Nat) : ∀ (pkts : List Packet) {iq iq' : InputQueue},
    storeAll cycle pkts iq = (none,iq') → iq.length + pkts.length ≤ iq.capacity
  | [], iq, iq', _ => iq.length_le
  | pkt :: rest, iq, iq', all => by
    rw [storeAll] at all
    rcases stored : iq.store cycle pkt with _ | iq₁
    · simp [stored] at all
    · obtain ⟨_,length₁,capacity₁,_,_⟩ := store_eq_some stored
      simp only [stored] at all
      have room := fits_of_storeAll cycle rest all
      rw [length₁,capacity₁] at room
      simp only [List.length_cons]
      omega

end InputQueue
end FlowSim.Queue
