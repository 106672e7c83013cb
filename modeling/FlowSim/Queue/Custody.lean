import FlowSim.Queue.Taking

/-!
What an input queue holds, over every session of ticks and calls. A record is kept of the
packets in the order in which they are stored, and of those that leave: every stored packet
waits in one slot until it is picked or freed, and leaves once (`store_invariant`).
-/
namespace FlowSim.Queue
open FlowSim.Lib FlowSim.AheadPort
open scoped List
set_option linter.unusedSimpArgs false

namespace InputQueue

/-- `Free` of any number. A negative one names no slot. -/
def freeAt (iq : InputQueue) (slot : Int) : InputQueue := if 0 ≤ slot then iq.free slot.toNat else iq

def blockAt (iq : InputQueue) (slot : Int) (reason : Nat) : InputQueue :=
  if 0 ≤ slot then iq.block slot.toNat reason else iq

/-- The slots that hold packets. -/
def occupied (iq : InputQueue) : List Nat :=
  (List.range iq.capacity).filter fun i => iq.slots[i]?.any fun slot => !slot.free

end InputQueue

/-- What may happen to a queue. -/
inductive StoreCall where
  | tick (cycle : Nat) (pkts : List Packet)
  | pick (sortSlice : SliceSort)
  | peekPickTo (sortSlice : SliceSort) (maxOut : Nat)
  | free (slot : Int)
  | block (slot : Int) (reason : Nat)

namespace StoreCall
open InputQueue

/-- The call takes the packet of an occupied slot out of the queue. -/
def Takes (iq : InputQueue) (i : Nat) : StoreCall → Prop
  | .pick _ => i ∈ iq.unblocked
  | .free slot => (i : Int) = slot
  | _ => False

/-- The slots that a call gives up, in turn. -/
def givenUp (iq : InputQueue) : StoreCall → List Nat
  | .pick sortSlice => sortSlice.sort iq.cycleAt iq.unblocked
  | .free slot => iq.occupied.filter fun i => (i : Int) = slot
  | _ => []

/-- The packets that a call takes out of the queue: those that `Pick` returns, or that of the
    slot that is freed. -/
def taken (iq : InputQueue) : StoreCall → List Packet
  | .pick sortSlice => (iq.pick sortSlice).1
  | .free slot => iq.packetsAt (iq.occupied.filter fun i => (i : Int) = slot)
  | _ => []

/-- The packets that a call receives. -/
def received : StoreCall → List Packet
  | .tick _ pkts => pkts
  | _ => []

end StoreCall

/-- A queue with the packets that have been stored in it, in turn, and the numbers of those
    that have left. -/
structure StoreSession extends QueueSession where
  stored : List Packet
  left : List Nat

namespace StoreSession
open InputQueue

def new (capacity inBandwidth : Nat) (pos : 0 < capacity) (bandwidthPos : 0 < inBandwidth) : StoreSession where
  toQueueSession := .new capacity inBandwidth pos bandwidthPos
  stored := []
  left := []

/-- The queue after a call, and the slots whose packets leave. -/
def leave (s : StoreSession) (slots : List Nat) (iq : InputQueue) : StoreSession :=
  { s with iq, left := s.left ++ slots.map s.arrived }

def step (s : StoreSession) (call : StoreCall) : Option StoreSession :=
  match call with
  | .tick cycle pkts =>
    let later := s.tick cycle pkts
    some { later with stored := s.stored ++ pkts.take (later.count - s.count), left := s.left }
  | .pick sortSlice => some (s.leave (call.givenUp s.iq) (s.iq.pick sortSlice).2)
  | .peekPickTo _ _ => some s
  | .free slot => some (s.leave (call.givenUp s.iq) (s.iq.freeAt slot))
  | .block slot reason => some { s with iq := s.iq.blockAt slot reason }

/-- The packet and the cycle that a slot was last given. -/
def content (s : QueueSession) (i : Nat) : Option PacketWithCycle := s.iq.slots[i]?.map Slot.stored

/-- The length counts the occupied slots, and every stored packet either waits in one slot or
    has left once. -/
structure Kept (s : StoreSession) : Prop where
  count : s.count = s.stored.length
  length : s.iq.length = s.iq.occupied.length
  bounded : s.iq.length ≤ s.iq.capacity
  accounts : (s.iq.occupied.map s.arrived ++ s.left).Perm (List.range s.stored.length)
  holds : ∀ i, s.iq.Occupied i → (content s.toQueueSession i).map PacketWithCycle.packet = s.stored[s.arrived i]?

/-- The slot still holds the packet that it held. -/
structure Waits (s s' : QueueSession) (i : Nat) : Prop where
  occupied : s'.iq.Occupied i
  number : s'.arrived i = s.arrived i
  content : content s' i = content s i

/-- What a call does. A tick leaves what `Tick` leaves of the queue when it receives the
    packets, and fails at the first of them for which there is no slot. -/
structure Follows (s : StoreSession) (call : StoreCall) (s' : StoreSession) : Prop where
  ticks : ∀ cycle pkts, call = .tick cycle pkts → s'.iq = (s.iq.tickWith cycle pkts).2
  fails : ∀ cycle pkts, (s.iq.tickWith cycle pkts).1 =
    pkts[s.iq.capacity - s.iq.length]?.map fun pkt => capacityExceeded s.iq.capacity s.iq.capacity pkt cycle
  stays : ∀ i, s.iq.Occupied i → ¬ call.Takes s.iq i → Waits s.toQueueSession s'.toQueueSession i
  goes : ∀ i, s.iq.Occupied i → call.Takes s.iq i → ¬ s'.iq.Occupied i ∧ s.arrived i ∈ s'.left
  stored : s'.stored = s.stored ++ call.received.take (s.iq.capacity - s.iq.length)
  left : ∃ numbers, s'.left = s.left ++ numbers ∧ numbers.map (s.stored[·]?) = (call.taken s.iq).map some
  starts : ∀ i, ¬ s.iq.Occupied i → s'.iq.Occupied i →
    s.stored.length ≤ s'.arrived i ∧ s'.iq.slots[i]?.map Slot.blockReasons = some 0
  again : ∀ slot, call = .free slot → (∀ i, s.iq.Occupied i → (i : Int) ≠ slot) → s' = s
  twice : ∀ slot, call = .free slot → s'.step call = some s'

/-- What holds between a state and any later one. -/
structure Later (s s' : StoreSession) : Prop where
  stored : s.stored <+: s'.stored
  left : s.left <+: s'.left
  waits : ∀ i, s.iq.Occupied i → s.arrived i ∈ s'.left ∨ Waits s.toQueueSession s'.toQueueSession i

end StoreSession

/-! ### Occupied slots -/

namespace InputQueue
variable {iq : InputQueue} {i : Nat}

theorem mem_occupied : i ∈ iq.occupied ↔ iq.Occupied i := by
  rw [occupied,List.mem_filter,List.mem_range,Option.any_eq_true]
  constructor
  · rintro ⟨-,slot,found,holds⟩
    exact ⟨slot,found,by simpa using holds⟩
  · rintro ⟨slot,found,holds⟩
    obtain ⟨inside,-⟩ := List.getElem?_eq_some_iff.mp found
    exact ⟨inside,slot,found,by simpa using holds⟩

theorem nodup_occupied (iq : InputQueue) : iq.occupied.Nodup := List.nodup_range.filter _

theorem countP_range {α : Type} (p : α → Bool) : ∀ l : List α, (List.range l.length).countP (fun i => l[i]?.any p) = l.countP p
  | [] => rfl
  | a :: l => by
    rw [List.length_cons,List.range_succ_eq_map,List.countP_cons,List.countP_map,List.countP_cons,← countP_range p l]
    simp [Function.comp_def]

/-- The cached length counts the occupied slots. -/
theorem length_occupied (iq : InputQueue) : iq.length = iq.occupied.length := by
  rw [iq.length_eq,occupied,← List.countP_eq_length_filter,capacity,countP_range]

/-- Queues in which the same slots are occupied. -/
theorem occupied_perm {iq' : InputQueue} {slots : List Nat} (distinct : slots.Nodup)
    (same : ∀ i, iq'.Occupied i ↔ i ∈ slots) : iq'.occupied.Perm slots := by
  refine (List.perm_ext_iff_of_nodup iq'.nodup_occupied distinct).mpr fun i => ?_
  rw [mem_occupied,same]

end InputQueue

/-! ### Releasing -/

namespace InputQueue
variable {iq iq' iq'' : InputQueue} {k : Nat} {slots slots' : List Nat}

/-- The slots have been given up, and the others hold what they held. -/
structure Released (iq : InputQueue) (slots : List Nat) (iq' : InputQueue) : Prop where
  capacity : iq'.capacity = iq.capacity
  occupied : ∀ i, iq'.Occupied i ↔ iq.Occupied i ∧ i ∉ slots
  same : ∀ i, i ∉ slots → iq'.slots[i]?.map Slot.stored = iq.slots[i]?.map Slot.stored

theorem Released.refl (iq : InputQueue) : Released iq [] iq :=
  ⟨rfl,fun _ => (and_iff_left List.not_mem_nil).symm,fun _ _ => rfl⟩

theorem Released.trans (first : Released iq slots iq') (second : Released iq' slots' iq'') : Released iq (slots ++ slots') iq'' where
  capacity := second.capacity.trans first.capacity
  occupied i := by rw [second.occupied,first.occupied,List.mem_append,not_or,and_assoc]
  same i other := by
    rw [List.mem_append,not_or] at other
    exact (second.same i other.2).trans (first.same i other.1)

theorem free_of_vacant (vacant : ¬ iq.Occupied k) : iq.free k = iq := by
  unfold free
  split_ifs with inside holds
  · exact absurd ⟨_,List.getElem?_eq_getElem inside,holds⟩ vacant
  · rfl
  · rfl

theorem released_free (occupied : iq.Occupied k) : Released iq [k] (iq.free k) := by
  obtain ⟨slot,found,holds⟩ := occupied
  obtain ⟨inside,rfl⟩ := List.getElem?_eq_some_iff.mp found
  have slots : (iq.free k).slots = iq.slots.set k { iq.slots[k] with free := true, blockReasons := 0 } := by
    unfold free
    rw [dif_pos inside,dif_pos holds]
  refine ⟨iq.capacity_free k,fun i => ?_,fun i other => ?_⟩
  · rw [List.mem_singleton,Occupied,slots]
    by_cases same : i = k
    · subst same
      simp [inside]
    · rw [List.getElem?_set_ne (Ne.symm same),and_iff_left same]
      rfl
  · rw [slots,List.getElem?_set_ne (Ne.symm (List.mem_singleton.not.mp other))]

theorem released_foldl_free : ∀ {slots : List Nat} {iq : InputQueue}, slots.Nodup → (∀ i ∈ slots, iq.Occupied i) →
    Released iq slots (slots.foldl free iq)
  | [], iq, _, _ => .refl iq
  | k :: rest, iq, distinct, occupied => by
    obtain ⟨fresh,distinct⟩ := List.nodup_cons.mp distinct
    have first := released_free (occupied k List.mem_cons_self)
    refine first.trans (released_foldl_free distinct fun i member => (first.occupied i).mpr ?_)
    refine ⟨occupied i (List.mem_cons_of_mem _ member),fun here => ?_⟩
    exact fresh (List.mem_singleton.mp here ▸ member)

theorem released_block (iq : InputQueue) (k reason : Nat) : Released iq [] (iq.block k reason) := by
  unfold block
  split_ifs with inside
  · refine ⟨List.length_set ..,fun i => ?_,fun i _ => ?_⟩
    · rw [and_iff_left List.not_mem_nil,Occupied,Occupied]
      by_cases same : i = k
      · subst same
        simp [inside]
      · rw [List.getElem?_set_ne (Ne.symm same)]
    · by_cases same : i = k
      · subst same
        simp [inside]
      · rw [List.getElem?_set_ne (Ne.symm same)]
  · exact .refl iq

/-- The occupied slots are those that are given up and those that stay occupied. -/
theorem Released.perm (released : Released iq slots iq') (distinct : slots.Nodup) (occupied : ∀ i ∈ slots, iq.Occupied i) :
    iq.occupied.Perm (slots ++ iq'.occupied) := by
  refine occupied_perm (List.nodup_append.mpr ⟨distinct,iq'.nodup_occupied,?_⟩) fun i => ?_
  · rintro i given _ kept rfl
    exact ((released.occupied i).mp (mem_occupied.mp kept)).2 given
  · rw [List.mem_append,mem_occupied,released.occupied]
    constructor
    · exact fun held => (Classical.em (i ∈ slots)).imp_right fun other => ⟨held,other⟩
    · rintro (given | kept)
      · exact occupied i given
      · exact kept.1

end InputQueue

/-! ### Storing -/

namespace StoreSession
open InputQueue
variable {s s' s'' : QueueSession} {cycle : Nat}

/-- The packets have been stored in free slots. -/
structure Delivered (cycle : Nat) (s : QueueSession) (pkts : List Packet) (s' : QueueSession) : Prop where
  capacity : s'.iq.capacity = s.iq.capacity
  count : s'.count = s.count + pkts.length
  same : ∀ i, s.iq.Occupied i → s'.iq.slots[i]? = s.iq.slots[i]? ∧ s'.arrived i = s.arrived i
  numbers : (s'.iq.occupied.map s'.arrived).Perm (s.iq.occupied.map s.arrived ++ List.range' s.count pkts.length)
  fills : ∀ i, ¬ s.iq.Occupied i → s'.iq.Occupied i → ∃ k pkt, pkts[k]? = some pkt ∧ s'.arrived i = s.count + k ∧
    s'.iq.slots[i]? = some { stored := ⟨cycle,pkt⟩, free := false, blockReasons := 0 }

theorem Delivered.refl (cycle : Nat) (s : QueueSession) : Delivered cycle s [] s where
  capacity := rfl
  count := rfl
  same _ _ := ⟨rfl,rfl⟩
  numbers := by simp
  fills i vacant occupied := absurd occupied vacant

theorem Delivered.occupied {pkts : List Packet} (delivered : Delivered cycle s pkts s') {i : Nat} (occupied : s.iq.Occupied i) :
    s'.iq.Occupied i := by
  obtain ⟨slot,found,holds⟩ := occupied
  exact ⟨slot,(delivered.same i ⟨slot,found,holds⟩).1.trans found,holds⟩

theorem Delivered.trans {pkts pkts' : List Packet} (first : Delivered cycle s pkts s') (second : Delivered cycle s' pkts' s'') :
    Delivered cycle s (pkts ++ pkts') s'' where
  capacity := second.capacity.trans first.capacity
  count := by rw [second.count,first.count,List.length_append,Nat.add_assoc]
  same i occupied := by
    obtain ⟨slot,number⟩ := first.same i occupied
    obtain ⟨slot',number'⟩ := second.same i (first.occupied occupied)
    exact ⟨slot'.trans slot,number'.trans number⟩
  numbers := by
    have later := second.numbers.trans (first.numbers.append_right _)
    rwa [first.count,List.append_assoc,List.range'_append_1,← List.length_append] at later
  fills i vacant occupied := by
    by_cases before : s'.iq.Occupied i
    · obtain ⟨k,pkt,isPkt,number,slot⟩ := first.fills i vacant before
      obtain ⟨slot',number'⟩ := second.same i before
      obtain ⟨inside,-⟩ := List.getElem?_eq_some_iff.mp isPkt
      exact ⟨k,pkt,by rwa [List.getElem?_append_left inside],number'.trans number,slot'.trans slot⟩
    · obtain ⟨k,pkt,isPkt,number,slot⟩ := second.fills i before occupied
      refine ⟨pkts.length + k,pkt,?_,?_,slot⟩
      · rwa [List.getElem?_append_right (Nat.le_add_right ..),Nat.add_sub_cancel_left]
      · rw [number,first.count,Nat.add_assoc]

/-- A packet is stored in the first free slot, and gets the next number. -/
theorem delivered_store {iq : InputQueue} {k : Nat} {pkt : Packet} (found : s.iq.findFreeSlot = some k)
    (stored : s.iq.store cycle pkt = some iq) : Delivered cycle s [pkt]
      { iq, arrived := Function.update s.arrived k s.count, count := s.count + 1 } := by
  obtain ⟨inside,isFree⟩ := findFreeSlot_some found
  have filled : iq.slots = s.iq.slots.set k { stored := ⟨cycle,pkt⟩, free := false, blockReasons := 0 } := by
    unfold store at stored
    split at stored
    · cases stored
    · next slot found' =>
      obtain rfl := Option.some.inj (found.symm.trans found')
      rw [← Option.some.inj stored]
      rfl
  have vacant : ¬ s.iq.Occupied k := by
    rintro ⟨slot,there,holds⟩
    rw [List.getElem?_eq_getElem inside] at there
    obtain rfl := Option.some.inj there
    cases isFree.symm.trans holds
  have here : iq.slots[k]? = some { stored := ⟨cycle,pkt⟩, free := false, blockReasons := 0 } := by
    rw [filled,List.getElem?_set_self inside]
  have other : ∀ i, i ≠ k → iq.slots[i]? = s.iq.slots[i]? := fun i apart => by
    rw [filled,List.getElem?_set_ne (Ne.symm apart)]
  have occupied_iff : ∀ i, iq.Occupied i ↔ i ∈ k :: s.iq.occupied := by
    intro i
    rw [List.mem_cons,mem_occupied]
    by_cases same : i = k
    · subst same
      exact ⟨fun _ => .inl rfl,fun _ => ⟨_,here,rfl⟩⟩
    · rw [Occupied,other i same,or_iff_right same]
      rfl
  have apart : ∀ i, s.iq.Occupied i → i ≠ k := by
    rintro i occupied rfl
    exact vacant occupied
  refine ⟨?_,rfl,?_,?_,?_⟩
  · show iq.slots.length = s.iq.slots.length
    rw [filled,List.length_set]
  · exact fun i occupied => ⟨other i (apart i occupied),Function.update_of_ne (apart i occupied) ..⟩
  · have distinct : (k :: s.iq.occupied).Nodup := List.nodup_cons.mpr ⟨fun member => vacant (mem_occupied.mp member),s.iq.nodup_occupied⟩
    have numbers : s.iq.occupied.map (Function.update s.arrived k s.count) = s.iq.occupied.map s.arrived :=
      List.map_congr_left fun i member => Function.update_of_ne (apart i (mem_occupied.mp member)) ..
    calc iq.occupied.map (Function.update s.arrived k s.count)
      _ ~ (k :: s.iq.occupied).map (Function.update s.arrived k s.count) := (occupied_perm distinct occupied_iff).map _
      _ = s.count :: s.iq.occupied.map s.arrived := by rw [List.map_cons,Function.update_self,numbers]
      _ ~ s.iq.occupied.map s.arrived ++ [s.count] := (List.perm_append_singleton ..).symm
  · intro i vacant occupied
    obtain rfl : i = k := (List.mem_cons.mp ((occupied_iff i).mp occupied)).resolve_right fun member => vacant (mem_occupied.mp member)
    exact ⟨0,pkt,rfl,Function.update_self ..,here⟩

/-- A tick stores what fits. -/
theorem deliver_spec (cycle : Nat) : ∀ (pkts : List Packet) (s : QueueSession),
    Delivered cycle s (pkts.take (s.iq.capacity - s.iq.length)) (s.deliver cycle pkts)
  | [], s => by
    rw [List.take_nil]
    exact .refl cycle s
  | pkt :: rest, s => by
    rw [QueueSession.deliver]
    rcases found : s.iq.findFreeSlot with _ | slot
    · rw [store_eq_none (store_of_full found cycle pkt),Nat.sub_self,List.take_zero]
      exact .refl cycle s
    · rcases stored : s.iq.store cycle pkt with _ | iq
      · rw [store_eq_none stored,Nat.sub_self,List.take_zero]
        exact .refl cycle s
      · obtain ⟨-,length,capacity,-⟩ := store_eq_some stored
        have later := deliver_spec cycle rest { iq, arrived := Function.update s.arrived slot s.count, count := s.count + 1 }
        have room : s.iq.capacity - s.iq.length = iq.capacity - iq.length + 1 := by
          have bounded := iq.length_le
          omega
        rw [room,List.take_succ_cons]
        exact (delivered_store found stored).trans later

/-- What is stored shows in the slots alone. -/
theorem Delivered.of_slots {pkts : List Packet} {iq : InputQueue} (delivered : Delivered cycle s pkts s')
    (slots : iq.slots = s'.iq.slots) : Delivered cycle s pkts { s' with iq } := by
  have occupied_iff : ∀ i, iq.Occupied i ↔ s'.iq.Occupied i := by
    unfold Occupied
    rw [slots]
    exact fun _ => Iff.rfl
  have same : iq.occupied = s'.iq.occupied := by
    unfold InputQueue.occupied InputQueue.capacity
    rw [slots]
  refine ⟨(congrArg List.length slots).trans delivered.capacity,delivered.count,fun i held => ?_,?_,fun i vacant held => ?_⟩
  · dsimp only
    rw [slots]
    exact delivered.same i held
  · dsimp only
    rw [same]
    exact delivered.numbers
  · dsimp only
    rw [slots]
    exact delivered.fills i vacant ((occupied_iff i).mp held)

theorem tick_spec (cycle : Nat) (pkts : List Packet) (s : QueueSession) :
    Delivered cycle s (pkts.take (s.iq.capacity - s.iq.length)) (s.tick cycle pkts) :=
  (deliver_spec cycle pkts s).of_slots (QueueSession.slots_tick s cycle pkts)

end StoreSession

/-! ### Steps -/

namespace StoreCall
open InputQueue
variable {iq : InputQueue}

/-- A call gives up the occupied slots whose packets it takes. -/
theorem mem_givenUp {call : StoreCall} {i : Nat} : i ∈ call.givenUp iq ↔ iq.Occupied i ∧ call.Takes iq i := by
  cases call with
  | pick sortSlice =>
    rw [givenUp,(sortSlice.perm iq.cycleAt iq.unblocked).mem_iff]
    exact ⟨fun member => ⟨occupied_of_unblocked member,member⟩,And.right⟩
  | free slot => rw [givenUp,List.mem_filter,mem_occupied,decide_eq_true_iff,Takes]
  | tick cycle pkts => exact ⟨fun member => absurd member List.not_mem_nil,fun takes => takes.2.elim⟩
  | peekPickTo sortSlice maxOut => exact ⟨fun member => absurd member List.not_mem_nil,fun takes => takes.2.elim⟩
  | block slot reason => exact ⟨fun member => absurd member List.not_mem_nil,fun takes => takes.2.elim⟩

theorem nodup_givenUp (iq : InputQueue) (call : StoreCall) : (call.givenUp iq).Nodup := by
  cases call with
  | pick sortSlice => exact (sortSlice.perm iq.cycleAt iq.unblocked).nodup_iff.mpr iq.nodup_unblocked
  | free slot => exact iq.nodup_occupied.filter _
  | tick cycle pkts => exact List.nodup_nil
  | peekPickTo sortSlice maxOut => exact List.nodup_nil
  | block slot reason => exact List.nodup_nil

theorem taken_eq (iq : InputQueue) (call : StoreCall) : call.taken iq = iq.packetsAt (call.givenUp iq) := by
  cases call <;> rfl

theorem givenUp_free_of_vacant {slot : Int} (vacant : ∀ i, iq.Occupied i → (i : Int) ≠ slot) : (free slot).givenUp iq = [] := by
  refine List.filter_eq_nil_iff.mpr fun i member => ?_
  simpa using vacant i (mem_occupied.mp member)

theorem freeAt_of_vacant {slot : Int} (vacant : ∀ i, iq.Occupied i → (i : Int) ≠ slot) : iq.freeAt slot = iq := by
  unfold freeAt
  split_ifs with inside
  · exact free_of_vacant fun occupied => vacant _ occupied (Int.toNat_of_nonneg inside)
  · rfl

theorem released_freeAt (iq : InputQueue) (slot : Int) : Released iq ((free slot).givenUp iq) (iq.freeAt slot) := by
  by_cases held : ∃ i, iq.Occupied i ∧ (i : Int) = slot
  · obtain ⟨i,occupied,rfl⟩ := held
    have only : (free i).givenUp iq = [i] := by
      refine List.perm_singleton.mp ((List.perm_ext_iff_of_nodup (nodup_givenUp iq _) (List.nodup_singleton i)).mpr fun j => ?_)
      rw [mem_givenUp,List.mem_singleton,Takes,Int.natCast_inj]
      exact ⟨And.right,fun same => ⟨same ▸ occupied,same⟩⟩
    rw [only,freeAt,if_pos (Int.natCast_nonneg i),Int.toNat_natCast]
    exact released_free occupied
  · have vacant : ∀ i, iq.Occupied i → (i : Int) ≠ slot := fun i occupied same => held ⟨i,occupied,same⟩
    rw [givenUp_free_of_vacant vacant,freeAt_of_vacant vacant]
    exact .refl iq

end StoreCall

namespace StoreSession
open InputQueue
variable {s s' : StoreSession} {call : StoreCall}

/-- A tick stores packets. Any other call gives up slots, and changes no packet. -/
theorem step_cases (stepped : s.step call = some s') :
    (∃ cycle pkts, call = .tick cycle pkts ∧
      s' = { s.tick cycle pkts with stored := s.stored ++ pkts.take (s.iq.capacity - s.iq.length), left := s.left }) ∨
    (call.received = [] ∧ s' = s.leave (call.givenUp s.iq) s'.iq ∧ Released s.iq (call.givenUp s.iq) s'.iq) := by
  have stays : s = s.leave [] s.iq := by
    unfold leave
    rw [List.map_nil,List.append_nil]
  cases call with
  | tick cycle pkts =>
    left
    refine ⟨cycle,pkts,rfl,?_⟩
    have count := (tick_spec cycle pkts s.toQueueSession).count
    rw [← Option.some.inj stepped,count,Nat.add_sub_cancel_left,List.length_take,← List.take_eq_take_min]
  | pick sortSlice =>
    right
    obtain rfl := Option.some.inj stepped
    refine ⟨rfl,rfl,released_foldl_free (StoreCall.nodup_givenUp s.iq _) fun i member => ?_⟩
    exact (StoreCall.mem_givenUp.mp member).1
  | peekPickTo sortSlice maxOut =>
    right
    obtain rfl := Option.some.inj stepped
    exact ⟨rfl,stays,.refl s.iq⟩
  | free slot =>
    right
    obtain rfl := Option.some.inj stepped
    exact ⟨rfl,rfl,StoreCall.released_freeAt s.iq slot⟩
  | block slot reason =>
    right
    obtain rfl := Option.some.inj stepped
    refine ⟨rfl,by rw [leave]; simp [StoreCall.givenUp],?_⟩
    show Released s.iq [] (s.iq.blockAt slot reason)
    unfold blockAt
    split_ifs
    · exact released_block s.iq slot.toNat reason
    · exact .refl s.iq

/-- Freeing a slot that holds nothing changes nothing. -/
theorem free_vacant {slot : Int} (vacant : ∀ i, s.iq.Occupied i → (i : Int) ≠ slot) : s.step (.free slot) = some s := by
  rw [step,StoreCall.givenUp_free_of_vacant vacant,StoreCall.freeAt_of_vacant vacant,leave,List.map_nil,List.append_nil]

theorem Kept.arrived_lt (kept : Kept s) {i : Nat} (occupied : s.iq.Occupied i) : s.arrived i < s.stored.length := by
  refine List.mem_range.mp (kept.accounts.mem_iff.mp (List.mem_append_left _ ?_))
  exact List.mem_map_of_mem (mem_occupied.mpr occupied)

theorem kept_new {capacity inBandwidth : Nat} (pos : 0 < capacity) (bandwidthPos : 0 < inBandwidth) :
    Kept (new capacity inBandwidth pos bandwidthPos) := by
  have vacant : ∀ i, ¬ (newInputQueue capacity inBandwidth pos bandwidthPos).Occupied i := by
    rintro i ⟨slot,found,holds⟩
    rw [List.eq_of_mem_replicate (List.mem_of_getElem? found)] at holds
    cases holds
  have none_occupied : (newInputQueue capacity inBandwidth pos bandwidthPos).occupied = [] :=
    List.eq_nil_iff_forall_not_mem.mpr fun i member => vacant i (mem_occupied.mp member)
  refine ⟨rfl,length_occupied _,length_le _,?_,fun i occupied => absurd occupied (vacant i)⟩
  show (List.map _ (newInputQueue capacity inBandwidth pos bandwidthPos).occupied ++ []).Perm _
  rw [none_occupied]
  exact .refl _

/-- A tick gives every packet that it stores a number of its own. -/
theorem Kept.tick (kept : Kept s) (cycle : Nat) (pkts : List Packet) :
    Kept { s.tick cycle pkts with stored := s.stored ++ pkts.take (s.iq.capacity - s.iq.length), left := s.left } := by
  have delivered := tick_spec cycle pkts s.toQueueSession
  generalize pkts.take (s.iq.capacity - s.iq.length) = fitting at delivered
  refine ⟨?_,length_occupied _,length_le _,?_,fun i occupied => ?_⟩
  · rw [List.length_append,← kept.count]
    exact delivered.count
  · calc (s.tick cycle pkts).iq.occupied.map (s.tick cycle pkts).arrived ++ s.left
      _ ~ s.iq.occupied.map s.arrived ++ List.range' s.count fitting.length ++ s.left := delivered.numbers.append_right _
      _ ~ s.iq.occupied.map s.arrived ++ s.left ++ List.range' s.count fitting.length := by
          rw [List.append_assoc,List.append_assoc]
          exact List.perm_append_comm.append_left _
      _ ~ List.range s.stored.length ++ List.range' s.count fitting.length := kept.accounts.append_right _
      _ = List.range (s.stored ++ fitting).length := by
          rw [kept.count,List.range_eq_range',List.range_eq_range',List.length_append,← List.range'_append_1,Nat.zero_add]
  · dsimp only
    by_cases before : s.iq.Occupied i
    · obtain ⟨slot,number⟩ := delivered.same i before
      rw [number,List.getElem?_append_left (kept.arrived_lt before),← kept.holds i before,content,content,slot]
    · obtain ⟨k,pkt,isPkt,number,slot⟩ := delivered.fills i before occupied
      rw [number,kept.count,List.getElem?_append_right (Nat.le_add_right ..),Nat.add_sub_cancel_left,isPkt,content,slot]
      rfl

/-- Giving up slots lets their packets leave. -/
theorem Kept.leave (kept : Kept s) {slots : List Nat} {iq : InputQueue} (released : Released s.iq slots iq)
    (distinct : slots.Nodup) (occupied : ∀ i ∈ slots, s.iq.Occupied i) : Kept (s.leave slots iq) := by
  refine ⟨kept.count,length_occupied _,length_le _,?_,fun i held => ?_⟩
  · calc iq.occupied.map s.arrived ++ (s.left ++ slots.map s.arrived)
      _ ~ s.left ++ slots.map s.arrived ++ iq.occupied.map s.arrived := List.perm_append_comm
      _ = s.left ++ (slots ++ iq.occupied).map s.arrived := by rw [List.map_append,List.append_assoc]
      _ ~ s.left ++ s.iq.occupied.map s.arrived := ((released.perm distinct occupied).symm.map _).append_left _
      _ ~ s.iq.occupied.map s.arrived ++ s.left := List.perm_append_comm
      _ ~ List.range s.stored.length := kept.accounts
  · obtain ⟨before,other⟩ := (released.occupied i).mp held
    exact (congrArg _ (released.same i other)).trans (kept.holds i before)

theorem Kept.step (kept : Kept s) (stepped : s.step call = some s') : Kept s' := by
  rcases step_cases stepped with ⟨cycle,pkts,-,rfl⟩ | ⟨-,left,released⟩
  · exact kept.tick cycle pkts
  · rw [left]
    exact kept.leave released (StoreCall.nodup_givenUp s.iq call) fun i member => (StoreCall.mem_givenUp.mp member).1

/-- The packets in occupied slots are those that were stored under their numbers. -/
theorem Kept.packetsAt (kept : Kept s) : ∀ {slots : List Nat}, (∀ i ∈ slots, s.iq.Occupied i) →
    (slots.map s.arrived).map (s.stored[·]?) = (s.iq.packetsAt slots).map some
  | [], _ => rfl
  | i :: rest, occupied => by
    have others := kept.packetsAt fun j member => occupied j (List.mem_cons_of_mem _ member)
    have here := kept.holds i (occupied i List.mem_cons_self)
    obtain ⟨slot,found,-⟩ := occupied i List.mem_cons_self
    have first : s.iq.packetsAt (i :: rest) = slot.stored.packet :: s.iq.packetsAt rest := by
      unfold InputQueue.packetsAt
      rw [List.filterMap_cons,found]
      rfl
    rw [content,found] at here
    rw [first,List.map_cons,List.map_cons,List.map_cons,others,← here]
    rfl

theorem Kept.follows (kept : Kept s) (stepped : s.step call = some s') : Follows s call s' := by
  have again : ∀ slot, call = .free slot → (∀ i, s.iq.Occupied i → (i : Int) ≠ slot) → s' = s := by
    rintro slot rfl vacant
    exact Option.some.inj (stepped.symm.trans (free_vacant vacant))
  have ticks : ∀ cycle pkts, call = .tick cycle pkts → s'.iq = (s.iq.tickWith cycle pkts).2 := by
    rintro cycle pkts rfl
    exact congrArg (fun s : StoreSession => s.iq) (Option.some.inj stepped).symm
  have fails : ∀ cycle pkts, (s.iq.tickWith cycle pkts).1 =
      pkts[s.iq.capacity - s.iq.length]?.map fun pkt => capacityExceeded s.iq.capacity s.iq.capacity pkt cycle :=
    fun cycle pkts => (tickWith_spec s.iq cycle pkts).1.trans (storeAll_error cycle pkts s.iq)
  rcases step_cases stepped with ⟨cycle,pkts,rfl,rfl⟩ | ⟨nothing,left,released⟩
  · have delivered := tick_spec cycle pkts s.toQueueSession
    refine ⟨ticks,fails,fun i occupied _ => ?_,fun i _ takes => takes.elim,rfl,⟨[],(List.append_nil _).symm,rfl⟩,fun i vacant occupied => ?_,
      again,fun slot other => nomatch other⟩
    · obtain ⟨slot,number⟩ := delivered.same i occupied
      exact ⟨delivered.occupied occupied,number,congrArg _ slot⟩
    · obtain ⟨k,pkt,-,number,slot⟩ := delivered.fills i vacant occupied
      refine ⟨?_,by rw [slot]; rfl⟩
      rw [← kept.count]
      exact number ▸ Nat.le_add_right ..
  · have given := fun i (member : i ∈ call.givenUp s.iq) => (StoreCall.mem_givenUp.mp member).1
    refine ⟨ticks,fails,fun i occupied stays => ?_,fun i occupied takes => ?_,?_,⟨(call.givenUp s.iq).map s.arrived,?_,?_⟩,
      fun i vacant occupied => ?_,again,?_⟩
    · have other : i ∉ call.givenUp s.iq := fun member => stays (StoreCall.mem_givenUp.mp member).2
      exact ⟨(released.occupied i).mpr ⟨occupied,other⟩,by rw [left]; rfl,released.same i other⟩
    · have member := StoreCall.mem_givenUp.mpr ⟨occupied,takes⟩
      refine ⟨fun still => ((released.occupied i).mp still).2 member,?_⟩
      rw [left]
      exact List.mem_append_right _ (List.mem_map_of_mem member)
    · rw [left,nothing,List.take_nil,List.append_nil]
      rfl
    · rw [left]
      rfl
    · rw [kept.packetsAt given,StoreCall.taken_eq]
    · exact absurd ((released.occupied i).mp occupied).1 vacant
    · rintro slot rfl
      refine free_vacant fun i still same => ?_
      obtain ⟨before,other⟩ := (released.occupied i).mp still
      exact other (StoreCall.mem_givenUp.mpr ⟨before,same⟩)

theorem capacity_step (stepped : s.step call = some s') : s'.iq.capacity = s.iq.capacity := by
  rcases step_cases stepped with ⟨cycle,pkts,rfl,rfl⟩ | ⟨-,-,released⟩
  · exact (tick_spec cycle pkts s.toQueueSession).capacity
  · exact released.capacity

/-! ### Runs -/

theorem Later.refl (s : StoreSession) : Later s s :=
  ⟨List.prefix_rfl,List.prefix_rfl,fun _ occupied => .inr ⟨occupied,rfl,rfl⟩⟩

/-- A packet that waits goes on waiting in its slot, or leaves. -/
theorem Later.step {s'' : StoreSession} (later : Later s s') (follows : Follows s' call s'') : Later s s'' := by
  obtain ⟨numbers,gone,-⟩ := follows.left
  have longer : s'.left <+: s''.left := ⟨numbers,gone.symm⟩
  refine ⟨later.stored.trans ⟨_,follows.stored.symm⟩,later.left.trans longer,fun i occupied => ?_⟩
  rcases later.waits i occupied with hasLeft | waits
  · exact .inl (longer.subset hasLeft)
  · by_cases takes : call.Takes s'.iq i
    · left
      rw [← waits.number]
      exact (follows.goes i waits.occupied takes).2
    · obtain ⟨still,number,same⟩ := follows.stays i waits.occupied takes
      exact .inr ⟨still,number.trans waits.number,same.trans waits.content⟩

/-- After any ticks and calls the length counts the occupied slots, and every stored packet
    either waits in one slot or has left once. A tick stores what fits and fails at the first
    packet that does not. A call takes the packets that it names and leaves the others in their
    slots, slots start unblocked, and a second `Free` changes nothing. -/
theorem store_invariant (capacity inBandwidth : Nat) (pos : 0 < capacity) (bandwidthPos : 0 < inBandwidth) (s : StoreSession)
    (reached : Reachable step (new capacity inBandwidth pos bandwidthPos) s) :
    s.iq.capacity = capacity ∧ Kept s ∧ (∀ call s', s.step call = some s' → Follows s call s') ∧
      ∀ s', Reachable step s s' → Later s s' := by
  have same : s.iq.capacity = capacity := reached.invariant (P := fun s => s.iq.capacity = capacity)
    List.length_replicate fun _ now _ stepped => (capacity_step stepped).trans now
  have kept : Kept s := reached.invariant (kept_new pos bandwidthPos) fun _ now _ stepped => now.step stepped
  refine ⟨same,kept,fun call s' stepped => kept.follows stepped,fun s' run => ?_⟩
  have both : Kept s' ∧ Later s s' := run.invariant (P := fun s' => Kept s' ∧ Later s s') ⟨kept,.refl s⟩
    fun _ now _ stepped => ⟨now.1.step stepped,now.2.step (now.1.follows stepped)⟩
  exact both.2

/-- Two packets for the one slot, which is then freed twice, blocked while free and used again. -/
theorem store_invariant_one_slot : ∃ s : StoreSession, s.stored.map Packet.data = [1,3] ∧ s.left = [0] ∧ s.iq.length = 1 ∧ Kept s ∧
    (∀ call s', s.step call = some s' → Follows s call s') ∧ ∀ s', Reachable step s s' → Later s s' := by
  obtain ⟨-,kept,follows,later⟩ := store_invariant 1 1 (by decide) (by decide) _ (reaches_runActions
    [.tick 0 [{ sourceID := 0, targetID := 1, data := 1 },{ sourceID := 0, targetID := 1, data := 2 }],.free 0,.free 0,.block 0 1,
      .tick 1 [{ sourceID := 0, targetID := 1, data := 3 }]] rfl)
  exact ⟨_,by decide,by decide,by decide,kept,follows,later⟩

/-- A packet that is received where no slot is free is dropped with an error; and `Free` a
    second time takes out the packet that a tick has stored in the slot in between. -/
theorem dropped_and_freed_again :
    (∃ s, (new 1 1 (by decide) (by decide)).step
        (.tick 0 [{ sourceID := 0, targetID := 1, data := 1 },{ sourceID := 0, targetID := 1, data := 2 }]) = some s ∧
      s.iq.packets.map Packet.data = [1]) ∧
    ((newInputQueue 1 1 (by decide) (by decide)).tickWith 0
      [{ sourceID := 0, targetID := 1, data := 1 },{ sourceID := 0, targetID := 1, data := 2 }]).1.isSome ∧
    ∃ s s', runActions step (fun _ _ => True) [.tick 0 [{ sourceID := 0, targetID := 1, data := 1 }],.free 0,
        .tick 1 [{ sourceID := 0, targetID := 1, data := 2 }]] (new 1 1 (by decide) (by decide)) = some s ∧
      s.step (.free 0) = some s' ∧ s.iq.length = 1 ∧ s'.iq.length = 0 :=
  ⟨⟨_,rfl,by decide⟩,by decide,_,_,rfl,rfl,by decide,by decide⟩

end StoreSession
end FlowSim.Queue
