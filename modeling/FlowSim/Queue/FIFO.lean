import FlowSim.Queue.InputQueue
import FlowSim.Lib.Transition

/-!
The order in which an input queue hands its packets on. A session numbers the packets as
they are stored; the arrival order is by cycle, and within a cycle by number. The queue
sorts the slots by cycle alone, so the arrival order is kept whatever the sort does with
equal keys exactly as long as no two waiting packets arrived in one cycle.
-/
namespace FlowSim.Queue
open FlowSim.Lib FlowSim.AheadPort
set_option linter.unusedSimpArgs false

namespace InputQueue

/-- The slots whose packets are waiting and not blocked. -/
def unblocked (iq : InputQueue) : List Nat :=
  (List.range iq.capacity).filter (fun i => iq.slots[i]?.any (fun slot => !slot.free && slot.blockReasons == 0))

/-- The cycle in which the packet of a slot arrived. -/
def cycleAt (iq : InputQueue) (slot : Nat) : Nat := (iq.slots[slot]?.map (fun slot => slot.stored.cycle)).getD 0

/-- The packets of the slots, in turn. -/
def packetsAt (iq : InputQueue) (slots : List Nat) : List Packet :=
  slots.filterMap (fun i => iq.slots[i]?.map (fun slot => slot.stored.packet))

/-- References to the packets of the slots, in turn. -/
def refsAt (iq : InputQueue) (queue : Nat) (slots : List Nat) : List PacketRef :=
  slots.filterMap (fun i => iq.slots[i]?.map (fun slot => { packet := slot.stored.packet, slot := i, queue }))

/-- The slot holds a packet. -/
def Occupied (iq : InputQueue) (i : Nat) : Prop := ∃ slot, iq.slots[i]? = some slot ∧ slot.free = false

/-- The answers of a port that hands out the packets. -/
def handing (pkts : List Packet) : (op : PortOp) → op.Resp
  | .retrieve _ => pkts
  | .isReady _ => true
  | .drainChannel | .waitDone _ | .updateReady .. | .send _ | .markDone _ => ()

/-- The tick of a cycle in which the packets are received: its error, and the queue afterwards. -/
def tickWith (iq : InputQueue) (cycle : Nat) (pkts : List Packet) : Option String × InputQueue :=
  (iq.tick cycle).answered (handing pkts)

/-- Telling the sender about the coming cycles touches no slot. -/
theorem slots_updateUpstream (iq : InputQueue) (cycle : Nat) (pkts : List Packet) :
    ((iq.updateUpstream cycle).answered (handing pkts)).slots = iq.slots := by
  unfold updateUpstream
  split
  · rfl
  · rw [Prog.answered_bind]
    rfl

/-- A tick stores what it receives, and fails as storing does. -/
theorem tickWith_spec (iq : InputQueue) (cycle : Nat) (pkts : List Packet) :
    (iq.tickWith cycle pkts).1 = (storeAll cycle pkts iq).1 ∧
      (iq.tickWith cycle pkts).2.slots = (storeAll cycle pkts iq).2.slots := by
  have received : (receive cycle).answered (handing pkts) = pkts := rfl
  unfold tickWith tick
  rw [Prog.answered_bind,received]
  rcases storeAll cycle pkts iq with ⟨error | error,iq'⟩
  · simp only [Prog.answered_bind]
    exact ⟨rfl,slots_updateUpstream { iq' with lastCyclePackets := pkts } cycle pkts⟩
  · exact ⟨rfl,rfl⟩

section
variable {iq iq' : InputQueue} {i : Nat}

theorem pick_packets (sortSlice : SliceSort) (iq : InputQueue) :
    (iq.pick sortSlice).1 = iq.packetsAt (sortSlice.sort iq.cycleAt iq.unblocked) := rfl

theorem occupied_of_unblocked (member : i ∈ iq.unblocked) : iq.Occupied i := by
  obtain ⟨_,holds⟩ := List.mem_filter.mp member
  rcases found : iq.slots[i]? with _ | slot
  · rw [found] at holds
    cases holds
  · rw [found,Option.any_some,Bool.and_eq_true,Bool.not_eq_true'] at holds
    exact ⟨slot,found,holds.1⟩

theorem nodup_unblocked (iq : InputQueue) : iq.unblocked.Nodup := List.nodup_range.filter _

/-- The empty queue is not sorted, and there is nothing to sort. -/
theorem peekPickTo_eq (sortSlice : SliceSort) (iq : InputQueue) (queue maxOut : Nat) :
    iq.peekPickTo sortSlice queue maxOut = (iq.refsAt queue (sortSlice.sort iq.cycleAt iq.unblocked)).take maxOut := by
  unfold peekPickTo
  split
  · next empty =>
    have nothing : iq.unblocked = [] := by
      refine List.eq_nil_iff_forall_not_mem.mpr fun i member => ?_
      obtain ⟨slot,found,holds⟩ := occupied_of_unblocked member
      have some_ : 0 < iq.slots.countP (fun slot => !slot.free) :=
        List.countP_pos_iff.mpr ⟨slot,List.mem_of_getElem? found,by rw [holds]; rfl⟩
      rw [← iq.length_eq] at some_
      omega
    have none_sorted : sortSlice.sort iq.cycleAt iq.unblocked = [] := by
      rw [nothing]
      exact List.perm_nil.mp (sortSlice.perm _ _)
    rw [none_sorted]
    exact List.take_nil.symm
  · rfl

/-- Replacing a slot by one that holds no packet unless the old one did. -/
theorem occupied_of_set {slots : List Slot} {k : Nat} {new slot : Slot}
    (held : ∀ old, slots[k]? = some old → new.free = false → old.free = false)
    (found : (slots.set k new)[i]? = some slot) (holds : slot.free = false) :
    ∃ old, slots[i]? = some old ∧ old.free = false := by
  rw [List.getElem?_set] at found
  split at found
  · next same =>
    subst same
    split at found
    · next inside =>
      obtain rfl := Option.some.inj found
      have present : slots[k]? = some slots[k] := List.getElem?_eq_getElem inside
      exact ⟨_,present,held _ present holds⟩
    · cases found
  · exact ⟨slot,found,holds⟩

theorem occupied_free {k : Nat} (occupied : (iq.free k).Occupied i) : iq.Occupied i := by
  obtain ⟨slot,found,holds⟩ := occupied
  unfold free at found
  split at found
  · next inside =>
    split at found
    · exact occupied_of_set (fun old _ now => absurd now (by simp)) found holds
    · exact ⟨slot,found,holds⟩
  · exact ⟨slot,found,holds⟩

theorem occupied_block {k reason : Nat} (occupied : (iq.block k reason).Occupied i) : iq.Occupied i := by
  obtain ⟨slot,found,holds⟩ := occupied
  unfold block at found
  split at found
  · next inside =>
    refine occupied_of_set (fun old present now => ?_) found holds
    rw [List.getElem?_eq_getElem inside] at present
    obtain rfl := Option.some.inj present
    exact now
  · exact ⟨slot,found,holds⟩

theorem occupied_foldl_free : ∀ {slots : List Nat} {iq : InputQueue}, (slots.foldl free iq).Occupied i → iq.Occupied i
  | [], _, occupied => occupied
  | _ :: _, _, occupied => occupied_free (occupied_foldl_free occupied)

/-- Calls other than a tick fill no slot. -/
theorem occupied_call {sortSlice : SliceSort} {queueCall : QueueCall}
    (occupied : (iq.call sortSlice queueCall).Occupied i) : iq.Occupied i := by
  cases queueCall with
  | pick => exact occupied_foldl_free occupied
  | peekPickTo maxOut => exact occupied
  | free slot => exact occupied_free occupied
  | block slot reason => exact occupied_block occupied

/-- A stored packet fills the slot that was found. -/
theorem occupied_store {cycle k : Nat} {pkt : Packet} (found : iq.findFreeSlot = some k)
    (stored : iq.store cycle pkt = some iq') (occupied : iq'.Occupied i) : i = k ∨ iq.Occupied i := by
  unfold store at stored
  split at stored
  · cases stored
  · next slot found' =>
    obtain rfl : slot = k := Option.some.inj (found'.symm.trans found)
    obtain rfl := Option.some.inj stored
    by_cases here : i = slot
    · exact .inl here
    · right
      obtain ⟨held,there,holds⟩ := occupied
      refine ⟨held,?_,holds⟩
      rw [← there]
      exact (List.getElem?_set_ne (Ne.symm here)).symm

end
end InputQueue

/-! ### Sessions -/

/-- A queue, how many packets have been stored in it, and the number of the packet that
    each slot was last given. -/
structure QueueSession where
  iq : InputQueue
  arrived : Nat → Nat
  count : Nat

/-- A tick of a cycle that is given packets, or a call of the node; the sort is free to
    treat equal keys differently every time. -/
inductive QueueAction where
  | tick (cycle : Nat) (pkts : List Packet)
  | call (sortSlice : SliceSort) (queueCall : InputQueue.QueueCall)

namespace QueueSession
open InputQueue

def new (capacity inBandwidth : Nat) (pos : 0 < capacity) (bandwidthPos : 0 < inBandwidth) : QueueSession where
  iq := newInputQueue capacity inBandwidth pos bandwidthPos
  arrived := fun _ => 0
  count := 0

/-- Stores the packets in turn and numbers them. -/
def deliver (cycle : Nat) : List Packet → QueueSession → QueueSession
  | [], s => s
  | pkt :: rest, s =>
    match s.iq.findFreeSlot, s.iq.store cycle pkt with
    | some slot, some iq =>
      deliver cycle rest { iq, arrived := Function.update s.arrived slot s.count, count := s.count + 1 }
    | _, _ => s

/-- A tick that receives the packets, with their numbers. -/
def tick (s : QueueSession) (cycle : Nat) (pkts : List Packet) : QueueSession :=
  { s.deliver cycle pkts with iq := (s.iq.tickWith cycle pkts).2 }

def step (s : QueueSession) : QueueAction → Option QueueSession
  | .tick cycle pkts => some (s.tick cycle pkts)
  | .call sortSlice queueCall => some { s with iq := s.iq.call sortSlice queueCall }

/-- The packet of slot `i` arrived before that of slot `j`. -/
def Before (s : QueueSession) (i j : Nat) : Prop :=
  s.iq.cycleAt i < s.iq.cycleAt j ∨ (s.iq.cycleAt i = s.iq.cycleAt j ∧ s.arrived i < s.arrived j)

/-- The slots of the unblocked waiting packets, in arrival order. -/
structure ArrivalOrder (s : QueueSession) (slots : List Nat) : Prop where
  perm : slots.Perm s.iq.unblocked
  ordered : slots.Pairwise s.Before

/-- `Pick` and `PeekPickTo` return the unblocked waiting packets in arrival order. -/
def InOrder (s : QueueSession) (sortSlice : SliceSort) : Prop :=
  ∃ slots, s.ArrivalOrder slots ∧ (s.iq.pick sortSlice).1 = s.iq.packetsAt slots ∧
    ∀ queue maxOut, s.iq.peekPickTo sortSlice queue maxOut = (s.iq.refsAt queue slots).take maxOut

/-- No two unblocked waiting packets arrived in the same cycle. -/
def OnePerCycle (s : QueueSession) : Prop :=
  ∀ i ∈ s.iq.unblocked, ∀ j ∈ s.iq.unblocked, s.iq.cycleAt i = s.iq.cycleAt j → i = j

/-- The packets that wait have numbers of their own. -/
structure Numbered (s : QueueSession) : Prop where
  below : ∀ i, s.iq.Occupied i → s.arrived i < s.count
  own : ∀ i j, s.iq.Occupied i → s.iq.Occupied j → s.arrived i = s.arrived j → i = j

/-- Numbering the packets changes nothing in how they are stored. -/
theorem iq_deliver (cycle : Nat) : ∀ (pkts : List Packet) (s : QueueSession),
    (s.deliver cycle pkts).iq = (storeAll cycle pkts s.iq).2
  | [], _ => rfl
  | pkt :: rest, s => by
    rw [deliver,storeAll]
    rcases found : s.iq.findFreeSlot with _ | slot
    · rw [store_of_full found]
    · rcases stored : s.iq.store cycle pkt with _ | iq
      · rfl
      · exact iq_deliver cycle rest _

theorem slots_tick (s : QueueSession) (cycle : Nat) (pkts : List Packet) :
    (s.tick cycle pkts).iq.slots = (s.deliver cycle pkts).iq.slots := by
  rw [iq_deliver]
  exact (tickWith_spec s.iq cycle pkts).2

theorem numbered_new {capacity inBandwidth : Nat} (pos : 0 < capacity) (bandwidthPos : 0 < inBandwidth) :
    (new capacity inBandwidth pos bandwidthPos).Numbered := by
  have vacant : ∀ i, ¬ (newInputQueue capacity inBandwidth pos bandwidthPos).Occupied i := by
    rintro i ⟨slot,found,holds⟩
    have free := List.eq_of_mem_replicate (List.mem_of_getElem? found)
    rw [free] at holds
    cases holds
  exact ⟨fun i occupied => absurd occupied (vacant i),fun i _ occupied => absurd occupied (vacant i)⟩

theorem Numbered.deliver (cycle : Nat) : ∀ (pkts : List Packet) {s : QueueSession}, s.Numbered →
    (s.deliver cycle pkts).Numbered
  | [], _, numbered => numbered
  | pkt :: rest, s, numbered => by
    rw [QueueSession.deliver]
    split
    · next slot iq found stored =>
      refine Numbered.deliver cycle rest ⟨?_,?_⟩
      · intro i occupied
        dsimp only
        rcases occupied_store found stored occupied with rfl | before
        · rw [Function.update_self]
          omega
        · have old := numbered.below i before
          rw [Function.update_apply]
          split <;> omega
      · intro i j occupied₁ occupied₂ same
        dsimp only at same
        rw [Function.update_apply,Function.update_apply] at same
        rcases occupied_store found stored occupied₁ with rfl | before₁
        · rcases occupied_store found stored occupied₂ with rfl | before₂
          · rfl
          · have old := numbered.below j before₂
            by_contra other
            rw [if_pos rfl,if_neg (Ne.symm other)] at same
            omega
        · have old₁ := numbered.below i before₁
          rcases occupied_store found stored occupied₂ with rfl | before₂
          · by_contra other
            rw [if_pos rfl,if_neg other] at same
            omega
          · by_cases here₁ : i = slot
            · by_cases here₂ : j = slot
              · rw [here₁,here₂]
              · have old₂ := numbered.below j before₂
                rw [if_pos here₁,if_neg here₂] at same
                omega
            · by_cases here₂ : j = slot
              · rw [if_neg here₁,if_pos here₂] at same
                omega
              · rw [if_neg here₁,if_neg here₂] at same
                exact numbered.own i j before₁ before₂ same
    · exact numbered

theorem Numbered.tick {s : QueueSession} (numbered : s.Numbered) (cycle : Nat) (pkts : List Packet) :
    (s.tick cycle pkts).Numbered := by
  have stored := numbered.deliver cycle pkts
  have same : ∀ {i}, (s.tick cycle pkts).iq.Occupied i → (s.deliver cycle pkts).iq.Occupied i := by
    unfold Occupied
    rw [slots_tick]
    exact id
  exact ⟨fun i occupied => stored.below i (same occupied),fun i j here there => stored.own i j (same here) (same there)⟩

theorem Numbered.step {s s' : QueueSession} {action : QueueAction} (numbered : s.Numbered)
    (stepped : s.step action = some s') : s'.Numbered := by
  cases action with
  | tick cycle pkts =>
    obtain rfl := Option.some.inj stepped
    exact numbered.tick cycle pkts
  | call sortSlice queueCall =>
    obtain rfl := Option.some.inj stepped
    refine ⟨fun i occupied => numbered.below i (occupied_call occupied),?_⟩
    intro i j occupied₁ occupied₂ same
    exact numbered.own i j (occupied_call occupied₁) (occupied_call occupied₂) same

/-- A sort that puts equal keys in the order of a rank. -/
def thenBy (rank : Nat → Nat) : SliceSort where
  sort key indices := indices.insertionSort (fun i j => key i < key j ∨ (key i = key j ∧ rank i ≤ rank j))
  perm _ indices := List.perm_insertionSort _ indices
  sorted key indices := by
    have total : Std.Total (fun i j => key i < key j ∨ (key i = key j ∧ rank i ≤ rank j)) := ⟨by omega⟩
    have trans : IsTrans Nat (fun i j => key i < key j ∨ (key i = key j ∧ rank i ≤ rank j)) := ⟨by omega⟩
    exact (List.pairwise_insertionSort _ indices).imp (by omega)

theorem thenBy_sorted (rank key : Nat → Nat) (indices : List Nat) :
    ((thenBy rank).sort key indices).Pairwise (fun i j => key i < key j ∨ (key i = key j ∧ rank i ≤ rank j)) := by
  have total : Std.Total (fun i j => key i < key j ∨ (key i = key j ∧ rank i ≤ rank j)) := ⟨by omega⟩
  have trans : IsTrans Nat (fun i j => key i < key j ∨ (key i = key j ∧ rank i ≤ rank j)) := ⟨by omega⟩
  exact List.pairwise_insertionSort _ indices

/-- The waiting packets have one arrival order. -/
theorem Numbered.arrivalOrder {s : QueueSession} (numbered : s.Numbered) : ∃! slots, s.ArrivalOrder slots := by
  have perm := (thenBy s.arrived).perm s.iq.cycleAt s.iq.unblocked
  refine ⟨_,⟨perm,?_⟩,?_⟩
  · have distinct := perm.nodup_iff.mpr s.iq.nodup_unblocked
    refine ((thenBy_sorted s.arrived s.iq.cycleAt s.iq.unblocked).and distinct).imp_of_mem ?_
    rintro i j inside_i inside_j ⟨early | ⟨same,sorted⟩,different⟩
    · exact .inl early
    · refine .inr ⟨same,lt_of_le_of_ne sorted fun equal => different ?_⟩
      exact numbered.own i j (occupied_of_unblocked (perm.mem_iff.mp inside_i))
        (occupied_of_unblocked (perm.mem_iff.mp inside_j)) equal
  · rintro slots ⟨perm',ordered⟩
    refine List.Perm.eq_of_pairwise ?_ ?_ (thenBy_sorted s.arrived s.iq.cycleAt s.iq.unblocked)
      (perm'.trans perm.symm)
    · intro i j inside_i inside_j before after
      exact numbered.own i j (occupied_of_unblocked (perm'.mem_iff.mp inside_i))
        (occupied_of_unblocked (perm.mem_iff.mp inside_j)) (by omega)
    · refine ordered.imp fun before => ?_
      rcases before with early | ⟨same,early⟩
      · exact .inl early
      · exact .inr ⟨same,Nat.le_of_lt early⟩

/-- References tell their slots. -/
theorem slots_of_refsAt {iq : InputQueue} (queue : Nat) : ∀ {slots : List Nat}, (∀ i ∈ slots, iq.Occupied i) →
    (iq.refsAt queue slots).map PacketRef.slot = slots
  | [], _ => rfl
  | i :: rest, occupied => by
    obtain ⟨slot,found,_⟩ := occupied i List.mem_cons_self
    have others := slots_of_refsAt queue (fun j member => occupied j (List.mem_cons_of_mem _ member))
    unfold refsAt at others ⊢
    rw [List.filterMap_cons,found,Option.map_some,List.map_cons,others]

/-- With one packet for each cycle, any sort by cycle is the arrival order. -/
theorem OnePerCycle.arrivalOrder {s : QueueSession} (one : s.OnePerCycle) (sortSlice : SliceSort) :
    s.ArrivalOrder (sortSlice.sort s.iq.cycleAt s.iq.unblocked) := by
  have perm := sortSlice.perm s.iq.cycleAt s.iq.unblocked
  refine ⟨perm,?_⟩
  have distinct : (sortSlice.sort s.iq.cycleAt s.iq.unblocked).Nodup := perm.nodup_iff.mpr s.iq.nodup_unblocked
  refine ((sortSlice.sorted _ _).and distinct).imp_of_mem ?_
  rintro i j inside_i inside_j ⟨sorted,different⟩
  refine .inl (lt_of_le_of_ne sorted fun same => different ?_)
  exact one i (perm.mem_iff.mp inside_i) j (perm.mem_iff.mp inside_j) same

/-- A queue that keeps the arrival order with every sort has one packet for each cycle: the
    sort may put those of one cycle in reverse. -/
theorem Numbered.onePerCycle {s : QueueSession} (numbered : s.Numbered) (inOrder : ∀ sortSlice, s.InOrder sortSlice) :
    s.OnePerCycle := by
  intro i member_i j member_j same
  obtain ⟨slots,arrival,_,peeked⟩ := inOrder (thenBy (fun i => s.count - s.arrived i))
  have occupied : ∀ k ∈ slots, s.iq.Occupied k := fun k member => occupied_of_unblocked (arrival.perm.mem_iff.mp member)
  have sorted_perm := (thenBy (fun i => s.count - s.arrived i)).perm s.iq.cycleAt s.iq.unblocked
  -- the references show that the slots are the sorted ones
  have same_slots : (thenBy (fun i => s.count - s.arrived i)).sort s.iq.cycleAt s.iq.unblocked = slots := by
    have peek := peeked 0 s.iq.capacity
    have short : ∀ {l : List Nat}, l.Perm s.iq.unblocked → (s.iq.refsAt 0 l).length ≤ s.iq.capacity := by
      intro l perm
      calc (s.iq.refsAt 0 l).length
        _ ≤ l.length := List.length_filterMap_le ..
        _ = s.iq.unblocked.length := perm.length_eq
        _ ≤ (List.range s.iq.capacity).length := List.length_filter_le ..
        _ = s.iq.capacity := List.length_range
    rw [peekPickTo_eq,List.take_of_length_le (short sorted_perm),List.take_of_length_le (short arrival.perm)] at peek
    calc (thenBy (fun i => s.count - s.arrived i)).sort s.iq.cycleAt s.iq.unblocked
      _ = (s.iq.refsAt 0 ((thenBy (fun i => s.count - s.arrived i)).sort s.iq.cycleAt s.iq.unblocked)).map
            PacketRef.slot :=
          (slots_of_refsAt 0 fun k member => occupied_of_unblocked (sorted_perm.mem_iff.mp member)).symm
      _ = slots := by rw [peek]; exact slots_of_refsAt 0 occupied
  have latest := thenBy_sorted (fun i => s.count - s.arrived i) s.iq.cycleAt s.iq.unblocked
  rw [same_slots] at latest
  have different : slots.Pairwise (fun k l => s.iq.cycleAt k ≠ s.iq.cycleAt l) := by
    refine (latest.and arrival.ordered).imp_of_mem ?_
    rintro k l inside_k inside_l ⟨late,before⟩ equal
    have below := numbered.below k (occupied k inside_k)
    have below := numbered.below l (occupied l inside_l)
    rcases before with early | ⟨_,early⟩
    · omega
    · omega
  by_contra other
  have symmetric : Std.Symm (fun k l => s.iq.cycleAt k ≠ s.iq.cycleAt l) := ⟨fun _ _ apart => apart.symm⟩
  exact different.forall (arrival.perm.mem_iff.mpr member_i) (arrival.perm.mem_iff.mpr member_j) other same

/-- After any ticks and calls there is one arrival order, and the queue hands out its packets
    in it, whatever its sort does with equal keys, exactly when no two unblocked packets
    arrived in one cycle. -/
theorem in_order_iff (capacity inBandwidth : Nat) (pos : 0 < capacity) (bandwidthPos : 0 < inBandwidth)
    (s : QueueSession) (reached : Reachable step (new capacity inBandwidth pos bandwidthPos) s) :
    (∃! slots, s.ArrivalOrder slots) ∧ ((∀ sortSlice, s.InOrder sortSlice) ↔ s.OnePerCycle) := by
  have numbered : s.Numbered := reached.invariant (numbered_new pos bandwidthPos) fun _ now _ stepped => now.step stepped
  refine ⟨numbered.arrivalOrder,numbered.onePerCycle,?_⟩
  intro one sortSlice
  refine ⟨_,one.arrivalOrder sortSlice,pick_packets sortSlice s.iq,?_⟩
  exact fun queue maxOut => peekPickTo_eq sortSlice s.iq queue maxOut

/-- Two packets of one cycle, and a sort that swaps them. -/
theorem swapped_packets : ∃ s, Reachable step (new 2 2 (by decide) (by decide)) s ∧ ∃ sortSlice, ¬ s.InOrder sortSlice := by
  let first : Packet := { sourceID := 0, targetID := 1, data := 1 }
  let second : Packet := { sourceID := 0, targetID := 1, data := 2 }
  refine ⟨(new 2 2 (by decide) (by decide)).tick 0 [first,second],
    Reaches.refl.step (.tick 0 [first,second]) trivial rfl,thenBy (fun i => 2 - i),?_⟩
  rintro ⟨slots,arrival,picked,_⟩
  have unique := ((numbered_new (show 0 < 2 by decide) (show 0 < 2 by decide)).tick 0 [first,second]).arrivalOrder
  have inTurn : ((new 2 2 (by decide) (by decide)).tick 0 [first,second]).ArrivalOrder [0,1] :=
    ⟨by decide,List.pairwise_pair.mpr (.inr ⟨by decide,by decide⟩)⟩
  obtain rfl := unique.unique arrival inTurn
  exact absurd picked (by decide)

/-- Two packets of different cycles. -/
theorem in_order_two_cycles : ∃ s, Reachable step (new 2 1 (by decide) (by decide)) s ∧ s.iq.length = 2 ∧
    ∀ sortSlice, s.InOrder sortSlice := by
  refine ⟨((new 2 1 (by decide) (by decide)).tick 0 [{ sourceID := 0, targetID := 1 }]).tick 1
      [{ sourceID := 0, targetID := 2 }],
    (Reaches.refl.step (.tick 0 [{ sourceID := 0, targetID := 1 }]) trivial rfl).step
      (.tick 1 [{ sourceID := 0, targetID := 2 }]) trivial rfl,rfl,?_⟩
  refine (in_order_iff 2 1 (by decide) (by decide) _ ?_).2.mpr (by unfold OnePerCycle; decide)
  exact (Reaches.refl.step (.tick 0 [{ sourceID := 0, targetID := 1 }]) trivial rfl).step
    (.tick 1 [{ sourceID := 0, targetID := 2 }]) trivial rfl

end QueueSession
end FlowSim.Queue
