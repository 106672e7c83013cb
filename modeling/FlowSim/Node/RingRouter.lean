import FlowSim.Node.Handler

/-!
The router of a bufferless ring. It forwards ring traffic, ejects what is for
its worker, and injects the worker's packets, which wait in a buffer while the
ring is busy. `process` frees the input slots first and injects its batches
afterwards without looking at the result, so it conserves packets exactly when
both batches fit (`process_conserves_iff`).
-/
namespace FlowSim.Node
open FlowSim.Lib FlowSim.Queue
set_option linter.unusedSimpArgs false

/-- The router's own state: the worker it serves and the injection buffer, whose
    size is a power of two so that a mask wraps its indices. The slices that are
    reset in every cycle are local to `process`. -/
structure BufferlessRingRouterNode extends RingBuffer Packet where
  workerID : Int
  power_of_two : toRingBuffer.capacity = 0 ∨ toRingBuffer.capacity.isPowerOfTwo
deriving DecidableEq

/-- The buffer size for a requested capacity: the capacity if it is a power of
    two (or zero), else the next power of two. -/
def routerCapacity (bufferCapacity : Int) : Nat :=
  if bufferCapacity < 0 then 1
  else if bufferCapacity.toNat &&& (bufferCapacity.toNat - 1) ≠ 0 then bufferCapacity.toNat.nextPowerOfTwo
  else bufferCapacity.toNat

theorem routerCapacity_power (bufferCapacity : Int) :
    routerCapacity bufferCapacity = 0 ∨ (routerCapacity bufferCapacity).isPowerOfTwo := by
  unfold routerCapacity
  split_ifs with negative mixed
  · exact .inr Nat.isPowerOfTwo_one
  · exact .inr (Nat.isPowerOfTwo_nextPowerOfTwo _)
  · by_cases zero : bufferCapacity.toNat = 0
    · exact .inl zero
    · exact .inr ((Nat.and_sub_one_eq_zero_iff_isPowerOfTwo zero).mp (not_not.mp mixed))

namespace BufferlessRingRouterNode

def newBufferlessRingRouter (workerID bufferCapacity : Int) : BufferlessRingRouterNode where
  toRingBuffer := .empty (List.replicate (routerCapacity bufferCapacity) default)
  workerID := workerID
  power_of_two := by simpa [RingBuffer.capacity,RingBuffer.empty] using routerCapacity_power bufferCapacity

/-- The mask that wraps an index. -/
def bufferMask (r : BufferlessRingRouterNode) : Nat := r.capacity - 1

theorem mask_eq_mod (r : BufferlessRingRouterNode) (pos : 0 < r.capacity) (index : Nat) :
    index &&& r.bufferMask = index % r.capacity := by
  unfold bufferMask
  rcases r.power_of_two with zero | ⟨k,power⟩
  · omega
  · rw [power]
    exact Nat.and_two_pow_sub_one_eq_mod index k

/-- Takes the packet at the head of the injection buffer. -/
def dequeue (r : BufferlessRingRouterNode) (some_left : 0 < r.count) : BufferlessRingRouterNode :=
  { r with
    head := (r.head + 1) &&& r.bufferMask
    count := r.count - 1
    count_le := (r.pop some_left).count_le
    head_mod := by
      rw [r.mask_eq_mod (lt_of_lt_of_le some_left r.count_le)]
      exact (r.pop some_left).head_mod
    tail_eq := by
      rw [r.mask_eq_mod (lt_of_lt_of_le some_left r.count_le)]
      exact (r.pop some_left).tail_eq }

/-- Writes a packet at the tail of the injection buffer. -/
def enqueue (r : BufferlessRingRouterNode) (pkt : Packet) (room : r.count < r.capacity) : BufferlessRingRouterNode :=
  { r with
    buffer := r.buffer.set r.tail pkt
    tail := (r.tail + 1) &&& r.bufferMask
    count := r.count + 1
    count_le := (r.push pkt room).count_le
    head_mod := (r.push pkt room).head_mod
    tail_eq := by
      rw [r.mask_eq_mod (lt_of_le_of_lt (Nat.zero_le _) room)]
      exact (r.push pkt room).tail_eq
    power_of_two := by simpa [RingBuffer.capacity] using r.power_of_two }

theorem dequeue_eq (r : BufferlessRingRouterNode) (some_left : 0 < r.count) :
    (r.dequeue some_left).toRingBuffer = r.pop some_left := by
  simp only [dequeue,RingBuffer.pop,r.mask_eq_mod (lt_of_lt_of_le some_left r.count_le)]

theorem enqueue_eq (r : BufferlessRingRouterNode) (pkt : Packet) (room : r.count < r.capacity) :
    (r.enqueue pkt room).toRingBuffer = r.push pkt room := by
  simp only [enqueue,RingBuffer.push,r.mask_eq_mod (lt_of_le_of_lt (Nat.zero_le _) room)]

/-! ### The phases of a cycle -/

/-- Priority 1: ring packets are ejected or forwarded, and their slots freed.
    Returns the packets to forward and those to eject. -/
def sortRing (r : BufferlessRingRouterNode) (localOutFull : Bool) :
    List PacketRef → List Packet → List Packet → Prog nodeInterface (List Packet × List Packet)
  | [], forward, eject => return (forward,eject)
  | ref :: rest, forward, eject =>
    let pkt := ref.packet
    if pkt.targetID = r.workerID ∧ localOutFull = false then do
      free ref
      sortRing r localOutFull rest forward (eject ++ [pkt])
    else do
      free ref
      sortRing r localOutFull rest (forward ++ [pkt]) eject

/-- Priority 2: empties the injection buffer, `left` being what is left in it. -/
def takeBuffered : (left : Nat) → BufferlessRingRouterNode → List Packet → BufferlessRingRouterNode × List Packet
  | 0, r, inject => (r,inject)
  | left + 1, r, inject =>
    if some_left : 0 < r.count then takeBuffered left (r.dequeue some_left) (inject ++ [r.front some_left])
    else (r,inject)

/-- Priority 3: local packets are injected while the ring has room, else
    buffered; a packet that finds neither stays in its slot. -/
def takeLocal (ringOutFull : Bool) :
    List PacketRef → BufferlessRingRouterNode → List Packet → Prog nodeInterface (BufferlessRingRouterNode × List Packet)
  | [], r, inject => return (r,inject)
  | ref :: rest, r, inject =>
    let pkt := ref.packet
    if ringOutFull = false then do
      free ref
      takeLocal ringOutFull rest r (inject ++ [pkt])
    else if room : r.count < r.capacity then do
      free ref
      takeLocal ringOutFull rest (r.enqueue pkt room) inject
    else takeLocal ringOutFull rest r inject

/-- The batch injections at the end of a cycle; their errors are not looked at. -/
def injectBatches (cycle : Nat) (eject forward inject : List Packet) : Prog nodeInterface Unit := do
  if eject.length > 0 then
    let _ ← injectPackets 1 cycle eject
  if forward.length > 0 ∨ inject.length > 0 then
    let _ ← injectPackets 0 cycle (forward ++ inject)

/-- The cycle on what the two input queues hold, with the fullness of the output
    queues read once. -/
def processRefs (cycle : Nat) (r : BufferlessRingRouterNode) (ringInRefs localInRefs : List PacketRef)
    (ringOutFull localOutFull : Bool) : Prog nodeInterface (Option String × BufferlessRingRouterNode) := do
  let (forward,eject) ← r.sortRing localOutFull ringInRefs [] []
  let (r,inject) := if ringOutFull = false then takeBuffered r.count r [] else (r,[])
  let (r,inject) ← takeLocal ringOutFull localInRefs r inject
  injectBatches cycle eject forward inject
  return (none,r)

/-- One cycle of the router. The queues 0 and 1 are those of the ring and of the
    worker, on either side; a router without them stops at the index. -/
def process : Handler BufferlessRingRouterNode := fun cycle r inputs => do
  let qs ← queues
  match inputs, qs.outputs with
  | ringInRefs :: localInRefs :: _, ringOutQueue :: localOutQueue :: _ =>
    processRefs cycle r ringInRefs localInRefs ringOutQueue.isFull localOutQueue.isFull
  | _, _ => return (some "index out of range",r)

/-! ### What the phases do -/

/-- Whether a waiting ring packet is ejected. -/
def ejects (r : BufferlessRingRouterNode) (localOutFull : Bool) (ref : PacketRef) : Bool :=
  decide (ref.packet.targetID = r.workerID ∧ localOutFull = false)

theorem runOn_sortRing (r : BufferlessRingRouterNode) (localOutFull : Bool) (localIn : InputQueue)
    (outputs : List OutputQueue) : ∀ (refs : List PacketRef) (ringIn : InputQueue) (forward eject : List Packet),
    (∀ ref ∈ refs, ref.queue = 0) →
      runOn (r.sortRing localOutFull refs forward eject) ⟨[ringIn,localIn],outputs⟩ =
        ((forward ++ (refs.filter (fun ref => !r.ejects localOutFull ref)).map PacketRef.packet,
          eject ++ (refs.filter (r.ejects localOutFull)).map PacketRef.packet),
         ⟨[freeAll ringIn refs,localIn],outputs⟩)
  | [], ringIn, forward, eject, _ => by simp [sortRing]
  | ref :: rest, ringIn, forward, eject, onRing => by
    have here : ref.queue = 0 := onRing ref (List.mem_cons_self ..)
    have later : ∀ ref ∈ rest, ref.queue = 0 := fun ref member => onRing ref (List.mem_cons_of_mem _ member)
    by_cases ejected : ref.packet.targetID = r.workerID ∧ localOutFull = false
    · have flag : r.ejects localOutFull ref = true := decide_eq_true ejected
      simp only [sortRing,if_pos ejected,runOn_bind,runOn_free,here,Queues.free,List.modify_zero_cons]
      rw [runOn_sortRing r localOutFull localIn outputs rest _ _ _ later]
      simp [flag]
    · have flag : r.ejects localOutFull ref = false := decide_eq_false ejected
      simp only [sortRing,if_neg ejected,runOn_bind,runOn_free,here,Queues.free,List.modify_zero_cons]
      rw [runOn_sortRing r localOutFull localIn outputs rest _ _ _ later]
      simp [flag]

/-- Emptying the buffer moves its packets, oldest first, to those to inject. -/
theorem takeBuffered_spec : ∀ (left : Nat) (r : BufferlessRingRouterNode) (inject : List Packet), r.count = left →
    (takeBuffered left r inject).2 = inject ++ r.toList ∧ (takeBuffered left r inject).1.count = 0 ∧
      (takeBuffered left r inject).1.workerID = r.workerID
  | 0, r, inject, empty => by simp [takeBuffered,RingBuffer.toList_eq_nil empty,empty]
  | left + 1, r, inject, some_more => by
    have some_left : 0 < r.count := by omega
    obtain ⟨taken,emptied,same⟩ := takeBuffered_spec left (r.dequeue some_left) (inject ++ [r.front some_left])
      (by simp [dequeue,some_more])
    rw [takeBuffered,dif_pos some_left]
    refine ⟨?_,emptied,same⟩
    rw [taken,r.toList_pop some_left,r.dequeue_eq some_left]
    simp

theorem runOn_takeLocal_open (ringIn : InputQueue) (outputs : List OutputQueue) (r : BufferlessRingRouterNode) :
    ∀ (refs : List PacketRef) (localIn : InputQueue) (inject : List Packet), (∀ ref ∈ refs, ref.queue = 1) →
      runOn (takeLocal false refs r inject) ⟨[ringIn,localIn],outputs⟩ =
        ((r,inject ++ refs.map PacketRef.packet),⟨[ringIn,freeAll localIn refs],outputs⟩)
  | [], localIn, inject, _ => by simp [takeLocal]
  | ref :: rest, localIn, inject, local_ => by
    have here : ref.queue = 1 := local_ ref (List.mem_cons_self ..)
    simp only [takeLocal,↓reduceIte,runOn_bind,runOn_free,here,Queues.free,List.modify_succ_cons,
      List.modify_zero_cons]
    rw [runOn_takeLocal_open ringIn outputs r rest _ _ (fun ref member => local_ ref (List.mem_cons_of_mem _ member))]
    simp

/-- While the ring is full, local packets are buffered as far as the buffer has
    room, and the others stay. -/
theorem runOn_takeLocal_full (ringIn : InputQueue) (outputs : List OutputQueue) (inject : List Packet) :
    ∀ (refs : List PacketRef) (r : BufferlessRingRouterNode) (localIn : InputQueue), (∀ ref ∈ refs, ref.queue = 1) →
      ∃ r' accepted, accepted.Sublist refs ∧ r'.toList = r.toList ++ accepted.map PacketRef.packet ∧
        runOn (takeLocal true refs r inject) ⟨[ringIn,localIn],outputs⟩ =
          ((r',inject),⟨[ringIn,freeAll localIn accepted],outputs⟩)
  | [], r, localIn, _ => ⟨r,[],.slnil,by simp,by simp [takeLocal]⟩
  | ref :: rest, r, localIn, local_ => by
    have here : ref.queue = 1 := local_ ref (List.mem_cons_self ..)
    have later : ∀ ref ∈ rest, ref.queue = 1 := fun ref member => local_ ref (List.mem_cons_of_mem _ member)
    by_cases room : r.count < r.capacity
    · obtain ⟨r',accepted,part,buffered,ran⟩ :=
        runOn_takeLocal_full ringIn outputs inject rest (r.enqueue ref.packet room) (localIn.free ref.slot) later
      refine ⟨r',ref :: accepted,part.cons_cons ref,?_,?_⟩
      · rw [buffered,r.enqueue_eq ref.packet room,r.toList_push]
        simp
      · simp only [takeLocal,Bool.true_eq_false,↓reduceIte,dif_pos room,runOn_bind,runOn_free,here,Queues.free,
          List.modify_succ_cons,List.modify_zero_cons]
        exact ran
    · obtain ⟨r',accepted,part,buffered,ran⟩ := runOn_takeLocal_full ringIn outputs inject rest r localIn later
      refine ⟨r',accepted,part.cons ref,buffered,?_⟩
      simp only [takeLocal,Bool.true_eq_false,↓reduceIte,dif_neg room]
      exact ran

/-- An empty batch is not injected, which makes no difference. -/
theorem runOn_injectBatches (cycle : Nat) (eject forward inject : List Packet) (inputs : List InputQueue)
    (ringOut localOut : OutputQueue) :
    runOn (injectBatches cycle eject forward inject) ⟨inputs,[ringOut,localOut]⟩ =
      ((),⟨inputs,[(ringOut.injectPackets cycle (forward ++ inject)).2,(localOut.injectPackets cycle eject).2]⟩) := by
  have skip : ∀ (oq : OutputQueue) (pkts : List Packet), pkts.length = 0 → (oq.injectPackets cycle pkts).2 = oq := by
    intro oq pkts none_given
    rw [OutputQueue.injectPackets,if_pos none_given]
  by_cases some_eject : eject.length > 0 <;> by_cases some_forward : forward.length > 0 ∨ inject.length > 0
  · simp [injectBatches,some_eject,some_forward,Queues.injectPackets]
  · have none_forward : (forward ++ inject).length = 0 := by simp at some_forward ⊢; exact some_forward
    simp [injectBatches,some_eject,some_forward,Queues.injectPackets,skip ringOut _ none_forward]
  · simp [injectBatches,some_eject,some_forward,Queues.injectPackets,skip localOut eject (by omega)]
  · have none_forward : (forward ++ inject).length = 0 := by simp at some_forward ⊢; exact some_forward
    simp [injectBatches,some_eject,some_forward,skip ringOut _ none_forward,skip localOut eject (by omega)]

/-- The batches that a cycle injects, and what it leaves in the other queues. -/
theorem process_spec (cycle : Nat) (r : BufferlessRingRouterNode) (ringIn localIn : InputQueue)
    (ringOut localOut : OutputQueue) (ringRefs localRefs : List PacketRef)
    (onRing : ∀ ref ∈ ringRefs, ref.queue = 0) (isLocal : ∀ ref ∈ localRefs, ref.queue = 1) :
    let forward := (ringRefs.filter (fun ref => !r.ejects localOut.isFull ref)).map PacketRef.packet
    let eject := (ringRefs.filter (r.ejects localOut.isFull)).map PacketRef.packet
    ∃ r' inject accepted, accepted.Sublist localRefs ∧
      runOn (process cycle r [ringRefs,localRefs]) ⟨[ringIn,localIn],[ringOut,localOut]⟩ =
        ((none,r'),⟨[freeAll ringIn ringRefs,freeAll localIn accepted],
          [(ringOut.injectPackets cycle (forward ++ inject)).2,(localOut.injectPackets cycle eject).2]⟩) ∧
      (inject : Multiset Packet) + (r'.toList : Multiset Packet) =
        (r.toList : Multiset Packet) + (accepted.map PacketRef.packet : List Packet) ∧
      inject.length = if ringOut.isFull then 0 else r.count + localRefs.length := by
  intro forward eject
  have sorted := runOn_sortRing r localOut.isFull localIn [ringOut,localOut] ringRefs ringIn [] [] onRing
  simp only [List.nil_append] at sorted
  cases ringFull : ringOut.isFull with
  | false =>
    obtain ⟨taken,emptied,_⟩ := takeBuffered_spec r.count r [] rfl
    refine ⟨(takeBuffered r.count r []).1,r.toList ++ localRefs.map PacketRef.packet,localRefs,.refl _,?_,?_,?_⟩
    · simp only [process,processRefs,runOn_bind,runOn_queues,ringFull,sorted,↓reduceIte,
        runOn_takeLocal_open _ _ _ _ _ _ isLocal,runOn_injectBatches,taken,List.nil_append]
      rfl
    · rw [RingBuffer.toList_eq_nil emptied]
      simp
    · simp [RingBuffer.length_toList]
  | true =>
    obtain ⟨r',accepted,part,buffered,ran⟩ :=
      runOn_takeLocal_full (freeAll ringIn ringRefs) [ringOut,localOut] [] localRefs r localIn isLocal
    refine ⟨r',[],accepted,part,?_,?_,?_⟩
    · simp only [process,processRefs,runOn_bind,runOn_queues,ringFull,sorted,Bool.true_eq_false,↓reduceIte,ran,
        runOn_injectBatches]
      rfl
    · rw [buffered]
      simp
    · rfl

/-! ### Conservation -/

/-- The packets that wait in the input queues of a node. -/
def waiting (qs : Queues) : Multiset Packet := (qs.inputs.map (fun iq => (iq.packets : Multiset Packet))).sum

/-- The packets that a router holds in its output queues and its buffer. -/
def placed (r : BufferlessRingRouterNode) (qs : Queues) : Multiset Packet :=
  (qs.outputs.map (fun oq => (oq.packets : Multiset Packet))).sum + r.toList

/-- What waits in the node's input queues, as its handler is given it. -/
def peekAll (sortSlice : SliceSort) (qs : Queues) : List (List PacketRef) :=
  qs.inputs.mapIdx (fun i iq => iq.peekPickTo sortSlice i iq.capacity)

/-- A cycle conserves packets: those whose input slots it frees, and no others,
    join those that the output queues and the buffer hold, each once. -/
def Conserves (sortSlice : SliceSort) (cycle : Nat) (r : BufferlessRingRouterNode) (qs : Queues) : Prop :=
  let after := runOn (process cycle r (peekAll sortSlice qs)) qs
  waiting after.2 ≤ waiting qs ∧ placed after.1.2 after.2 = placed r qs + (waiting qs - waiting after.2)

/-- Both batches of the cycle fit: the worker's queue is full, and ejects
    nothing, or has room for all ring packets for the worker; and the ring's queue
    is full while no packet has to go on, or has room for the packets that go on,
    the buffer, and the local packets. -/
def BatchesFit (sortSlice : SliceSort) (r : BufferlessRingRouterNode) (ringIn localIn : InputQueue)
    (ringOut localOut : OutputQueue) : Prop :=
  let ring := ringIn.peekPickTo sortSlice 0 ringIn.capacity
  let ejected := ring.countP (r.ejects localOut.isFull)
  let forwarded := ring.length - ejected
  localOut.count + ejected ≤ localOut.capacity ∧
    if ringOut.isFull then forwarded = 0
    else ringOut.count + forwarded + r.count + (localIn.peekPickTo sortSlice 1 localIn.capacity).length ≤ ringOut.capacity

theorem queue_peekPickTo {sortSlice : SliceSort} {iq : InputQueue} {queue maxOut : Nat} {ref : PacketRef}
    (member : ref ∈ iq.peekPickTo sortSlice queue maxOut) : ref.queue = queue := by
  unfold InputQueue.peekPickTo at member
  split at member
  · exact absurd member (List.not_mem_nil)
  · obtain ⟨i,_,found⟩ := List.mem_filterMap.mp (List.mem_of_mem_take member)
    obtain ⟨slot,_,rfl⟩ := Option.map_eq_some_iff.mp found
    rfl

/-- An injection that does not fit loses its batch, and one that fits adds it. -/
theorem length_injectPackets (oq : OutputQueue) (cycle : Nat) (pkts : List Packet) :
    (oq.injectPackets cycle pkts).2.packets.length =
      oq.count + if oq.count + pkts.length ≤ oq.capacity then pkts.length else 0 := by
  split
  · next room => rw [OutputQueue.injectPackets_fits cycle room,List.length_append,oq.length_packets]
  · next full => rw [OutputQueue.injectPackets_full cycle full,oq.length_packets,Nat.add_zero]

/-- The packets that a cycle frees, and those it should place: the two batches,
    in terms of what its queues held. -/
theorem process_accounts (sortSlice : SliceSort) (cycle : Nat) (r : BufferlessRingRouterNode)
    (ringIn localIn : InputQueue) (ringOut localOut : OutputQueue) :
    let before : Queues := ⟨[ringIn,localIn],[ringOut,localOut]⟩
    let after := runOn (process cycle r (peekAll sortSlice before)) before
    ∃ toRing toLocal, waiting after.2 ≤ waiting before ∧
      after.2.outputs = [(ringOut.injectPackets cycle toRing).2,(localOut.injectPackets cycle toLocal).2] ∧
      (r.toList : Multiset Packet) + (waiting before - waiting after.2) =
        (after.1.2.toList : Multiset Packet) + (toRing : Multiset Packet) + toLocal ∧
      (BatchesFit sortSlice r ringIn localIn ringOut localOut ↔
        ringOut.count + toRing.length ≤ ringOut.capacity ∧ localOut.count + toLocal.length ≤ localOut.capacity) := by
  intro before after
  let ringRefs := ringIn.peekPickTo sortSlice 0 ringIn.capacity
  let localRefs := localIn.peekPickTo sortSlice 1 localIn.capacity
  obtain ⟨r',inject,accepted,part,ran,buffered,inject_length⟩ :=
    process_spec cycle r ringIn localIn ringOut localOut ringRefs localRefs
      (fun _ => queue_peekPickTo) (fun _ => queue_peekPickTo)
  have is_after : after = _ := ran
  set forward := (ringRefs.filter (fun ref => !r.ejects localOut.isFull ref)).map PacketRef.packet
  set eject := (ringRefs.filter (r.ejects localOut.isFull)).map PacketRef.packet
  have split_ring : (ringRefs.map PacketRef.packet : Multiset Packet) = (eject : Multiset Packet) + forward := by
    rw [Multiset.coe_add,Multiset.coe_eq_coe,← List.map_append]
    exact (List.filter_append_perm _ ringRefs).symm.map _
  have ring_freed := packets_freeAll (refsTo_peekPickTo sortSlice ringIn 0 ringIn.capacity)
  have local_freed := packets_freeAll ((refsTo_peekPickTo sortSlice localIn 1 localIn.capacity).sublist part)
  have freed : waiting before = (ringRefs.map PacketRef.packet : List Packet) +
      (accepted.map PacketRef.packet : List Packet) + waiting after.2 := by
    rw [is_after]
    simp only [waiting,before,List.map_cons,List.map_nil,List.sum_cons,List.sum_nil,ring_freed,local_freed]
    abel
  refine ⟨forward ++ inject,eject,?_,by rw [is_after],?_,?_⟩
  · rw [freed]
    exact Multiset.le_add_left _ _
  · rw [freed,Multiset.add_sub_cancel_right,split_ring,is_after,← Multiset.coe_add]
    calc (r.toList : Multiset Packet) + ((eject : Multiset Packet) + forward + (accepted.map PacketRef.packet : List Packet))
        = ((r.toList : Multiset Packet) + (accepted.map PacketRef.packet : List Packet)) + eject + forward := by abel
      _ = r'.toList + (forward + inject) + eject := by rw [← buffered]; abel
  · have counts : (ringRefs.countP (r.ejects localOut.isFull)) = eject.length := by
      simp [eject,List.countP_eq_length_filter]
    have forwards : forward.length = ringRefs.length - eject.length := by
      have total := congrArg Multiset.card split_ring
      simp only [Multiset.coe_card,Multiset.card_add,List.length_map] at total
      omega
    have batches : BatchesFit sortSlice r ringIn localIn ringOut localOut ↔
        localOut.count + eject.length ≤ localOut.capacity ∧
          if ringOut.isFull then ringRefs.length - eject.length = 0
          else ringOut.count + (ringRefs.length - eject.length) + r.count + localRefs.length ≤ ringOut.capacity := by
      rw [← counts]
      exact Iff.rfl
    rw [batches,List.length_append,inject_length,forwards]
    have count_le : ringOut.count ≤ ringOut.capacity := ringOut.count_le
    cases full : ringOut.isFull with
    | false => simp only [Bool.false_eq_true,↓reduceIte]; omega
    | true =>
      have at_capacity : ringOut.capacity ≤ ringOut.count := by simpa [OutputQueue.isFull] using full
      simp only [↓reduceIte]; omega

/-- For every state of a router and its queues: a cycle conserves packets if and
    only if its batches fit. -/
theorem process_conserves_iff (sortSlice : SliceSort) (cycle : Nat) (r : BufferlessRingRouterNode)
    (ringIn localIn : InputQueue) (ringOut localOut : OutputQueue) :
    Conserves sortSlice cycle r ⟨[ringIn,localIn],[ringOut,localOut]⟩ ↔
      BatchesFit sortSlice r ringIn localIn ringOut localOut := by
  obtain ⟨toRing,toLocal,smaller,outputs,accounts,fit⟩ := process_accounts sortSlice cycle r ringIn localIn ringOut localOut
  rw [fit]
  unfold Conserves
  simp only [smaller,true_and,placed,outputs,List.map_cons,List.map_nil,List.sum_cons,List.sum_nil,add_zero]
  rw [add_assoc _ (r.toList : Multiset Packet),accounts]
  constructor
  · intro conserved
    have total := congrArg Multiset.card conserved
    simp only [Multiset.card_add,Multiset.coe_card] at total
    rw [length_injectPackets,length_injectPackets,ringOut.length_packets,localOut.length_packets] at total
    have ring_le : ringOut.count ≤ ringOut.capacity := ringOut.count_le
    have local_le : localOut.count ≤ localOut.capacity := localOut.count_le
    split_ifs at total <;> omega
  · rintro ⟨ring_fits,local_fits⟩
    rw [OutputQueue.injectPackets_fits cycle ring_fits,OutputQueue.injectPackets_fits cycle local_fits,
      ← Multiset.coe_add,← Multiset.coe_add]
    abel

instance (sortSlice : SliceSort) (cycle : Nat) (r : BufferlessRingRouterNode) (qs : Queues) :
    Decidable (Conserves sortSlice cycle r qs) := by
  unfold Conserves
  infer_instance

/-- Two ring packets arrive in one cycle at a new router whose ring output queue
    holds one packet: both slots are freed and neither packet is kept. -/
theorem process_drops_batch :
    let pkt (data : UInt64) : Packet := { sourceID := 1, targetID := 2, data }
    let r := newBufferlessRingRouter 0 8
    let ringIn := (InputQueue.storeAll 0 [pkt 1,pkt 2] (.newInputQueue 4 2 (by decide) (by decide))).2
    let localIn := InputQueue.newInputQueue 4 2 (by decide) (by decide)
    let ringOut := OutputQueue.newOutputQueue 1 1 (by decide)
    let localOut := OutputQueue.newOutputQueue 4 1 (by decide)
    let after := runOn (process 0 r (peekAll stableSort ⟨[ringIn,localIn],[ringOut,localOut]⟩))
      ⟨[ringIn,localIn],[ringOut,localOut]⟩
    ringIn.packets = [pkt 1,pkt 2] ∧ waiting after.2 = 0 ∧ placed after.1.2 after.2 = 0 ∧
      ¬ Conserves stableSort 0 r ⟨[ringIn,localIn],[ringOut,localOut]⟩ := by
  decide +kernel

end BufferlessRingRouterNode
end FlowSim.Node
