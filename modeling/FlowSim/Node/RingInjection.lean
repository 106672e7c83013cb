import FlowSim.Node.RingRouter
import FlowSim.Lib.Events

/-!
The injection buffer of a ring router over whole runs. A run calls `process` on what the two
input queues hold, with any answers about the output queues. What was handed to the ring and
what is still buffered are, in order, the packets taken from the worker (`Ordered.step`), and
a packet is only written where none waits (`Spared`).
-/
namespace FlowSim.Node
open FlowSim.Lib FlowSim.Queue
set_option linter.unusedSimpArgs false

/-! ### What a handler did -/

/-- The slot of a reference is freed. -/
def freed (ref : PacketRef) : Event nodeInterface := ⟨.free ref.queue ref.slot,()⟩

/-- The packets of the references whose slots were freed, in the order in which they were. -/
def takenOf (refs : List PacketRef) (events : List (Event nodeInterface)) : List Packet :=
  events.filterMap fun event =>
    match event.op with
    | .free queue slot => (refs.find? fun ref => decide (ref.queue = queue ∧ ref.slot = slot)).map PacketRef.packet
    | _ => none

/-- The packets that were given to an output queue, in order. -/
def injectedInto (output : Nat) (events : List (Event nodeInterface)) : List Packet :=
  events.flatMap fun event =>
    match event.op with
    | .injectPackets other _ pkts => if other = output then pkts else []
    | _ => []

section
variable {before after : List (Event nodeInterface)}

theorem takenOf_append (refs : List PacketRef) : takenOf refs (before ++ after) = takenOf refs before ++ takenOf refs after :=
  List.filterMap_append

theorem injectedInto_append (output : Nat) :
    injectedInto output (before ++ after) = injectedInto output before ++ injectedInto output after := List.flatMap_append

@[simp] theorem injectedInto_freed (output : Nat) (refs : List PacketRef) : injectedInto output (refs.map freed) = [] := by
  unfold injectedInto
  rw [List.flatMap_map]
  exact List.flatMap_eq_nil_iff.mpr fun _ _ => rfl

/-- The references that were freed are found again by their slots. -/
theorem takenOf_freed : ∀ {accepted refs : List PacketRef},
    (∀ ref ∈ accepted, refs.find? (fun other => decide (other.queue = ref.queue ∧ other.slot = ref.slot)) = some ref) →
      takenOf refs (accepted.map freed) = accepted.map PacketRef.packet
  | [], _, _ => rfl
  | ref :: more, refs, found => by
    have others := @takenOf_freed more refs fun other member => found other (List.mem_cons_of_mem _ member)
    have here := found ref (List.mem_cons_self ..)
    unfold takenOf at others ⊢
    simp only [List.map_cons,List.filterMap_cons,freed,here,Option.map_some]
    exact congrArg _ others

theorem takenOf_freed_other {refs others : List PacketRef} (apart : ∀ ref ∈ others, ∀ other ∈ refs, other.queue ≠ ref.queue) :
    takenOf refs (others.map freed) = [] := by
  unfold takenOf
  rw [List.filterMap_map]
  refine List.filterMap_eq_nil_iff.mpr fun ref member => ?_
  have nothing : refs.find? (fun other => decide (other.queue = ref.queue ∧ other.slot = ref.slot)) = none := by
    refine List.find?_eq_none.mpr fun other inside => ?_
    simp [apart ref member other inside]
  show Option.map _ (refs.find? (fun other => decide (other.queue = ref.queue ∧ other.slot = ref.slot))) = none
  rw [nothing]
  rfl

/-- A reference is found by its slot when no other has that slot. -/
theorem find_slot {refs : List PacketRef} {queue : Nat} (distinct : refs.Pairwise (fun r s => r.slot ≠ s.slot))
    (same : ∀ ref ∈ refs, ref.queue = queue) : ∀ ref ∈ refs,
      refs.find? (fun other => decide (other.queue = ref.queue ∧ other.slot = ref.slot)) = some ref := by
  induction refs with
  | nil => exact fun ref member => absurd member List.not_mem_nil
  | cons first rest ih =>
    intro ref member
    rw [List.pairwise_cons] at distinct
    rcases List.mem_cons.mp member with rfl | later
    · rw [List.find?_cons_of_pos (by simp)]
    · have different := distinct.1 ref later
      rw [List.find?_cons_of_neg (by simp [different])]
      exact ih distinct.2 (fun other inside => same other (List.mem_cons_of_mem _ inside)) ref later

end

namespace BufferlessRingRouterNode

/-! ### Writes to the buffer -/

/-- From one state to another by taking packets out of the buffer and by writing packets
    into it, each at a position at which no packet waits. -/
inductive Spared : BufferlessRingRouterNode → BufferlessRingRouterNode → Prop where
  | refl (r : BufferlessRingRouterNode) : Spared r r
  | dequeue {r r' : BufferlessRingRouterNode} (before : Spared r r') (some_left : 0 < r'.count) :
      Spared r (r'.dequeue some_left)
  | enqueue {r r' : BufferlessRingRouterNode} (before : Spared r r') (pkt : Packet) (room : r'.count < r'.capacity)
      (spared : ∀ i < r'.count, (r'.head + i) &&& r'.bufferMask ≠ r'.tail) : Spared r (r'.enqueue pkt room)

section
variable {r r' r₁ r₂ : BufferlessRingRouterNode}

theorem Spared.trans (first : Spared r r₁) (second : Spared r₁ r₂) : Spared r r₂ := by
  induction second with
  | refl => exact first
  | dequeue _ some_left ih => exact ih.dequeue some_left
  | enqueue _ pkt room spared ih => exact ih.enqueue pkt room spared

/-- As long as there is room no packet waits at the tail. -/
theorem tail_free (r : BufferlessRingRouterNode) (room : r.count < r.capacity) {i : Nat} (waits : i < r.count) :
    (r.head + i) &&& r.bufferMask ≠ r.tail := by
  have pos : 0 < r.capacity := lt_of_le_of_lt (Nat.zero_le _) room
  have tail : r.tail = (r.head + r.count) % r.capacity := r.tail_eq
  rw [r.mask_eq_mod pos,tail]
  exact r.position_ne (lt_of_lt_of_le waits r.count_le) room (Nat.ne_of_lt waits)

theorem capacity_enqueue (pkt : Packet) (room : r.count < r.capacity) : (r.enqueue pkt room).capacity = r.capacity :=
  List.length_set

theorem Spared.capacity (spared : Spared r r') : r'.capacity = r.capacity := by
  induction spared with
  | refl => rfl
  | dequeue _ some_left ih => exact ih
  | enqueue _ pkt room _ ih => exact (capacity_enqueue pkt room).trans ih

theorem spared_takeBuffered : ∀ (left : Nat) (r : BufferlessRingRouterNode) (inject : List Packet),
    Spared r (takeBuffered left r inject).1
  | 0, r, _ => .refl r
  | left + 1, r, inject => by
    rw [takeBuffered]
    split
    · next some_left => exact ((Spared.refl r).dequeue some_left).trans (spared_takeBuffered left _ _)
    · exact .refl r

end

/-! ### The phases of a cycle, under any answers -/

/-- The ring packets that go on. -/
def passing (r : BufferlessRingRouterNode) (localOutFull : Bool) (refs : List PacketRef) : List Packet :=
  (refs.filter (fun ref => !r.ejects localOutFull ref)).map PacketRef.packet

/-- The ring packets for the worker. -/
def leaving (r : BufferlessRingRouterNode) (localOutFull : Bool) (refs : List PacketRef) : List Packet :=
  (refs.filter (r.ejects localOutFull)).map PacketRef.packet

theorem passing_leaving (r : BufferlessRingRouterNode) (localOutFull : Bool) (refs : List PacketRef) :
    (r.leaving localOutFull refs ++ r.passing localOutFull refs).Perm (refs.map PacketRef.packet) := by
  unfold leaving passing
  rw [← List.map_append]
  exact (List.filter_append_perm _ refs).map _

theorem does_free {ref : PacketRef} {events : List (Event nodeInterface)} {answer : Unit}
    (does : (free ref).Does events answer) : events = [freed ref] := by
  obtain ⟨⟨⟩,_,rfl,rfl,_⟩ := does
  rfl

theorem does_sortRing {r : BufferlessRingRouterNode} {localOutFull : Bool} : ∀ {refs : List PacketRef}
    {forward eject : List Packet} {events : List (Event nodeInterface)} {sorted : List Packet × List Packet},
    (r.sortRing localOutFull refs forward eject).Does events sorted →
      events = refs.map freed ∧ sorted = (forward ++ r.passing localOutFull refs,eject ++ r.leaving localOutFull refs)
  | [], forward, eject, events, sorted, does => by
    obtain ⟨rfl,rfl⟩ := does
    simp [passing,leaving]
  | ref :: rest, forward, eject, events, sorted, does => by
    unfold sortRing at does
    by_cases ejected : ref.packet.targetID = r.workerID ∧ localOutFull = false
    · have flag : r.ejects localOutFull ref = true := decide_eq_true ejected
      rw [if_pos ejected] at does
      obtain ⟨first,answer,second,rfl,frees,later⟩ := Prog.does_bind.mp does
      obtain ⟨rfl,rfl⟩ := does_sortRing later
      rw [does_free frees]
      simp [passing,leaving,flag]
    · have flag : r.ejects localOutFull ref = false := decide_eq_false ejected
      rw [if_neg ejected] at does
      obtain ⟨first,answer,second,rfl,frees,later⟩ := Prog.does_bind.mp does
      obtain ⟨rfl,rfl⟩ := does_sortRing later
      rw [does_free frees]
      simp [passing,leaving,flag]

/-- While the ring has room all local packets are injected. -/
theorem does_takeLocal_open : ∀ {refs : List PacketRef} {r : BufferlessRingRouterNode} {inject : List Packet}
    {events : List (Event nodeInterface)} {after : BufferlessRingRouterNode × List Packet},
    (takeLocal false refs r inject).Does events after →
      events = refs.map freed ∧ after = (r,inject ++ refs.map PacketRef.packet)
  | [], r, inject, events, after, does => by
    obtain ⟨rfl,rfl⟩ := does
    simp
  | ref :: rest, r, inject, events, after, does => by
    unfold takeLocal at does
    rw [if_pos rfl] at does
    obtain ⟨first,answer,second,rfl,frees,later⟩ := Prog.does_bind.mp does
    obtain ⟨rfl,rfl⟩ := does_takeLocal_open later
    rw [does_free frees]
    simp

/-- While the ring is full the first local packets are buffered, as many as there is room for. -/
theorem does_takeLocal_full : ∀ {refs : List PacketRef} {r : BufferlessRingRouterNode} {inject : List Packet}
    {events : List (Event nodeInterface)} {after : BufferlessRingRouterNode × List Packet},
    (takeLocal true refs r inject).Does events after → ∃ accepted, accepted <+: refs ∧ events = accepted.map freed ∧
      after.2 = inject ∧ after.1.toList = r.toList ++ accepted.map PacketRef.packet ∧ Spared r after.1 ∧
      (accepted ≠ refs → after.1.count = after.1.capacity)
  | [], r, inject, events, after, does => by
    obtain ⟨rfl,rfl⟩ := does
    exact ⟨[],List.prefix_refl _,rfl,rfl,by simp,.refl r,fun other => absurd rfl other⟩
  | ref :: rest, r, inject, events, after, does => by
    unfold takeLocal at does
    rw [if_neg (by simp)] at does
    by_cases room : r.count < r.capacity
    · rw [dif_pos room] at does
      obtain ⟨first,answer,second,rfl,frees,later⟩ := Prog.does_bind.mp does
      obtain ⟨accepted,part,rfl,same,buffered,spared,full⟩ := does_takeLocal_full later
      refine ⟨ref :: accepted,List.cons_prefix_cons.mpr ⟨rfl,part⟩,?_,same,?_,?_,fun other => full ?_⟩
      · rw [does_free frees]
        rfl
      · rw [buffered,r.enqueue_eq ref.packet room,r.toList_push,List.append_assoc]
        rfl
      · exact ((Spared.refl r).enqueue ref.packet room fun i waits => r.tail_free room waits).trans spared
      · rintro rfl
        exact other rfl
    · rw [dif_neg room] at does
      have count_le : r.count ≤ r.capacity := r.count_le
      -- a full buffer refuses the later packets as well
      have stays : ∀ {refs : List PacketRef} {events : List (Event nodeInterface)} {after : BufferlessRingRouterNode × List Packet},
          (takeLocal true refs r inject).Does events after → events = [] ∧ after = (r,inject) := by
        intro refs
        induction refs with
        | nil => exact fun does => does
        | cons other more ih =>
          intro events after does
          unfold takeLocal at does
          rw [if_neg (by simp),dif_neg room] at does
          exact ih does
      obtain ⟨rfl,rfl⟩ := stays does
      exact ⟨[],List.nil_prefix,rfl,rfl,by simp,.refl r,fun _ => show r.count = r.capacity by omega⟩

theorem does_injectPackets {output cycle : Nat} {pkts : List Packet} {events : List (Event nodeInterface)} {answer : Option String}
    (does : (injectPackets output cycle pkts).Does events answer) : events = [⟨.injectPackets output cycle pkts,answer⟩] := by
  obtain ⟨error,_,rfl,rfl,rfl⟩ := does
  rfl

/-- A batch that is given when it is not empty. -/
theorem does_batch {output cycle : Nat} {pkts : List Packet} {given : Prop} [Decidable given] {events : List (Event nodeInterface)}
    {answer : Unit} (nonempty : given ↔ pkts.length > 0)
    (does : (if given then (do let _ ← injectPackets output cycle pkts; pure ()) else pure () : Prog nodeInterface Unit).Does
      events answer) (refs : List PacketRef) :
    injectedInto output events = pkts ∧ (∀ other, output ≠ other → injectedInto other events = []) ∧ takenOf refs events = [] := by
  split at does
  · obtain ⟨first,error,second,rfl,injects,rfl,_⟩ := Prog.does_bind.mp does
    rw [does_injectPackets injects]
    exact ⟨by simp [injectedInto],fun other different => by simp [injectedInto,different],rfl⟩
  · next empty =>
    obtain ⟨rfl,_⟩ := does
    have nothing : pkts = [] := by
      rw [nonempty] at empty
      exact List.length_eq_zero_iff.mp (by omega)
    exact ⟨nothing.symm,fun _ _ => rfl,rfl⟩

theorem does_injectBatches {cycle : Nat} {eject forward inject : List Packet} {events : List (Event nodeInterface)} {answer : Unit}
    (does : (injectBatches cycle eject forward inject).Does events answer) (refs : List PacketRef) :
    injectedInto 0 events = forward ++ inject ∧ injectedInto 1 events = eject ∧ takenOf refs events = [] := by
  have split : (injectBatches cycle eject forward inject) =
      ((if eject.length > 0 then (do let _ ← injectPackets 1 cycle eject; pure ()) else pure ()) >>= fun _ =>
        if forward.length > 0 ∨ inject.length > 0 then (do let _ ← injectPackets 0 cycle (forward ++ inject); pure ()) else pure ()) := by
    unfold injectBatches
    dsimp only
    by_cases some_eject : eject.length > 0
    · rw [if_pos some_eject,if_pos some_eject]
      rfl
    · rw [if_neg some_eject,if_neg some_eject]
      rfl
  rw [split] at does
  obtain ⟨first,⟨⟩,second,rfl,ejects,injects⟩ := Prog.does_bind.mp does
  obtain ⟨toLocal,noRing,noneTaken⟩ := does_batch Iff.rfl ejects refs
  obtain ⟨toRing,noLocal,noneTaken'⟩ := does_batch (by rw [List.length_append]; omega) injects refs
  rw [injectedInto_append,injectedInto_append,takenOf_append,toLocal,toRing,noRing 0 (by decide),noLocal 1 (by decide),
    noneTaken,noneTaken']
  exact ⟨rfl,List.append_nil _,rfl⟩

/-! ### Sessions -/

/-- A call of `process`: what the input queues hold, and what the operations on the queues
    answer in it. -/
structure RouterCall where
  cycle : Nat
  ringIn : InputQueue
  localIn : InputQueue
  answers : Answers nodeInterface

namespace RouterCall

def ringRefs (sortSlice : SliceSort) (call : RouterCall) : List PacketRef :=
  call.ringIn.peekPickTo sortSlice 0 call.ringIn.capacity

def localRefs (sortSlice : SliceSort) (call : RouterCall) : List PacketRef :=
  call.localIn.peekPickTo sortSlice 1 call.localIn.capacity

end RouterCall

/-- The router, the packets that were taken from the worker so far, and the local packets
    that were handed to the ring. -/
structure RouterSession where
  router : BufferlessRingRouterNode
  taken : List Packet
  handed : List Packet

namespace RouterSession

def start (workerID bufferCapacity : Int) : RouterSession :=
  { router := newBufferlessRingRouter workerID bufferCapacity, taken := [], handed := [] }

/-- What the call does and leaves. -/
def called (sortSlice : SliceSort) (r : BufferlessRingRouterNode) (call : RouterCall) :
    (Option String × BufferlessRingRouterNode) × List (Event nodeInterface) :=
  (process call.cycle r [call.ringRefs sortSlice,call.localRefs sortSlice]).under call.answers

/-- The number of ring packets at the front of the batch for the ring: those that were not
    given to the worker. -/
def passed (sortSlice : SliceSort) (call : RouterCall) (events : List (Event nodeInterface)) : Nat :=
  (call.ringRefs sortSlice).length - (injectedInto 1 events).length

/-- A call; `none` when the router stops because it has too few output queues. -/
def step (sortSlice : SliceSort) (s : RouterSession) (call : RouterCall) : Option RouterSession :=
  match called sortSlice s.router call with
  | ((none,router),events) => some {
      router
      taken := s.taken ++ takenOf (call.localRefs sortSlice) events
      handed := s.handed ++ (injectedInto 0 events).drop (passed sortSlice call events) }
  | ((some _,_),_) => none

end RouterSession

/-- What a cycle takes, passes on and injects: the ring gets the ring packets that go on and
    behind them the injected ones, which with the buffer are what was there before and what
    was taken. The first local packets are taken, and all unless the buffer is full. -/
structure Cycled (r : BufferlessRingRouterNode) (ringRefs localRefs : List PacketRef) (events : List (Event nodeInterface))
    (r' : BufferlessRingRouterNode) : Prop where
  ring : ((injectedInto 0 events).take (ringRefs.length - (injectedInto 1 events).length) ++ injectedInto 1 events).Perm
    (ringRefs.map PacketRef.packet)
  order : (injectedInto 0 events).drop (ringRefs.length - (injectedInto 1 events).length) ++ r'.toList =
    r.toList ++ takenOf localRefs events
  first : takenOf localRefs events <+: localRefs.map PacketRef.packet
  full : takenOf localRefs events ≠ localRefs.map PacketRef.packet → r'.count = r'.capacity
  spared : Spared r r'

theorem cycled_of {r r' : BufferlessRingRouterNode} {ringRefs localRefs accepted : List PacketRef} {inject : List Packet}
    {localOutFull : Bool} {events : List (Event nodeInterface)}
    (toRing : injectedInto 0 events = r.passing localOutFull ringRefs ++ inject)
    (toLocal : injectedInto 1 events = r.leaving localOutFull ringRefs)
    (taken : takenOf localRefs events = accepted.map PacketRef.packet)
    (order : inject ++ r'.toList = r.toList ++ accepted.map PacketRef.packet) (part : accepted <+: localRefs)
    (full : accepted ≠ localRefs → r'.count = r'.capacity) (spared : Spared r r') : Cycled r ringRefs localRefs events r' := by
  have all := passing_leaving r localOutFull ringRefs
  have lengths := all.length_eq
  rw [List.length_append,List.length_map] at lengths
  have passed : ringRefs.length - (injectedInto 1 events).length = (r.passing localOutFull ringRefs).length := by
    rw [toLocal]
    omega
  refine ⟨?_,?_,?_,fun other => full ?_,spared⟩
  · rw [passed,toRing,List.take_left,toLocal]
    exact List.perm_append_comm.trans all
  · rw [passed,toRing,List.drop_left,taken]
    exact order
  · rw [taken]
    exact part.map _
  · rintro rfl
    exact other taken

/-- A cycle of the router under any answers. -/
theorem does_processRefs {cycle : Nat} {r r' : BufferlessRingRouterNode} {ringRefs localRefs : List PacketRef}
    {ringOutFull localOutFull : Bool} {error : Option String} {events : List (Event nodeInterface)}
    (distinct : localRefs.Pairwise (fun r s => r.slot ≠ s.slot))
    (onRing : ∀ ref ∈ ringRefs, ref.queue = 0) (isLocal : ∀ ref ∈ localRefs, ref.queue = 1)
    (does : (processRefs cycle r ringRefs localRefs ringOutFull localOutFull).Does events (error,r')) :
    Cycled r ringRefs localRefs events r' := by
  have noneRing : takenOf localRefs (ringRefs.map freed) = [] := by
    refine takenOf_freed_other fun ref member other inside => ?_
    rw [onRing ref member,isLocal other inside]
    decide
  have found := find_slot distinct isLocal
  unfold processRefs at does
  obtain ⟨sorts,⟨forward,eject⟩,second,rfl,sorted,later⟩ := Prog.does_bind.mp does
  obtain ⟨rfl,both⟩ := does_sortRing sorted
  cases both
  cases ringOutFull with
  | false =>
    obtain ⟨takes,⟨router,inject⟩,third,rfl,locals,last⟩ := Prog.does_bind.mp later
    obtain ⟨rfl,both⟩ := does_takeLocal_open locals
    obtain ⟨injects,⟨⟩,fourth,rfl,injected,rfl,same⟩ := Prog.does_bind.mp last
    obtain ⟨toRing,toLocal,noneTaken⟩ := does_injectBatches injected localRefs
    obtain ⟨taken,emptied,_⟩ := takeBuffered_spec r.count r [] rfl
    cases both
    cases same
    refine @cycled_of r _ ringRefs localRefs localRefs (r.toList ++ localRefs.map PacketRef.packet) localOutFull _ ?_ ?_ ?_ ?_ ?_ ?_ ?_
    · rw [injectedInto_append,injectedInto_freed,injectedInto_append,injectedInto_freed,List.append_nil,toRing,taken]
      rfl
    · rw [injectedInto_append,injectedInto_freed,injectedInto_append,injectedInto_freed,List.append_nil,toLocal]
      rfl
    · rw [takenOf_append,noneRing,takenOf_append,takenOf_freed found,List.append_nil,noneTaken,List.append_nil]
      rfl
    · rw [RingBuffer.toList_eq_nil emptied,List.append_nil]
    · exact List.prefix_refl _
    · exact fun other => absurd rfl other
    · exact spared_takeBuffered _ _ _
  | true =>
    obtain ⟨takes,⟨router,inject⟩,third,rfl,locals,last⟩ := Prog.does_bind.mp later
    obtain ⟨accepted,part,rfl,same',buffered,spared,full⟩ := does_takeLocal_full locals
    obtain ⟨injects,⟨⟩,fourth,rfl,injected,rfl,same⟩ := Prog.does_bind.mp last
    obtain ⟨toRing,toLocal,noneTaken⟩ := does_injectBatches injected localRefs
    dsimp only at same' buffered spared full
    cases same
    refine @cycled_of r _ ringRefs localRefs accepted [] localOutFull _ ?_ ?_ ?_ ?_ ?_ ?_ ?_
    · rw [injectedInto_append,injectedInto_freed,injectedInto_append,injectedInto_freed,List.append_nil,toRing,same']
      rfl
    · rw [injectedInto_append,injectedInto_freed,injectedInto_append,injectedInto_freed,List.append_nil,toLocal]
      rfl
    · rw [takenOf_append,noneRing,takenOf_append,takenOf_freed fun ref member => found ref (part.subset member),
        List.append_nil,noneTaken,List.append_nil]
      rfl
    · exact buffered
    · exact part
    · exact fun other => full other
    · exact spared

/-- A call that the router finishes is such a cycle. -/
theorem RouterSession.called_spec {sortSlice : SliceSort} {r r' : BufferlessRingRouterNode} {call : RouterCall}
    {events : List (Event nodeInterface)} (finished : RouterSession.called sortSlice r call = ((none,r'),events)) :
    Cycled r (call.ringRefs sortSlice) (call.localRefs sortSlice) events r' := by
  have does := Prog.does_under (process call.cycle r [call.ringRefs sortSlice,call.localRefs sortSlice]) call.answers
  change Prog.Does _ (RouterSession.called sortSlice r call).2 (RouterSession.called sortSlice r call).1 at does
  rw [finished] at does
  unfold process at does
  obtain ⟨first,qs,second,all,⟨answer,_,rfl,rfl,rfl⟩,later⟩ := Prog.does_bind.mp does
  have skipped : Cycled r (call.ringRefs sortSlice) (call.localRefs sortSlice) second r' →
      Cycled r (call.ringRefs sortSlice) (call.localRefs sortSlice) events r' := by
    intro cycled
    rw [show events = [⟨NodeOp.queues,qs⟩] ++ second from all]
    exact ⟨cycled.ring,cycled.order,cycled.first,cycled.full,cycled.spared⟩
  refine skipped ?_
  split at later
  · next ringInRefs localInRefs others ringOutQueue localOutQueue more given found =>
    simp only [List.cons.injEq] at given
    obtain ⟨rfl,rfl,_⟩ := given
    exact does_processRefs (refsTo_peekPickTo sortSlice call.localIn 1 _).distinct (fun _ => queue_peekPickTo)
      (fun _ => queue_peekPickTo) later
  · obtain ⟨_,same⟩ := later
    cases same

namespace RouterSession

/-- What was handed to the ring and what is buffered are, in order, what was taken. -/
structure Ordered (capacity : Nat) (s : RouterSession) : Prop where
  order : s.handed ++ s.router.toList = s.taken
  capacity : s.router.capacity = capacity

theorem Ordered.step {sortSlice : SliceSort} {capacity : Nat} {s s' : RouterSession} {call : RouterCall}
    (ordered : Ordered capacity s) (stepped : s.step sortSlice call = some s') : Ordered capacity s' := by
  unfold RouterSession.step at stepped
  split at stepped
  · next router events finished =>
    have cycled := called_spec finished
    rw [← Option.some.inj stepped]
    refine ⟨?_,cycled.spared.capacity.trans ordered.capacity⟩
    show s.handed ++ List.drop (passed sortSlice call events) (injectedInto 0 events) ++ router.toList = s.taken ++ _
    rw [List.append_assoc,← ordered.order,List.append_assoc]
    exact congrArg _ cycled.order
  · cases stepped

/-- For every requested capacity and all calls, with any answers about the output queues: the
    capacity is a power of two; the local packets handed to the ring, and behind them those
    in the buffer, are in order the packets that were taken; the buffer keeps within its
    capacity; and every call writes into the buffer only where no packet waits. -/
theorem injection_fifo (sortSlice : SliceSort) (workerID bufferCapacity : Int) (atLeast : 1 ≤ bufferCapacity) :
    (routerCapacity bufferCapacity).isPowerOfTwo ∧
    ∀ s, Reachable (RouterSession.step sortSlice) (start workerID bufferCapacity) s →
      s.handed ++ s.router.toList = s.taken ∧ s.router.toList.length ≤ s.router.capacity ∧
      s.router.capacity = routerCapacity bufferCapacity ∧
      ∀ call s', s.step sortSlice call = some s' →
        Cycled s.router (call.ringRefs sortSlice) (call.localRefs sortSlice) (called sortSlice s.router call).2 s'.router := by
  have positive : routerCapacity bufferCapacity ≠ 0 := by
    unfold routerCapacity
    rw [if_neg (by omega)]
    split
    · exact Nat.ne_of_gt (Nat.pos_of_isPowerOfTwo (Nat.isPowerOfTwo_nextPowerOfTwo _))
    · omega
  refine ⟨(routerCapacity_power bufferCapacity).resolve_left positive,fun s reached => ?_⟩
  have ordered : Ordered (routerCapacity bufferCapacity) s := by
    refine reached.invariant ⟨rfl,?_⟩ fun call ordered _ stepped => ordered.step stepped
    exact List.length_replicate
  refine ⟨ordered.order,?_,ordered.capacity,fun call s' stepped => ?_⟩
  · rw [RingBuffer.length_toList]
    exact s.router.count_le
  · unfold RouterSession.step at stepped
    split at stepped
    · next router events finished =>
      rw [← Option.some.inj stepped,finished]
      exact called_spec finished
    · cases stepped

/-- A call with packets from the worker alone, while the ring output is full or has room. -/
def workerCall (pkts : List Packet) (ringOutFull : Bool) : RouterCall where
  cycle := 0
  ringIn := .newInputQueue 4 4 (by decide) (by decide)
  localIn := (InputQueue.storeAll 0 pkts (.newInputQueue 4 4 (by decide) (by decide))).2
  answers := fun _ op =>
    match op with
    | .queues => ⟨[],[((OutputQueue.newOutputQueue 1 1 (by decide)).injectPackets 0 (if ringOutFull then [default] else [])).2,
        .newOutputQueue 1 1 (by decide)]⟩
    | .free _ _ | .block _ _ _ => ()
    | .injectPackets _ _ _ => none

/-- A buffer for two packets takes two of three while the ring is full; all three are handed
    on in order once it has room, and two more are buffered behind the end of the ring buffer. -/
theorem injection_fifo_wrapped : ∃ s, Reachable (RouterSession.step stableSort) (start 0 2) s ∧
    s.handed.map Packet.data = [1,2,3] ∧ s.router.toList.map Packet.data = [4,5] ∧
    s.handed ++ s.router.toList = s.taken := by
  let pkt (data : UInt64) : Packet := { sourceID := 0, targetID := 1, data }
  let calls := [workerCall [pkt 1] true,workerCall [pkt 2,pkt 3] true,workerCall [pkt 3] false,workerCall [pkt 4,pkt 5,pkt 6] true]
  have ends : (runActions (RouterSession.step stableSort) (fun _ _ => True) calls (start 0 2)).map
      (fun s => (s.handed.map Packet.data,s.router.toList.map Packet.data)) = some ([1,2,3],[4,5]) := by decide +kernel
  obtain ⟨s,ran,both⟩ := Option.map_eq_some_iff.mp ends
  obtain ⟨handed,buffered⟩ := Prod.mk.inj both
  have reached := reaches_runActions calls ran
  exact ⟨s,reached,handed,buffered,((injection_fifo stableSort 0 2 (by decide)).2 s reached).1⟩

end RouterSession
end BufferlessRingRouterNode
end FlowSim.Node
