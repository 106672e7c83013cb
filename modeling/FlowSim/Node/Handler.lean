import FlowSim.Queue.InputQueue
import FlowSim.Queue.OutputQueue

/-!
What a node's handler can do in a cycle: look at the node's queues, free and
block slots of the input queues, and inject packets into the output queues. A
handler is a program over these operations, and `runOn` runs it on the queues.
-/
namespace FlowSim.Node
open FlowSim.Lib FlowSim.Queue
set_option linter.unusedSimpArgs false

/-- The queues registered with a node. -/
structure Queues where
  inputs : List InputQueue
  outputs : List OutputQueue
deriving DecidableEq

/-- What a handler can do to the queues of its node. -/
inductive NodeOp where
  | queues
  | free (queue slot : Nat)
  | block (queue slot reason : Nat)
  | injectPackets (output cycle : Nat) (pkts : List Packet)
deriving DecidableEq

abbrev NodeOp.Resp : NodeOp → Type
  | .queues => Queues
  | .free _ _ => Unit
  | .block _ _ _ => Unit
  | .injectPackets _ _ _ => Option String

abbrev nodeInterface : Interface := ⟨NodeOp,NodeOp.Resp⟩

namespace Queues

def free (qs : Queues) (queue slot : Nat) : Queues :=
  { qs with inputs := qs.inputs.modify queue (fun iq => iq.free slot) }

def block (qs : Queues) (queue slot reason : Nat) : Queues :=
  { qs with inputs := qs.inputs.modify queue (fun iq => iq.block slot reason) }

/-- An injection into a queue the node does not have stops the code; a handler
    asks for the queue first. Here it changes nothing. -/
def injectPackets (qs : Queues) (output cycle : Nat) (pkts : List Packet) : Option String × Queues :=
  match qs.outputs[output]? with
  | none => (none,qs)
  | some oq =>
    let (error,oq) := oq.injectPackets cycle pkts
    (error,{ qs with outputs := qs.outputs.set output oq })

def exec (qs : Queues) : (op : NodeOp) → op.Resp × Queues
  | .queues => (qs,qs)
  | .free queue slot => ((),qs.free queue slot)
  | .block queue slot reason => ((),qs.block queue slot reason)
  | .injectPackets output cycle pkts => qs.injectPackets output cycle pkts

end Queues

/-- Runs a handler's program on the queues of its node. -/
def runOn {α : Type} : Prog nodeInterface α → Queues → α × Queues
  | .done value, qs => (value,qs)
  | .call op next, qs => runOn (next (qs.exec op).1) (qs.exec op).2

def atOnce (op : NodeOp) : Prog nodeInterface op.Resp := Prog.perform (I := nodeInterface) op

def queues : Prog nodeInterface Queues := atOnce .queues

def free (ref : PacketRef) : Prog nodeInterface Unit := atOnce (.free ref.queue ref.slot)

def injectPackets (output cycle : Nat) (pkts : List Packet) : Prog nodeInterface (Option String) :=
  atOnce (.injectPackets output cycle pkts)

/-- A node's handler: given the cycle, its own state and the packets waiting in
    each input queue, it works on the queues and ends in its next state, with an
    error if processing failed. -/
abbrev Handler (σ : Type) := Nat → σ → List (List PacketRef) → Prog nodeInterface (Option String × σ)

section
variable {α β : Type}

@[simp] theorem runOn_pure (value : α) (qs : Queues) : runOn (Prog.done value) qs = (value,qs) := rfl

@[simp] theorem runOn_call (op : NodeOp) (next : op.Resp → Prog nodeInterface α) (qs : Queues) :
    runOn (.call op next) qs = runOn (next (qs.exec op).1) (qs.exec op).2 := rfl

@[simp] theorem runOn_bind (p : Prog nodeInterface α) (f : α → Prog nodeInterface β) (qs : Queues) :
    runOn (p >>= f) qs = runOn (f (runOn p qs).1) (runOn p qs).2 := by
  induction p generalizing qs with
  | done value => rfl
  | call op next ih => exact ih _ _

@[simp] theorem runOn_queues (qs : Queues) : runOn queues qs = (qs,qs) := rfl

@[simp] theorem runOn_free (ref : PacketRef) (qs : Queues) :
    runOn (free ref) qs = ((),qs.free ref.queue ref.slot) := rfl

@[simp] theorem runOn_injectPackets (output cycle : Nat) (pkts : List Packet) (qs : Queues) :
    runOn (injectPackets output cycle pkts) qs = qs.injectPackets output cycle pkts := rfl

/-- What every operation on the queues preserves, a handler preserves. -/
theorem runOn_preserves {P : Queues → Prop} (step : ∀ qs op, P qs → P (qs.exec op).2) (p : Prog nodeInterface α) :
    ∀ {qs}, P qs → P (runOn p qs).2 := by
  induction p with
  | done value => exact fun {qs} holds => holds
  | call op next ih => exact fun {qs} holds => ih _ (step qs op holds)

end

/-! ### Freeing the slots of references -/

/-- Gives up the slots of the references in turn. -/
def freeAll (iq : InputQueue) (refs : List PacketRef) : InputQueue :=
  refs.foldl (fun iq ref => iq.free ref.slot) iq

@[simp] theorem freeAll_nil (iq : InputQueue) : freeAll iq [] = iq := rfl

@[simp] theorem freeAll_cons (iq : InputQueue) (ref : PacketRef) (rest : List PacketRef) :
    freeAll iq (ref :: rest) = freeAll (iq.free ref.slot) rest := rfl

/-- References to different occupied slots of a queue, with what is stored there. -/
structure RefsTo (iq : InputQueue) (refs : List PacketRef) : Prop where
  distinct : refs.Pairwise (fun r s => r.slot ≠ s.slot)
  occupied : ∀ ref ∈ refs, ∃ inside : ref.slot < iq.slots.length,
    iq.slots[ref.slot].free = false ∧ iq.slots[ref.slot].stored.packet = ref.packet

theorem RefsTo.tail {iq : InputQueue} {ref : PacketRef} {rest : List PacketRef} (refs : RefsTo iq (ref :: rest)) :
    RefsTo (iq.free ref.slot) rest where
  distinct := (List.pairwise_cons.mp refs.distinct).2
  occupied := by
    intro other member
    obtain ⟨inside,isUsed,stored⟩ := refs.occupied other (List.mem_cons_of_mem _ member)
    obtain ⟨inside',same⟩ := InputQueue.slots_free_ne iq ((List.pairwise_cons.mp refs.distinct).1 other member) inside
    exact ⟨inside',by rw [same]; exact isUsed,by rw [same]; exact stored⟩

/-- Freeing the referenced slots takes exactly the referenced packets out. -/
theorem packets_freeAll : ∀ {refs : List PacketRef} {iq : InputQueue}, RefsTo iq refs →
    (iq.packets : Multiset Packet) = (refs.map PacketRef.packet : List Packet) + ((freeAll iq refs).packets : Multiset Packet)
  | [], iq, _ => by simp
  | ref :: rest, iq, refs => by
    obtain ⟨inside,isUsed,stored⟩ := refs.occupied ref (List.mem_cons_self ..)
    have first : (iq.packets : Multiset Packet) = ref.packet ::ₘ ((iq.free ref.slot).packets : Multiset Packet) := by
      rw [← stored]
      exact Multiset.coe_eq_coe.mpr (iq.packets_free inside isUsed)
    rw [first,packets_freeAll refs.tail]
    simp

/-- The references that a queue hands out are to different occupied slots. -/
theorem refsTo_peekPickTo (sortSlice : SliceSort) (iq : InputQueue) (queue maxOut : Nat) :
    RefsTo iq (iq.peekPickTo sortSlice queue maxOut) := by
  unfold InputQueue.peekPickTo
  split
  · exact ⟨.nil,by simp⟩
  · let candidates := (List.range iq.capacity).filter (fun i =>
      iq.slots[i]?.any (fun slot => !slot.free && slot.blockReasons == 0))
    let cycleOf (i : Nat) : Nat := (iq.slots[i]?.map (fun slot => slot.stored.cycle)).getD 0
    let refOf (i : Nat) : Option PacketRef :=
      iq.slots[i]?.map (fun slot => { packet := slot.stored.packet, slot := i, queue })
    have slot_eq : ∀ {i ref}, refOf i = some ref → ref.slot = i := by
      intro i ref found
      obtain ⟨slot,_,rfl⟩ := Option.map_eq_some_iff.mp found
      rfl
    have nodup : (sortSlice.sort cycleOf candidates).Nodup :=
      (sortSlice.perm cycleOf candidates).nodup_iff.mpr (List.nodup_range.filter _)
    constructor
    · refine List.Pairwise.sublist (List.take_sublist _ _) ?_
      refine List.Pairwise.filterMap refOf ?_ nodup
      intro i j different r found s found'
      rw [slot_eq found,slot_eq found']
      exact different
    · intro ref member
      obtain ⟨i,candidate,found⟩ := List.mem_filterMap.mp (List.mem_of_mem_take member)
      have kept := List.mem_filter.mp ((sortSlice.perm cycleOf candidates).mem_iff.mp candidate)
      obtain ⟨slot,at_i,rfl⟩ := Option.map_eq_some_iff.mp found
      obtain ⟨inside,is_slot⟩ := List.getElem?_eq_some_iff.mp at_i
      have used := kept.2
      rw [at_i] at used
      simp only [Option.any_some,Bool.and_eq_true,Bool.not_eq_true'] at used
      exact ⟨inside,by rw [is_slot]; exact used.1,by rw [is_slot]⟩

theorem RefsTo.sublist {iq : InputQueue} {some_refs refs : List PacketRef} (part : some_refs.Sublist refs)
    (all : RefsTo iq refs) : RefsTo iq some_refs :=
  ⟨all.distinct.sublist part,fun ref member => all.occupied ref (part.subset member)⟩

end FlowSim.Node
