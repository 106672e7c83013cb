import FlowSim.AheadPort.Exchange
import FlowSim.AheadPort.Delivery

/-!
What the two ends of a port may do and what they can rely on. The record of an
end is what its own log shows; `Linked` relates the two records to the meaning
of the port. A sender may stamp a packet with a cycle it has still to mark done,
or with one that the receiver refused and has long read; a receiver reads and
decides the cycles in order, and after a refusal it reads that cycle before it
decides a later one. A sender that keeps to a limit sends at most that many
packets for a cycle, and only for cycles the receiver decided ready.
-/
namespace FlowSim.AheadPort
open FlowSim.Lib
set_option linter.unusedSimpArgs false

/-- What the log of one end of a port shows. A sender marks cycles done, has
    packets accepted for a cycle it has still to mark (`accepted`) or for an
    earlier one (`late`), and asks for readiness: up to which cycle, and which
    cycle was last granted and last refused. A receiver waits for cycles, reads
    them and decides their readiness, one after the other. -/
structure EndRecord where
  marked : Int
  accepted : List PacketWithCycle
  late : List PacketWithCycle
  asked : Int
  granted : Int
  refused : Int
  waited : Int
  returned : List (List Packet)
  decisions : List Bool

namespace EndRecord

/-- The record of an end that has done nothing. -/
def initial : EndRecord where
  marked := -1
  accepted := []
  late := []
  asked := -1
  granted := -1
  refused := -1
  waited := -1
  returned := []
  decisions := []

def grow (r : EndRecord) : (op : PortOp) → op.Resp → EndRecord
  | .send pwc, _ =>
    if r.marked < pwc.cycle then { r with accepted := r.accepted ++ [pwc] } else { r with late := r.late ++ [pwc] }
  | .markDone cycle, _ => { r with marked := cycle }
  | .isReady cycle, ready =>
    if ready then { r with asked := max r.asked cycle, granted := cycle }
    else { r with asked := max r.asked cycle, refused := cycle }
  | .waitDone cycle, _ => { r with waited := cycle }
  | .retrieve _, pkts => { r with returned := r.returned ++ [pkts] }
  | .updateReady cycle ready, _ =>
    if cycle = r.decisions.length then { r with decisions := r.decisions ++ [ready] } else r
  | .drainChannel, _ => r

/-- What was accepted for a cycle. -/
def acceptedFor (r : EndRecord) (cycle : Nat) : List Packet := stamped cycle r.accepted

/-- The receiver decided the cycle ready. -/
def Promised (r : EndRecord) (cycle : Nat) : Prop := r.decisions[cycle]? = some true

/-- Every refused cycle is one the receiver has read. -/
def Settled (r : EndRecord) : Prop := ∀ cycle : Nat, r.decisions[cycle]? = some false → cycle < r.returned.length

end EndRecord

/-- A sender's next operation, given its record. -/
def SenderMay (s : EndRecord) : PortOp → Prop
  | .isReady _ => True
  | .send pwc => s.marked < pwc.cycle ∨ ((pwc.cycle : Int) ≤ s.refused ∧ s.refused < s.granted)
  | .markDone cycle => s.marked < cycle
  | _ => False

/-- A receiver's next operation, given its record. -/
def ReceiverMay (r : EndRecord) : PortOp → Prop
  | .drainChannel => True
  | .waitDone cycle => cycle = r.returned.length
  | .retrieve cycle => cycle = r.returned.length ∧ (cycle : Int) ≤ r.waited
  | .updateReady cycle _ => (cycle = r.decisions.length ∧ r.Settled) ∨ r.Promised cycle
  | _ => False

/-- A packet within the limit: for a cycle that is promised and has room left. -/
def WithinLimit (limit : Option Nat) (s r : EndRecord) : PortOp → Prop
  | .send pwc => ∀ n ∈ limit, s.marked < pwc.cycle ∧ (s.acceptedFor pwc.cycle).length < n ∧ r.Promised pwc.cycle
  | _ => True

/-- What an answer tells the receiver: a promise is not taken back, and a cycle
    holds no more than the limit, and nothing unless it was promised. -/
def ReceiverLearns (limit : Option Nat) (r : EndRecord) : (op : PortOp) → op.Resp → Prop
  | .updateReady cycle ready, _ => r.Promised cycle → ready = true
  | .retrieve cycle, pkts => ∀ n ∈ limit, pkts.length ≤ n ∧ (pkts ≠ [] → r.Promised cycle)
  | _, _ => True

/-- The meaning of the port is what the two records say of it. -/
structure Linked (limit : Option Nat) (e : Exchange) (s r : EndRecord) : Prop where
  done : e.done = s.marked
  waited : r.waited ≤ s.marked
  decision : ∀ cycle : Nat, e.decision cycle = if (cycle : Int) ≤ s.asked then some true else r.decisions[cycle]?
  asked : s.asked < r.decisions.length
  granted : s.granted ≤ s.asked
  refused : ∀ cycle : Nat, (cycle : Int) = s.refused → r.decisions[cycle]? = some false
  settled : ∀ cycle, cycle + 1 < r.decisions.length → r.decisions[cycle]? = some false → cycle < r.returned.length
  inFlight : ∀ cycle, r.returned.length ≤ cycle → e.inFlight cycle = s.acceptedFor cycle
  returned : ∀ cycle, (inside : cycle < r.returned.length) → r.returned[cycle] = s.acceptedFor cycle
  ahead : (r.returned.length : Int) ≤ s.marked + 1
  obeyed : ∀ n ∈ limit, ∀ cycle, (s.acceptedFor cycle).length ≤ n ∧ (s.acceptedFor cycle ≠ [] → r.Promised cycle)

/-- A new port, whose two ends have done nothing. -/
theorem linked_new (limit : Option Nat) : Linked limit Port.newPort.exchange .initial .initial where
  done := rfl
  waited := le_refl _
  decision := by
    intro cycle
    rw [if_neg (by simp only [EndRecord.initial]; omega)]
    exact ComponentSync.answer_new cycle
  asked := by simp [EndRecord.initial]
  granted := le_refl _
  refused := by simp only [EndRecord.initial]; omega
  settled := by simp [EndRecord.initial]
  inFlight := fun _ _ => rfl
  returned := by simp [EndRecord.initial]
  ahead := by simp [EndRecord.initial]
  obeyed := fun _ _ _ => ⟨Nat.zero_le _,fun some_ => absurd rfl some_⟩

variable {limit : Option Nat} {e : Exchange} {s r : EndRecord}

/-! ### What the sender does -/

theorem acceptedFor_send (s : EndRecord) (pwc : PacketWithCycle) (cycle : Nat) :
    (s.grow (.send pwc) ()).acceptedFor cycle =
      if s.marked < pwc.cycle ∧ pwc.cycle = cycle then s.acceptedFor cycle ++ [pwc.packet] else s.acceptedFor cycle := by
  simp only [EndRecord.grow]
  by_cases fresh : s.marked < pwc.cycle
  · by_cases here : pwc.cycle = cycle
    · rw [if_pos fresh,if_pos ⟨fresh,here⟩]
      simp [EndRecord.acceptedFor,here]
    · rw [if_pos fresh,if_neg (fun both => here both.2)]
      simp [EndRecord.acceptedFor,here]
  · rw [if_neg fresh,if_neg (fun both => fresh both.1)]
    rfl

theorem marked_send (s : EndRecord) (pwc : PacketWithCycle) : (s.grow (.send pwc) ()).marked = s.marked := by
  simp only [EndRecord.grow]
  split <;> rfl

/-- A packet that is sent late is for a cycle the receiver has read: the refusal
    came before the decision that was granted since. -/
theorem Linked.late_read (linked : Linked limit e s r) {cycle : Nat} (upTo : (cycle : Int) ≤ s.refused)
    (since : s.refused < s.granted) : cycle < r.returned.length := by
  obtain ⟨f,isRefused⟩ : ∃ f : Nat, (f : Int) = s.refused := ⟨s.refused.toNat,Int.toNat_of_nonneg (by omega)⟩
  have asked := linked.asked
  have granted := linked.granted
  have read := linked.settled f (by omega) (linked.refused f isRefused)
  omega

theorem Linked.send {pwc : PacketWithCycle} (linked : Linked limit e s r) (may : SenderMay s (.send pwc))
    (within : WithinLimit limit s r (.send pwc)) :
    Linked limit { e with inFlight := Function.update e.inFlight pwc.cycle (e.inFlight pwc.cycle ++ [pwc.packet]) }
      (s.grow (.send pwc) ()) r := by
  have read : ∀ cycle, s.marked < pwc.cycle → cycle < r.returned.length → pwc.cycle ≠ cycle := by
    intro cycle fresh inside
    have ahead := linked.ahead
    omega
  have parts : (s.grow (.send pwc) ()).asked = s.asked ∧ (s.grow (.send pwc) ()).granted = s.granted ∧
      (s.grow (.send pwc) ()).refused = s.refused := by
    simp only [EndRecord.grow]
    split <;> exact ⟨rfl,rfl,rfl⟩
  constructor
  case done => rw [marked_send]; exact linked.done
  case waited => rw [marked_send]; exact linked.waited
  case decision => rw [parts.1]; exact linked.decision
  case asked => rw [parts.1]; exact linked.asked
  case granted => rw [parts.1,parts.2.1]; exact linked.granted
  case refused => rw [parts.2.2]; exact linked.refused
  case settled => exact linked.settled
  case ahead => rw [marked_send]; exact linked.ahead
  case inFlight =>
    intro cycle late
    have before := linked.inFlight cycle late
    rw [acceptedFor_send]
    by_cases here : pwc.cycle = cycle
    · subst here
      rcases may with fresh | ⟨upTo,since⟩
      · rw [if_pos ⟨fresh,rfl⟩,← before]
        exact Function.update_self ..
      · exact absurd (linked.late_read upTo since) (Nat.not_lt.mpr late)
    · rw [if_neg (fun both => here both.2),← before]
      exact Function.update_of_ne (Ne.symm here) ..
  case returned =>
    intro cycle inside
    rw [acceptedFor_send,linked.returned cycle inside]
    exact (if_neg (fun both => read cycle both.1 inside both.2)).symm
  case obeyed =>
    intro n limited cycle
    rw [acceptedFor_send]
    split
    · next here =>
      obtain ⟨_,rfl⟩ := here
      obtain ⟨_,room,promised⟩ := within n limited
      exact ⟨by simpa using room,fun _ => promised⟩
    · exact linked.obeyed n limited cycle

theorem Linked.markDone {cycle : Nat} (linked : Linked limit e s r) (later : s.marked < cycle) :
    Linked limit { e with done := cycle } (s.grow (.markDone cycle) ()) r where
  done := rfl
  waited := le_trans linked.waited (le_of_lt later)
  decision := linked.decision
  asked := linked.asked
  granted := linked.granted
  refused := linked.refused
  settled := linked.settled
  inFlight := linked.inFlight
  returned := linked.returned
  ahead := by
    have ahead := linked.ahead
    simp only [EndRecord.grow]
    omega
  obeyed := linked.obeyed

/-- A decision that is read for the first time is the receiver's. -/
theorem Linked.answered (linked : Linked limit e s r) {cycle : Nat} {ready : Bool} (read : e.decision cycle = some ready) :
    (cycle : Int) < r.decisions.length ∧ (s.asked < cycle → r.decisions[cycle]? = some ready) ∧
      (ready = false → s.asked < cycle) := by
  rw [linked.decision cycle] at read
  have asked := linked.asked
  by_cases old : (cycle : Int) ≤ s.asked
  · rw [if_pos old] at read
    refine ⟨by omega,fun new => absurd old (by omega),fun refused => ?_⟩
    rw [refused] at read
    cases read
  · rw [if_neg old] at read
    have inside := (List.getElem?_eq_some_iff.mp read).1
    exact ⟨by exact_mod_cast inside,fun _ => read,fun _ => Int.not_le.mp old⟩

theorem Linked.isReady {cycle : Nat} {ready : Bool} (linked : Linked limit e s r) (read : e.decision cycle = some ready) :
    Linked limit { e with decision := fun c => if c ≤ cycle then some true else e.decision c }
      (s.grow (.isReady cycle) ready) r := by
  obtain ⟨inside,first,refusal⟩ := linked.answered read
  have parts : (s.grow (.isReady cycle) ready).marked = s.marked ∧
      (s.grow (.isReady cycle) ready).asked = max s.asked cycle ∧
      (s.grow (.isReady cycle) ready).accepted = s.accepted := by
    simp only [EndRecord.grow]
    cases ready <;> exact ⟨rfl,rfl,rfl⟩
  constructor
  case done => rw [parts.1]; exact linked.done
  case waited => rw [parts.1]; exact linked.waited
  case ahead => rw [parts.1]; exact linked.ahead
  case settled => exact linked.settled
  case asked =>
    have asked := linked.asked
    rw [parts.2.1]
    omega
  case decision =>
    intro c
    rw [parts.2.1]
    show (if c ≤ cycle then some true else e.decision c) = _
    rw [linked.decision c]
    by_cases upTo : c ≤ cycle
    · rw [if_pos upTo,if_pos (by omega)]
    · rw [if_neg upTo]
      by_cases old : (c : Int) ≤ s.asked
      · rw [if_pos old,if_pos (by omega)]
      · rw [if_neg old,if_neg (by omega)]
  case granted =>
    have granted := linked.granted
    cases ready <;> simp only [EndRecord.grow] <;> simp only [↓reduceIte,Bool.false_eq_true] <;> omega
  case refused =>
    intro c isRefused
    cases ready with
    | true => exact linked.refused c (by simpa [EndRecord.grow] using isRefused)
    | false =>
      have here : c = cycle := by simpa [EndRecord.grow] using isRefused
      exact here ▸ first (refusal rfl)
  case inFlight =>
    intro c late
    simpa only [EndRecord.acceptedFor,parts.2.2] using linked.inFlight c late
  case returned =>
    intro c inside
    simpa only [EndRecord.acceptedFor,parts.2.2] using linked.returned c inside
  case obeyed =>
    intro n limited c
    simpa only [EndRecord.acceptedFor,parts.2.2] using linked.obeyed n limited c

/-! ### What the receiver does -/

theorem Linked.waitDone {cycle : Nat} (linked : Linked limit e s r) (done : (cycle : Int) ≤ e.done) :
    Linked limit e s (r.grow (.waitDone cycle) ()) where
  done := linked.done
  waited := linked.done ▸ done
  decision := linked.decision
  asked := linked.asked
  granted := linked.granted
  refused := linked.refused
  settled := linked.settled
  inFlight := linked.inFlight
  returned := linked.returned
  ahead := linked.ahead
  obeyed := linked.obeyed

/-- Reading the next cycle returns all that was accepted for it. -/
theorem Linked.retrieve {cycle : Nat} (linked : Linked limit e s r) (may : ReceiverMay r (.retrieve cycle)) :
    Linked limit { e with inFlight := Function.update e.inFlight cycle [] } s (r.grow (.retrieve cycle) (e.inFlight cycle)) := by
  obtain ⟨rfl,waited⟩ := may
  constructor
  case done => exact linked.done
  case waited => exact linked.waited
  case decision => exact linked.decision
  case asked => exact linked.asked
  case granted => exact linked.granted
  case refused => exact linked.refused
  case obeyed => exact linked.obeyed
  case ahead =>
    have done := linked.waited
    simp only [EndRecord.grow,List.length_append,List.length_singleton]
    omega
  case settled =>
    intro c inside refused
    have read := linked.settled c inside refused
    simp only [EndRecord.grow,List.length_append,List.length_singleton]
    omega
  case inFlight =>
    intro c late
    simp only [EndRecord.grow,List.length_append,List.length_singleton] at late
    exact (Function.update_of_ne (by omega) ..).trans (linked.inFlight c (by omega))
  case returned =>
    intro c inside
    simp only [EndRecord.grow] at inside ⊢
    rcases Nat.lt_or_ge c r.returned.length with old | new
    · rw [List.getElem_append_left old]
      exact linked.returned c old
    · have here : c = r.returned.length := by simp at inside; omega
      subst here
      simpa using linked.inFlight r.returned.length (le_refl _)

/-- A cycle that can be decided is the next one, or one decided so before. -/
theorem Linked.updateReady_new (linked : Linked limit e s r) (settled : r.Settled) (ready : Bool) :
    e.decision r.decisions.length = none ∧
      Linked limit { e with decision := Function.update e.decision r.decisions.length (some ready) } s
        (r.grow (.updateReady r.decisions.length ready) ()) := by
  have asked := linked.asked
  have undecided : e.decision r.decisions.length = none := by
    rw [linked.decision,if_neg (by omega)]
    exact List.getElem?_eq_none (le_refl _)
  have kept : ∀ {c : Nat} {b}, r.decisions[c]? = some b → (r.decisions ++ [ready])[c]? = some b := by
    intro c b decided
    rw [List.getElem?_append_left (List.getElem?_eq_some_iff.mp decided).1]
    exact decided
  refine ⟨undecided,?_⟩
  simp only [EndRecord.grow,↓reduceIte]
  constructor
  case done => exact linked.done
  case waited => exact linked.waited
  case granted => exact linked.granted
  case inFlight => exact linked.inFlight
  case returned => exact linked.returned
  case ahead => exact linked.ahead
  case asked => simp only [List.length_append,List.length_singleton]; omega
  case decision =>
    intro c
    simp only [Function.update_apply]
    by_cases here : c = r.decisions.length
    · subst here
      rw [if_pos rfl,if_neg (by omega)]
      simp
    · rw [if_neg here,linked.decision c]
      split
      · rfl
      · rcases Nat.lt_or_ge c r.decisions.length with inside | outside
        · rw [List.getElem?_append_left inside]
        · rw [List.getElem?_eq_none outside,List.getElem?_eq_none (by simp; omega)]
  case refused => exact fun c isRefused => kept (linked.refused c isRefused)
  case settled =>
    intro c inside refused
    simp only [List.length_append,List.length_singleton] at inside
    rw [List.getElem?_append_left (by omega)] at refused
    exact settled c refused
  case obeyed =>
    intro n limited c
    obtain ⟨few,promised⟩ := linked.obeyed n limited c
    exact ⟨few,fun some_ => kept (promised some_)⟩

theorem Linked.promised (linked : Linked limit e s r) {cycle : Nat} (promised : r.Promised cycle) :
    e.decision cycle = some true := by
  rw [linked.decision]
  split
  · rfl
  · exact promised

/-! ### One step of either end -/

/-- A step of the sender keeps the two records linked. -/
theorem Linked.sender {op : PortOp} {answer : op.Resp} {e' : Exchange} (linked : Linked limit e s r)
    (may : SenderMay s op) (within : WithinLimit limit s r op) (outcome : e.exec op = .done answer e') :
    Linked limit e' (s.grow op answer) r := by
  cases op with
  | isReady cycle =>
    rcases read : e.decision cycle with _ | ready <;> simp only [Exchange.exec,read] at outcome
    · cases outcome
    · cases outcome
      exact linked.isReady read
  | send pwc =>
    cases outcome
    exact linked.send may within
  | markDone cycle =>
    cases outcome
    exact linked.markDone may
  | _ => exact absurd may id

/-- A step of the receiver keeps the two records linked, and its answer is what
    the receiver may learn. -/
theorem Linked.receiver {op : PortOp} {answer : op.Resp} {e' : Exchange} (linked : Linked limit e s r)
    (may : ReceiverMay r op) (outcome : e.exec op = .done answer e') :
    ReceiverLearns limit r op answer ∧ Linked limit e' s (r.grow op answer) := by
  cases op with
  | drainChannel =>
    cases outcome
    exact ⟨trivial,linked⟩
  | waitDone cycle =>
    simp only [Exchange.exec] at outcome
    split at outcome
    · next done =>
      cases outcome
      exact ⟨trivial,linked.waitDone done⟩
    · cases outcome
  | retrieve cycle =>
    cases outcome
    refine ⟨fun n limited => ?_,linked.retrieve may⟩
    rw [linked.inFlight cycle (Nat.le_of_eq may.1.symm)]
    exact linked.obeyed n limited cycle
  | updateReady cycle ready =>
    rcases may with ⟨rfl,settled⟩ | promised
    · obtain ⟨undecided,after⟩ := linked.updateReady_new settled ready
      simp only [Exchange.exec,undecided] at outcome
      cases outcome
      refine ⟨fun promised => ?_,after⟩
      have inside := (List.getElem?_eq_some_iff.mp promised).1
      exact absurd inside (Nat.lt_irrefl _)
    · simp only [Exchange.exec,linked.promised promised] at outcome
      split at outcome
      · next same =>
        cases outcome
        have old : cycle ≠ r.decisions.length := Nat.ne_of_lt (List.getElem?_eq_some_iff.mp promised).1
        refine ⟨fun _ => same,?_⟩
        simp only [EndRecord.grow,if_neg old]
        exact linked
      · cases outcome
  | _ => exact absurd may id

/-! ### A sender and a receiver on one port -/

/-- The receiver does not take a promise back, which would make the code panic. -/
def KeepsPromises (r : EndRecord) : PortOp → Prop
  | .updateReady cycle ready => r.Promised cycle → ready = true
  | _ => True

/-- A receiver whose sender keeps to the limit keeps its promises. -/
def receiving (limit : Option Nat) : Discipline portInterface EndRecord where
  pre r op := ReceiverMay r op ∧ (limit ≠ none → KeepsPromises r op)
  post := ReceiverLearns limit
  grow := EndRecord.grow

@[simp] theorem receiving_grow (limit : Option Nat) : (receiving limit).grow = EndRecord.grow := rfl

/-- The record of an end after its log. -/
def EndRecord.after (r : EndRecord) (log : List (Event portInterface)) : EndRecord :=
  log.foldl (fun r event => r.grow event.op event.answer) r

@[simp] theorem EndRecord.after_append (r : EndRecord) (log : List (Event portInterface)) (event : Event portInterface) :
    r.after (log ++ [event]) = (r.after log).grow event.op event.answer := by simp [EndRecord.after]

section
variable {α : Side → Type}

/-- A port whose ends have records as their logs show, linked by what the port
    means, and a receiver that still keeps its discipline. -/
structure Ended (limit : Option Nat) (s₀ r₀ : EndRecord) (Q : EndRecord → α .receiver → Prop)
    (c : Config portInterface Port α) : Prop where
  linked : Linked limit c.shared.exchange (s₀.after (c.log .sender)) (r₀.after (c.log .receiver))
  keeps : Keeps (receiving limit) (c.prog .receiver) Q (r₀.after (c.log .receiver))

/-- The sender's next operation is one it may do, within the limit. -/
def Obedient (limit : Option Nat) (s₀ r₀ : EndRecord) (c : Config portInterface Port α) (side : Side) : Prop :=
  ∀ op next, side = .sender → c.prog .sender = .call op next →
    SenderMay (s₀.after (c.log .sender)) op ∧
      WithinLimit limit (s₀.after (c.log .sender)) (r₀.after (c.log .receiver)) op

variable {s₀ r₀ : EndRecord} {Q : EndRecord → α .receiver → Prop}

/-- A receiver that does what a receiver may, and more than that what `more` asks. -/
def careful (limit : Option Nat) (more : EndRecord → PortOp → Prop) : Discipline portInterface EndRecord where
  pre r op := ReceiverMay r op ∧ more r op
  post := ReceiverLearns limit
  grow := EndRecord.grow

@[simp] theorem careful_grow (limit : Option Nat) (more : EndRecord → PortOp → Prop) :
    (careful limit more).grow = EndRecord.grow := rfl

/-- A port whose ends have linked records, and a receiver that still does what is asked. -/
structure Attended (limit : Option Nat) (more : EndRecord → PortOp → Prop) (s₀ r₀ : EndRecord)
    (Q : EndRecord → α .receiver → Prop) (c : Config portInterface Port α) : Prop where
  linked : Linked limit c.shared.exchange (s₀.after (c.log .sender)) (r₀.after (c.log .receiver))
  keeps : Keeps (careful limit more) (c.prog .receiver) Q (r₀.after (c.log .receiver))

/-- A step of the receiver, or one of the sender that keeps to the limit. -/
theorem Attended.step {more : EndRecord → PortOp → Prop} {c c' : Config portInterface Port α} (side : Side)
    (attended : Attended limit more s₀ r₀ Q c) (obedient : Obedient limit s₀ r₀ c side)
    (stepped : portMachine.step side c = some c') : Attended limit more s₀ r₀ Q c' := by
  obtain ⟨op,next,isCall,outcome⟩ := Machine.step_cases stepped
  rcases outcome with ⟨shared,outcome,rfl⟩ | ⟨answer,shared,outcome,rfl⟩
  · exact ⟨Port.exchange_again outcome ▸ attended.linked,attended.keeps⟩
  · have meant := Port.exchange_done outcome
    cases side with
    | sender =>
      obtain ⟨may,within⟩ := obedient op next rfl isCall
      refine ⟨?_,?_⟩
      · simpa using attended.linked.sender may within meant
      · simpa using attended.keeps
    | receiver =>
      have allowed := attended.keeps
      rw [isCall,keeps_call] at allowed
      obtain ⟨learns,linked⟩ := attended.linked.receiver allowed.1.1 meant
      refine ⟨?_,?_⟩
      · simpa using linked
      · simpa using allowed.2 answer learns

theorem Attended.reach {more : EndRecord → PortOp → Prop} {c c' : Config portInterface Port α}
    (attended : Attended limit more s₀ r₀ Q c)
    (reach : Reaches (fun c side => portMachine.step side c) (Obedient limit s₀ r₀) c c') :
    Attended limit more s₀ r₀ Q c' :=
  reach.invariant attended (fun side before obedient stepped => before.step side obedient stepped)

/-- A receiver whose sender keeps to the limit attends to its promises. -/
theorem ended_iff {c : Config portInterface Port α} : Ended limit s₀ r₀ Q c ↔
    Attended limit (fun r op => limit ≠ none → KeepsPromises r op) s₀ r₀ Q c :=
  ⟨fun ended => ⟨ended.linked,ended.keeps⟩,fun attended => ⟨attended.linked,attended.keeps⟩⟩

theorem Ended.reach {c c' : Config portInterface Port α} (ended : Ended limit s₀ r₀ Q c)
    (reach : Reaches (fun c side => portMachine.step side c) (Obedient limit s₀ r₀) c c') : Ended limit s₀ r₀ Q c' :=
  ended_iff.mpr ((ended_iff.mp ended).reach reach)

/-- The receiver's steps are not limited. -/
theorem obedient_receiver (c : Config portInterface Port α) : Obedient limit s₀ r₀ c .receiver :=
  fun _ _ isSender _ => absurd isSender (by decide)

theorem reaches_receiver : ∀ (n : Nat) (c : Config portInterface Port α),
    Reaches (fun c side => portMachine.step side c) (Obedient limit s₀ r₀) c
      (portMachine.run (List.replicate n .receiver) c)
  | 0, _ => .refl
  | n + 1, c => by
    rcases stepped : portMachine.step .receiver c with _ | next
    · simpa [Machine.run,List.replicate_succ,stepped] using reaches_receiver n c
    · have first : Reaches (fun c side => portMachine.step side c) (Obedient limit s₀ r₀) c next :=
        Reaches.refl.step Side.receiver (obedient_receiver c) stepped
      simpa [Machine.run,List.replicate_succ,stepped] using first.trans (reaches_receiver n next)

/-- A receiver that keeps its promises never makes the code panic. -/
theorem Ended.no_panic {c : Config portInterface Port α} (ended : Ended limit s₀ r₀ Q c) (limited : limit ≠ none)
    {cycle : Nat} {ready : Bool} {next : Unit → Prog portInterface (α .receiver)}
    (at_update : c.prog .receiver = .call (.updateReady cycle ready) next) :
    c.shared.downstreamSync.updateReady cycle ready ≠ none := by
  have allowed := ended.keeps
  rw [at_update,keeps_call] at allowed
  obtain ⟨⟨may,keeps⟩,_⟩ := allowed
  rcases may with ⟨rfl,settled⟩ | promised
  · obtain ⟨sync,updated,_⟩ :=
      ComponentSync.updateReady_undecided (ended.linked.updateReady_new settled ready).1 ready
    rw [updated]
    simp
  · have held : c.shared.downstreamSync.answer cycle = some true := ended.linked.promised promised
    rw [ComponentSync.updateReady_decided held,if_pos (keeps limited promised)]
    simp

end
end FlowSim.AheadPort
