import FlowSim.Links.BufferedTick
import FlowSim.Queue.Promise

/-!
A link at its downstream port. Whatever arrives at the upstream port, the link is there a
sender like any other (`downstreamOf`), and an input queue reads what it sends. A run of the
two can be told what each cycle of the link may find: the answer it gets when it asks for
the first time whether the queue is ready, and the packets that are then due.
-/
namespace FlowSim.Links
open FlowSim.Lib FlowSim.AheadPort FlowSim.Queue
set_option linter.unusedSimpArgs false

/-! ### The program at the downstream port -/

/-- The answers of an upstream port at which these packets arrive, by the cycle in which they
    were sent. A link asks nothing else there. -/
def answered (arrivals : Nat → List Packet) : (op : PortOp) → op.Resp
  | .retrieve cycle => arrivals cycle
  | .isReady _ => true
  | .drainChannel => ()
  | .waitDone _ => ()
  | .updateReady _ _ => ()
  | .send _ => ()
  | .markDone _ => ()

/-- What the program of a link does at the downstream port when these packets arrive. -/
def downstreamOf {α : Type} (arrivals : Nat → List Packet) : Prog linkPorts α → Prog portInterface α
  | .done value => .done value
  | .call (.upstream,op) next => downstreamOf arrivals (next (answered arrivals op))
  | .call (.downstream,op) next => .call op (fun answer => downstreamOf arrivals (next answer))

/-- The packets that the link receives in a cycle. -/
def incomingAt (arrivals : Nat → List Packet) (latency cycle : Nat) : List Packet :=
  if latency ≤ cycle then arrivals (cycle - latency) else []

/-- The packets that the link has received before the cycle, in order. -/
def receivedBefore (arrivals : Nat → List Packet) (latency cycle : Nat) : List Packet :=
  (List.range cycle).flatMap (incomingAt arrivals latency)

theorem receivedBefore_succ (arrivals : Nat → List Packet) (latency cycle : Nat) :
    receivedBefore arrivals latency (cycle + 1) = receivedBefore arrivals latency cycle ++ incomingAt arrivals latency cycle := by
  simp [receivedBefore,List.range_succ]

section
variable {α β : Type} (arrivals : Nat → List Packet)

@[simp] theorem downstreamOf_done (value : α) : downstreamOf arrivals (.done value) = .done value := rfl

theorem downstreamOf_bind (p : Prog linkPorts α) (f : α → Prog linkPorts β) :
    downstreamOf arrivals (p >>= f) = downstreamOf arrivals p >>= fun value => downstreamOf arrivals (f value) := by
  induction p with
  | done value => rfl
  | call op next ih =>
    obtain ⟨side,op⟩ := op
    cases side with
    | upstream =>
      simp only [Prog.call_bind,downstreamOf]
      exact ih _
    | downstream =>
      simp only [Prog.call_bind,downstreamOf]
      congr 1
      funext answer
      exact ih answer

@[simp] theorem downstreamOf_atEnd (p : Prog portInterface α) : downstreamOf arrivals (atEnd .downstream p) = p := by
  induction p with
  | done value => rfl
  | call op next ih => simp only [atEnd_call,downstreamOf,ih]

@[simp] theorem downstreamOf_incoming {σ : Type} (l : Link σ) (cycle : Nat) :
    downstreamOf arrivals (l.incoming cycle) = .done (incomingAt arrivals l.latency cycle) := by
  unfold Link.incoming incomingAt
  split_ifs
  · rfl
  · rfl

@[simp] theorem downstreamOf_updateReady (cycle : Nat) (ready : Bool) :
    downstreamOf arrivals (atEnd .upstream (updateReady cycle ready)) = .done () := rfl

end

/-- What has been received was sent at least the latency before. -/
theorem receivedBefore_eq (arrivals : Nat → List Packet) (latency cycle : Nat) :
    receivedBefore arrivals latency cycle = (List.range (cycle - latency)).flatMap arrivals := by
  induction cycle with
  | zero => rw [Nat.zero_sub]; rfl
  | succ cycle ih =>
    rw [receivedBefore_succ,ih,incomingAt]
    split_ifs with through
    · rw [Nat.succ_sub through,List.range_succ,List.flatMap_append,List.flatMap_singleton]
    · rw [List.append_nil,show cycle + 1 - latency = cycle - latency by omega]

theorem receivedBefore_prefix (arrivals : Nat → List Packet) (latency : Nat) {j k : Nat} (upTo : j ≤ k) :
    receivedBefore arrivals latency j <+: receivedBefore arrivals latency k := by
  induction upTo with
  | refl => exact List.prefix_rfl
  | step _ ih =>
    rw [receivedBefore_succ]
    exact ih.trans (List.prefix_append _ _)

instance {I : Interface} {S W : Type} {α : W → Type} (c : Config I S α) (w : W) : Decidable (c.Finished w) :=
  match ended : c.prog w with
  | .done value => .isTrue ⟨value,ended⟩
  | .call _ _ => .isFalse fun ⟨_,finished⟩ => by rw [ended] at finished; cases finished

/-! ### What the link has handed on -/

/-- The packets that were sent, each with the cycle in which it was: the number of cycles
    that were marked done before. -/
def sentFrom (cycle : Nat) : List (Event portInterface) → List PacketWithCycle
  | [] => []
  | ⟨.markDone _,_⟩ :: rest => sentFrom (cycle + 1) rest
  | ⟨.send pwc,_⟩ :: rest => ⟨cycle,pwc.packet⟩ :: sentFrom cycle rest
  | _ :: rest => sentFrom cycle rest

/-- The packets that the log of a link shows as handed on, in order. -/
def handedOn (log : List (Event portInterface)) : List PacketWithCycle := sentFrom 0 log

/-- The cycles that the log shows as marked done. -/
def marks (log : List (Event portInterface)) : Nat := log.countP fun event => match event.op with
  | .markDone _ => true
  | _ => false

theorem sentFrom_append (event : Event portInterface) : ∀ (log : List (Event portInterface)) (cycle : Nat),
    sentFrom cycle (log ++ [event]) = sentFrom cycle log ++ match event.op with
      | .send pwc => [⟨cycle + marks log,pwc.packet⟩]
      | _ => []
  | [], cycle => by
    obtain ⟨op,answer⟩ := event
    cases op <;> rfl
  | ⟨op,answer⟩ :: rest, cycle => by
    have others := sentFrom_append event rest
    cases op with
    | markDone done =>
      have counted : marks (⟨.markDone done,answer⟩ :: rest) = marks rest + 1 := List.countP_cons_of_pos rfl
      show sentFrom (cycle + 1) (rest ++ [event]) = sentFrom (cycle + 1) rest ++ _
      rw [others,counted,Nat.add_right_comm,Nat.add_assoc]
    | send pwc => exact congrArg (List.cons _) (others cycle)
    | _ => exact others cycle

/-- What a sender and a queue behind it return. -/
abbrev Ends (α : Type) : Side → Type
  | .sender => α
  | .receiver => Option String × InputQueue

/-- The record of the link at its downstream port. -/
def handed {α : Side → Type} (c : Config portInterface Port α) : EndRecord := EndRecord.initial.after (c.log .sender)

/-- The record of the queue on the same port. -/
def taken {α : Side → Type} (c : Config portInterface Port α) : EndRecord :=
  InputQueue.connectedRecord.after (c.log .receiver)

/-- The packets due in a cycle: those that the link has received by then and not yet sent. -/
def due (received : Nat → List Packet) (s : EndRecord) (cycle : Nat) : Nat :=
  (received (cycle + 1)).length - s.accepted.length

/-- The cycle for which the link is about to ask for the first time whether the queue is
    ready, with the answer. -/
def asks {α : Side → Type} (c : Config portInterface Port α) : Option (Nat × Bool) :=
  match c.prog .sender with
  | .call (.isReady cycle) _ =>
    if (handed c).asked < cycle then (c.shared.downstreamSync.answer cycle).map fun ready => (cycle,ready) else none
  | _ => none

/-- When the link asks for the first time whether the queue is ready for a cycle, the answer
    and the number of packets that are due meet the condition. -/
def Finds {α : Side → Type} (condition : (cycle : Nat) → (ready : Bool) → (due : Nat) → Prop)
    (received : Nat → List Packet) (c : Config portInterface Port α) (side : Side) : Prop :=
  side = .sender → ∀ asked ∈ asks c, condition asked.1 asked.2 (due received (handed c) asked.1)

instance {α : Side → Type} (condition : (cycle : Nat) → (ready : Bool) → (due : Nat) → Prop)
    [∀ cycle ready due, Decidable (condition cycle ready due)] (received : Nat → List Packet)
    (c : Config portInterface Port α) : DecidablePred (Finds condition received c) := fun side => by
  unfold Finds
  infer_instance

/-! ### Handing on -/

/-- How a link hands on what it has received before each cycle: the room there is in a cycle,
    the condition on what it finds, and what it has achieved at the end of a cycle with the
    packets handed on, which later cycles do not undo. -/
structure Manner where
  received : Nat → List Packet
  room : Nat → Nat
  condition : (cycle : Nat) → (ready : Bool) → (due : Nat) → Prop
  through : (cycle : Nat) → List PacketWithCycle → Prop
  grows : ∀ {j k}, j ≤ k → received j <+: received k
  stays : ∀ {cycle pwc pkts}, cycle < pwc.cycle → through cycle pkts → through cycle (pkts ++ [pwc])

section
variable (m : Manner)

/-- A sender that goes through the cycles and asks for each whether the queue is ready. It
    sends for the current cycle, once that is granted at the first question, no more than
    there is room for, and what it has received, in order. -/
def handing : Discipline portInterface EndRecord where
  pre s op := match op with
    | .isReady cycle => (cycle : Int) = s.marked + 1
    | .send pwc => (pwc.cycle : Int) = s.marked + 1 ∧ s.granted = pwc.cycle ∧ s.refused < pwc.cycle ∧
        (s.acceptedFor pwc.cycle).length < m.room pwc.cycle ∧
        s.accepted.map PacketWithCycle.packet ++ [pwc.packet] <+: m.received (pwc.cycle + 1)
    | .markDone cycle => (cycle : Int) = s.marked + 1 ∧ m.through cycle s.accepted
    | _ => False
  post s op answer := match op, answer with
    | .isReady cycle, ready =>
      (s.asked < cycle → m.condition cycle ready (due m.received s cycle)) ∧ (s.asked = cycle → ready = true)
    | _, _ => True
  grow := EndRecord.grow

@[simp] theorem handing_grow : (handing m).grow = EndRecord.grow := rfl

/-- What the log of such a sender shows, next to its record and that of the queue. -/
structure Handed (log : List (Event portInterface)) (s r : EndRecord) : Prop where
  late : s.late = []
  sent : handedOn log = s.accepted
  marked : (marks log : Int) = s.marked + 1
  asked : s.asked = max s.granted s.refused
  current : s.asked ≤ s.marked + 1
  promised : ∀ cycle : Nat, s.granted = cycle → s.refused < cycle → r.Promised cycle
  few : ∀ cycle, (s.acceptedFor cycle).length ≤ m.room cycle
  upTo : ∀ pwc ∈ s.accepted, (pwc.cycle : Int) ≤ s.marked + 1
  delayed : ∀ cycle, (s.accepted.filter (fun pwc => pwc.cycle ≤ cycle)).map PacketWithCycle.packet <+: m.received (cycle + 1)
  through : ∀ cycle : Nat, (cycle : Int) ≤ s.marked → m.through cycle s.accepted

end

section
variable {m : Manner} {log : List (Event portInterface)} {s r : EndRecord}

theorem handed_new : Handed m [] .initial InputQueue.connectedRecord where
  late := rfl
  sent := rfl
  marked := rfl
  asked := rfl
  current := by decide
  promised := by
    intro cycle granted
    have none_ : (-1 : Int) = cycle := granted
    omega
  few := fun _ => Nat.zero_le _
  upTo := fun _ member => absurd member List.not_mem_nil
  delayed := fun _ => List.nil_prefix
  through := by
    intro cycle done
    have none_ : (cycle : Int) ≤ -1 := done
    omega

theorem Handed.receiver (told : Handed m log s r) (op : PortOp) (answer : op.Resp) :
    Handed m log s (r.grow op answer) := by
  refine { told with promised := fun cycle granted since => ?_ }
  have before := told.promised cycle granted since
  cases op with
  | updateReady k ready =>
    simp only [EndRecord.grow]
    split
    · exact (List.getElem?_append_left (List.getElem?_eq_some_iff.mp before).1).trans before
    · exact before
  | send pwc =>
    simp only [EndRecord.grow]
    split <;> exact before
  | isReady k =>
    simp only [EndRecord.grow]
    split <;> exact before
  | _ => exact before

theorem Handed.isReady {cycle : Nat} {ready : Bool} (told : Handed m log s r)
    (now : (cycle : Int) = s.marked + 1) (first : s.asked < cycle → r.decisions[cycle]? = some ready)
    (again : s.asked = cycle → ready = true) :
    Handed m (log ++ [⟨.isReady cycle,ready⟩]) (s.grow (.isReady cycle) ready) r := by
  have asked := told.asked
  have current := told.current
  have sent : handedOn (log ++ [⟨.isReady cycle,ready⟩]) = s.accepted :=
    (sentFrom_append _ log 0).trans ((List.append_nil _).trans told.sent)
  have counted : marks (log ++ [⟨.isReady cycle,ready⟩]) = marks log := by simp [marks]
  cases ready with
  | true =>
    refine ⟨told.late,sent,by rw [counted]; exact told.marked,?_,?_,?_,told.few,told.upTo,told.delayed,told.through⟩
    · show max s.asked cycle = max (cycle : Int) s.refused
      omega
    · show max s.asked cycle ≤ s.marked + 1
      omega
    · intro k granted since
      have here : (cycle : Int) = k := granted
      obtain rfl : cycle = k := by exact_mod_cast here
      have since : s.refused < cycle := since
      by_cases new : s.asked < cycle
      · exact first new
      · exact told.promised cycle (by omega) since
  | false =>
    have new : s.asked < cycle := by
      by_contra old
      exact absurd (again (by omega)) (by decide)
    refine ⟨told.late,sent,by rw [counted]; exact told.marked,?_,?_,?_,told.few,told.upTo,told.delayed,told.through⟩
    · show max s.asked cycle = max s.granted (cycle : Int)
      omega
    · show max s.asked cycle ≤ s.marked + 1
      omega
    · intro k granted since
      have granted : s.granted = k := granted
      have since : (cycle : Int) < k := since
      omega

theorem Handed.send {pwc : PacketWithCycle} (told : Handed m log s r) (now : (pwc.cycle : Int) = s.marked + 1)
    (fits : (s.acceptedFor pwc.cycle).length < m.room pwc.cycle)
    (next : s.accepted.map PacketWithCycle.packet ++ [pwc.packet] <+: m.received (pwc.cycle + 1)) :
    Handed m (log ++ [⟨.send pwc,()⟩]) (s.grow (.send pwc) ()) r := by
  have grown : s.grow (.send pwc) () = { s with accepted := s.accepted ++ [pwc] } := if_pos (by omega)
  have counted : marks (log ++ [⟨.send pwc,()⟩]) = marks log := by simp [marks]
  have here : marks log = pwc.cycle := by
    have marked := told.marked
    omega
  rw [grown]
  refine ⟨told.late,?_,by rw [counted]; exact told.marked,told.asked,told.current,told.promised,?_,?_,?_,?_⟩
  · refine (sentFrom_append _ log 0).trans ?_
    show handedOn log ++ [⟨0 + marks log,pwc.packet⟩] = s.accepted ++ [pwc]
    rw [told.sent,here,Nat.zero_add]
  · intro cycle
    show (stamped cycle (s.accepted ++ [pwc])).length ≤ _
    rw [stamped_append,stamped_singleton]
    by_cases same : pwc.cycle = cycle
    · subst same
      rw [if_pos rfl,List.length_append]
      exact fits
    · rw [if_neg same,List.append_nil]
      exact told.few cycle
  · intro other member
    rcases List.mem_append.mp member with old | new
    · exact told.upTo other old
    · rw [List.mem_singleton.mp new]
      exact now.le
  · intro cycle
    show ((s.accepted ++ [pwc]).filter _).map _ <+: _
    rw [List.filter_append]
    by_cases upTo : pwc.cycle ≤ cycle
    · -- the packets before it were handed on in no later cycle
      have all : s.accepted.filter (fun pwc => pwc.cycle ≤ cycle) = s.accepted := by
        refine List.filter_eq_self.mpr fun other member => decide_eq_true ?_
        have early := told.upTo other member
        omega
      have new : [pwc].filter (fun pwc => pwc.cycle ≤ cycle) = [pwc] := List.filter_cons_of_pos (decide_eq_true upTo)
      rw [all,new,List.map_append]
      exact next.trans (m.grows (Nat.succ_le_succ upTo))
    · have new : [pwc].filter (fun pwc => pwc.cycle ≤ cycle) = [] := List.filter_cons_of_neg (by simpa using upTo)
      rw [new,List.append_nil]
      exact told.delayed cycle
  · intro cycle done
    have before : (cycle : Int) ≤ s.marked := done
    exact m.stays (by omega) (told.through cycle before)

theorem Handed.markDone {cycle : Nat} (told : Handed m log s r) (now : (cycle : Int) = s.marked + 1)
    (through : m.through cycle s.accepted) :
    Handed m (log ++ [⟨.markDone cycle,()⟩]) (s.grow (.markDone cycle) ()) r := by
  have marked := told.marked
  have current := told.current
  refine ⟨told.late,?_,?_,told.asked,?_,told.promised,told.few,?_,told.delayed,?_⟩
  · exact (sentFrom_append _ log 0).trans ((List.append_nil _).trans told.sent)
  · have counted : marks (log ++ [⟨.markDone cycle,()⟩]) = marks log + 1 := by simp [marks]
    rw [counted]
    show ((marks log + 1 : Nat) : Int) = cycle + 1
    omega
  · show s.asked ≤ cycle + 1
    omega
  · intro pwc member
    have early := told.upTo pwc member
    show (pwc.cycle : Int) ≤ cycle + 1
    omega
  · intro k done
    have done : (k : Int) ≤ cycle := done
    by_cases here : k = cycle
    · subst here
      exact through
    · exact told.through k (by omega)

/-! ### Runs of a link and a queue -/

variable {α : Side → Type} {inBandwidth : Nat} {more : EndRecord → PortOp → Prop} {Q : EndRecord → α .receiver → Prop}
  {Q' : EndRecord → α .sender → Prop} {c c' : Config portInterface Port α}

/-- A link that hands on as it should, and a queue that attends to it. -/
structure Joined (m : Manner) (inBandwidth : Nat) (more : EndRecord → PortOp → Prop) (Q : EndRecord → α .receiver → Prop)
    (Q' : EndRecord → α .sender → Prop) (c : Config portInterface Port α) : Prop where
  attended : Attended (some inBandwidth) more .initial InputQueue.connectedRecord Q c
  keeps : Keeps (handing m) (c.prog .sender) Q' (handed c)
  told : Handed m (c.log .sender) (handed c) (taken c)

/-- The link only sends what is within the limits of the queue. -/
theorem Joined.obedient (joined : Joined m inBandwidth more Q Q' c)
    (small : ∀ cycle, m.room cycle ≤ inBandwidth) (side : Side) :
    Obedient (some inBandwidth) .initial InputQueue.connectedRecord c side := by
  rintro op next - isCall
  have allowed := joined.keeps
  rw [isCall,keeps_call] at allowed
  have pre := allowed.1
  cases op with
  | isReady cycle => exact ⟨trivial,trivial⟩
  | send pwc =>
    obtain ⟨now,granted,since,fits,_⟩ := pre
    refine ⟨.inl (show (handed c).marked < pwc.cycle by omega),?_⟩
    rintro n ⟨⟩
    exact ⟨show (handed c).marked < pwc.cycle by omega,Nat.lt_of_lt_of_le fits (small _),
      joined.told.promised _ granted since⟩
  | markDone cycle =>
    have now : (cycle : Int) = (handed c).marked + 1 := pre.1
    exact ⟨show (handed c).marked < cycle by omega,trivial⟩
  | _ => exact pre.elim

/-- A step of the queue, or one of the link that finds what the condition asks. -/
theorem Joined.step (joined : Joined m inBandwidth more Q Q' c)
    (small : ∀ cycle, m.room cycle ≤ inBandwidth) (side : Side)
    (finds : Finds m.condition m.received c side) (stepped : portMachine.step side c = some c') :
    Joined m inBandwidth more Q Q' c' := by
  have attended := joined.attended.step side (joined.obedient small side) stepped
  have linked : Linked (some inBandwidth) c.shared.exchange (handed c) (taken c) := joined.attended.linked
  obtain ⟨op,next,isCall,outcome⟩ := Machine.step_cases stepped
  rcases outcome with ⟨shared,outcome,rfl⟩ | ⟨answer,shared,outcome,rfl⟩
  · exact ⟨attended,joined.keeps,joined.told⟩
  have meant := Port.exchange_done outcome
  cases side with
  | receiver =>
    refine ⟨attended,?_,?_⟩
    · simpa [handed] using joined.keeps
    · simpa [handed,taken] using joined.told.receiver op answer
  | sender =>
    have allowed := joined.keeps
    rw [isCall,keeps_call] at allowed
    obtain ⟨pre,goes_on⟩ := allowed
    suffices (handing m).post (handed c) op answer ∧
        Handed m (c.log .sender ++ [⟨op,answer⟩]) ((handed c).grow op answer) (taken c) by
      refine ⟨attended,?_,?_⟩
      · simpa [handed] using goes_on answer this.1
      · simpa [handed,taken] using this.2
    cases op with
    | isReady cycle =>
      have read : c.shared.exchange.decision cycle = some answer := by
        rcases decided : c.shared.exchange.decision cycle with _ | ready <;> simp only [Exchange.exec,decided] at meant
        · cases meant
        · exact congrArg some (Outcome.done.inj meant).1
      obtain ⟨_,first,_⟩ := linked.answered read
      have again : (handed c).asked = cycle → answer = true := by
        intro old
        have pruned := linked.decision cycle
        rw [if_pos (show (cycle : Int) ≤ (handed c).asked by omega),read] at pruned
        exact Option.some.inj pruned
      refine ⟨⟨fun new => ?_,again⟩,joined.told.isReady pre first again⟩
      refine finds rfl (cycle,answer) ?_
      have question : asks c = some (cycle,answer) := by
        unfold asks
        rw [isCall]
        dsimp only
        rw [if_pos new]
        exact Option.map_eq_some_iff.mpr ⟨answer,read,rfl⟩
      exact question
    | send pwc =>
      obtain ⟨now,_,_,fits,order⟩ := pre
      exact ⟨trivial,joined.told.send now fits order⟩
    | markDone cycle => exact ⟨trivial,joined.told.markDone pre.1 pre.2⟩
    | _ => exact pre.elim

theorem Joined.reach (joined : Joined m inBandwidth more Q Q' c)
    (small : ∀ cycle, m.room cycle ≤ inBandwidth)
    (reach : Reaches (fun c side => portMachine.step side c) (Finds m.condition m.received) c c') :
    Joined m inBandwidth more Q Q' c' :=
  reach.invariant joined fun side before finds stepped => before.step small side finds stepped

end
end FlowSim.Links
