import FlowSim.AheadPort.Independence
import FlowSim.Lib.Family

/-!
Workers on any number of ports, each with one sender and one receiver. As long as the workers
do at their ports what the ends of a port may do, the records of all ends fit together, and
all schedules that bring the workers to their ends end alike (`finished_unique`).
-/
namespace FlowSim.AheadPort
open FlowSim.Lib
set_option linter.unusedSimpArgs false

variable {W P : Type}

theorem exchange_immediate : exchangeMachine.Immediate := by
  intro e op e' again
  simp only [exchangeMachine] at again
  cases op with
  | drainChannel => cases again
  | waitDone cycle =>
    simp only [Exchange.exec] at again
    split_ifs at again
  | retrieve cycle => cases again
  | updateReady cycle ready =>
    simp only [Exchange.exec] at again
    split at again
    · cases again
    · split_ifs at again
  | isReady cycle =>
    simp only [Exchange.exec] at again
    split at again
    · cases again
    · cases again
  | send pwc => cases again
  | markDone cycle => cases again

/-- The workers at the two ends of a port. The receiver of a prompt sender, which is never
    late, need not read what it refuses. -/
structure Joint (W : Type) where
  sender : W
  receiver : W
  prompt : Bool
  apart : sender ≠ receiver

namespace Joint
variable (joint : Joint W)

def atSender : Discipline portInterface EndRecord := sending (if joint.prompt then PromptMay else SenderMay)

def atReceiver : Discipline portInterface EndRecord := if joint.prompt then deciding else receiving none

/-- The records of the two ends are what the port means. -/
def Related (e : Exchange) (s r : EndRecord) : Prop := if joint.prompt then Agreed e s r else Linked none e s r

section
variable {joint : Joint W} {e e' : Exchange} {s r : EndRecord} {op op₁ op₂ : PortOp} {answer : op.Resp}

theorem Related.sender (related : joint.Related e s r) (may : joint.atSender.pre s op)
    (outcome : e.exec op = .done answer e') :
    joint.atSender.post s op answer ∧ joint.Related e' (joint.atSender.grow s op answer) r := by
  obtain ⟨sender,receiver,prompt,apart⟩ := joint
  cases prompt with
  | true =>
    have agreed : Agreed e s r := related
    exact ⟨agreed.learns outcome,agreed.sender may outcome⟩
  | false =>
    have linked : Linked none e s r := related
    have within : WithinLimit none s r op := by
      cases op with
      | send pwc => exact fun n limited => by cases limited
      | _ => trivial
    exact ⟨linked.agreed.learns outcome,linked.sender may within outcome⟩

theorem Related.receiver (related : joint.Related e s r) (may : joint.atReceiver.pre r op)
    (outcome : e.exec op = .done answer e') :
    joint.atReceiver.post r op answer ∧ joint.Related e' s (joint.atReceiver.grow r op answer) := by
  obtain ⟨sender,receiver,prompt,apart⟩ := joint
  cases prompt with
  | true =>
    have agreed : Agreed e s r := related
    exact ⟨trivial,agreed.receiver may outcome⟩
  | false =>
    have linked : Linked none e s r := related
    exact linked.receiver may.1 outcome

theorem Related.independent (related : joint.Related e s r) (may₁ : joint.atSender.pre s op₁)
    (may₂ : joint.atReceiver.pre r op₂) : exchangeMachine.Independent e op₁ op₂ := by
  obtain ⟨sender,receiver,prompt,apart⟩ := joint
  cases prompt with
  | true =>
    have agreed : Agreed e s r := related
    have prompt : PromptMay s op₁ := may₁
    have eager : EagerMay r op₂ := may₂
    intro answer₁ answer₂ e₁ e₂ first second
    exact agreed.prompt_independent prompt eager first second
  | false =>
    have linked : Linked none e s r := related
    have late : SenderMay s op₁ := may₁
    have attentive : ReceiverMay r op₂ := may₂.1
    intro answer₁ answer₂ e₁ e₂ first second
    exact linked.independent late attentive first second

end
end Joint

/-- The workers at each port. A port without workers is not in use. -/
abbrev Wiring (W P : Type) := P → Option (Joint W)

namespace Wiring
variable [DecidableEq W] (wiring : Wiring W P)

/-- The worker is at an end of the port. -/
def Works (w : W) (p : P) : Prop := ∃ joint, wiring p = some joint ∧ (w = joint.sender ∨ w = joint.receiver)

/-- What a worker does at a port. -/
def role (w : W) (p : P) : Discipline portInterface EndRecord :=
  match wiring p with
  | some joint => if w = joint.sender then joint.atSender else joint.atReceiver
  | none => deciding

variable {wiring}

theorem role_sender {p : P} {joint : Joint W} (here : wiring p = some joint) :
    wiring.role joint.sender p = joint.atSender := by
  simp only [role,here,if_true]

theorem role_receiver {p : P} {joint : Joint W} (here : wiring p = some joint) :
    wiring.role joint.receiver p = joint.atReceiver := by
  simp only [role,here]
  exact if_neg joint.apart.symm

variable [DecidableEq P] (wiring)

/-- A worker works at its own ports, and does there what it may. -/
def conduct (w : W) : Discipline (portInterface.each P) (P → EndRecord) :=
  Discipline.each (wiring.Works w) (wiring.role w)

/-- All ports mean what the records of their ends say. -/
def Consistent (e : P → Exchange) (g : W → P → EndRecord) : Prop :=
  ∀ p joint, wiring p = some joint → joint.Related (e p) (g joint.sender p) (g joint.receiver p)

variable {wiring} {e : P → Exchange} {g : W → P → EndRecord}

omit [DecidableEq W] [DecidableEq P] in
/-- The done mark and the decisions of every port are what the records of its ends say. -/
theorem Consistent.agreed {p : P} {joint : Joint W} (consistent : wiring.Consistent e g) (here : wiring p = some joint) :
    Agreed (e p) (g joint.sender p) (g joint.receiver p) := by
  have related := consistent p joint here
  unfold Joint.Related at related
  split_ifs at related
  · exact related
  · exact Linked.agreed related

/-- What a step at one port leaves at the others. -/
theorem Consistent.elsewhere {w : W} {p q : P} {t : Exchange} {record : EndRecord} {joint : Joint W}
    (consistent : wiring.Consistent e g) (other : q ≠ p) (here : wiring q = some joint) :
    joint.Related (Function.update e p t q) (Function.update g w (Function.update (g w) p record) joint.sender q)
      (Function.update g w (Function.update (g w) p record) joint.receiver q) := by
  have same : ∀ v, Function.update g w (Function.update (g w) p record) v q = g v q := by
    intro v
    by_cases isW : v = w
    · subst isW
      rw [Function.update_self,Function.update_of_ne other]
    · rw [Function.update_of_ne isW]
  rw [same,same,Function.update_of_ne other]
  exact consistent q joint here

/-- A step of any worker answers as it may assume, and leaves the records consistent. -/
theorem supports : Supports (exchangeMachine.each P) wiring.conduct wiring.Consistent where
  again := by
    intro e g w op e' _ _ outcome
    exact absurd outcome (exchange_immediate.each e op e')
  done := by
    rintro e g w ⟨p,op⟩ answer e' consistent ⟨⟨joint,here,isEnd⟩,may⟩ outcome
    obtain ⟨t,done,rfl⟩ := Machine.each_done.mp outcome
    have related := consistent p joint here
    rcases isEnd with rfl | rfl
    · have role := role_sender here
      have may : (wiring.role joint.sender p).pre (g joint.sender p) op := may
      rw [role] at may
      obtain ⟨learned,after⟩ := related.sender may done
      refine ⟨?_,fun q other here' => ?_⟩
      · show (wiring.role joint.sender p).post _ _ _
        rw [role]
        exact learned
      · by_cases same : q = p
        · subst same
          obtain rfl : joint = other := Option.some.inj (here.symm.trans here')
          have grown : (wiring.conduct joint.sender).grow (g joint.sender) (q,op) answer q =
              joint.atSender.grow (g joint.sender q) op answer := by
            rw [← role]
            exact Function.update_self ..
          rw [Function.update_self,Function.update_self,Function.update_of_ne joint.apart.symm,grown]
          exact after
        · exact consistent.elsewhere same here'
    · have role := role_receiver here
      have may : (wiring.role joint.receiver p).pre (g joint.receiver p) op := may
      rw [role] at may
      obtain ⟨learned,after⟩ := related.receiver may done
      refine ⟨?_,fun q other here' => ?_⟩
      · show (wiring.role joint.receiver p).post _ _ _
        rw [role]
        exact learned
      · by_cases same : q = p
        · subst same
          obtain rfl : joint = other := Option.some.inj (here.symm.trans here')
          have grown : (wiring.conduct joint.receiver).grow (g joint.receiver) (q,op) answer q =
              joint.atReceiver.grow (g joint.receiver q) op answer := by
            rw [← role]
            exact Function.update_self ..
          rw [Function.update_self,Function.update_self,Function.update_of_ne joint.apart,grown]
          exact after
        · exact consistent.elsewhere same here'

/-- Operations of different workers are independent: they are at different ports, or at the two
    ends of one. -/
theorem Consistent.independent {w v : W} {op₁ op₂ : (portInterface.each P).Op} (consistent : wiring.Consistent e g)
    (different : w ≠ v) (may₁ : (wiring.conduct w).pre (g w) op₁) (may₂ : (wiring.conduct v).pre (g v) op₂) :
    (exchangeMachine.each P).Independent e op₁ op₂ := by
  obtain ⟨p,op₁⟩ := op₁
  obtain ⟨q,op₂⟩ := op₂
  by_cases same : p = q
  · subst same
    obtain ⟨⟨joint,here,isEnd₁⟩,may₁⟩ := may₁
    obtain ⟨⟨other,here',isEnd₂⟩,may₂⟩ := may₂
    obtain rfl : joint = other := Option.some.inj (here.symm.trans here')
    have related := consistent p joint here
    have may₁ : (wiring.role w p).pre (g w p) op₁ := may₁
    have may₂ : (wiring.role v p).pre (g v p) op₂ := may₂
    rcases isEnd₁ with rfl | rfl
    · rcases isEnd₂ with rfl | rfl
      · exact absurd rfl different
      · rw [role_sender here] at may₁
        rw [role_receiver here] at may₂
        exact Machine.independent_each (related.independent may₁ may₂)
    · rcases isEnd₂ with rfl | rfl
      · rw [role_receiver here] at may₁
        rw [role_sender here] at may₂
        have swapped : (exchangeMachine.each P).Independent e (p,op₂) (p,op₁) :=
          Machine.independent_each (related.independent may₂ may₁)
        exact Machine.Independent.symm swapped
      · exact absurd rfl different
  · exact Machine.independent_each_of_ne same

/-! ### All schedules -/

variable {α : W → Type} {Q : (w : W) → (P → EndRecord) → α w → Prop} {ports ports' : P → Port}
  {prog : (w : W) → Prog (portInterface.each P) (α w)} {c c' : Config (portInterface.each P) (P → Port) α}

/-- The workers are governed in every configuration that a schedule reaches, on what the ports mean. -/
theorem governed_reach (consistent : wiring.Consistent (fun p => (ports p).exchange) g)
    (keeps : ∀ w, Keeps (wiring.conduct w) (prog w) (Q w) (g w))
    (reach : (portMachine.each P).Reach (Config.start ports prog) c) :
    Governed wiring.conduct wiring.Consistent g Q (c.map fun s p => (s p).exchange) :=
  (Governed.start (fun p => (ports p).exchange) prog consistent keeps).reach supports
    (port_refines_exchange.each.reach reach)

/-- From ports of the same meaning, all schedules that bring every worker to its end leave the
    same results, the same answers to every operation and the same meaning of every port. -/
theorem finished_unique (consistent : wiring.Consistent (fun p => (ports p).exchange) g)
    (keeps : ∀ w, Keeps (wiring.conduct w) (prog w) (Q w) (g w))
    (same : ∀ p, (ports p).exchange = (ports' p).exchange)
    (reach : (portMachine.each P).Reach (Config.start ports prog) c)
    (reach' : (portMachine.each P).Reach (Config.start ports' prog) c')
    (finished : ∀ w, c.Finished w) (finished' : ∀ w, c'.Finished w) :
    (c.map fun s p => (s p).exchange) = c'.map fun s p => (s p).exchange := by
  have started : (Config.start ports' prog).map (fun s p => (s p).exchange) =
      (Config.start (I := portInterface.each P) (fun p => (ports p).exchange) prog) := by
    simp only [Config.map,Config.start,Config.mk.injEq,and_true]
    exact funext fun p => (same p).symm
  have reach' := port_refines_exchange.each.reach reach'
  rw [started] at reach'
  refine exchange_immediate.each.finished_unique (P := Governed wiring.conduct wiring.Consistent g Q) ?_ ?_ ?_
    (port_refines_exchange.each.reach reach) reach' finished finished'
  · exact fun w governed stepped => governed.step supports w stepped
  · exact fun governed different isCall₁ isCall₂ =>
      governed.related.independent different (governed.allowed isCall₁) (governed.allowed isCall₂)
  · exact Governed.start _ prog consistent keeps

end Wiring
end FlowSim.AheadPort
