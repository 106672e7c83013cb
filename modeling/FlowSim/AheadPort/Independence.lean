import FlowSim.AheadPort.Ends

/-!
When operations of the two ends of a port are independent. A receiver decides the cycles in
order, so that a read of one decision never meets the decision of an earlier cycle, and no
packet is sent for the cycle that is being read: either the sender stamps only cycles it has
still to mark done, or a late packet is for a cycle that was read before.
-/
namespace FlowSim.AheadPort
open FlowSim.Lib
set_option linter.unusedSimpArgs false

/-- The done mark and the decisions of a port are what the records of its ends say. -/
structure Agreed (e : Exchange) (s r : EndRecord) : Prop where
  done : e.done = s.marked
  waited : r.waited ≤ s.marked
  decision : ∀ cycle : Nat, e.decision cycle = if (cycle : Int) ≤ s.asked then some true else r.decisions[cycle]?
  asked : s.asked < r.decisions.length

/-- The next operation of a sender that is never late. It asks for the cycles in order. -/
def PromptMay (s : EndRecord) : PortOp → Prop
  | .isReady cycle => (cycle : Int) ≤ s.marked + 1
  | .send pwc => s.marked < pwc.cycle
  | .markDone cycle => s.marked < cycle
  | _ => False

/-- The next operation of a receiver that need not read what it refuses before it decides the
    next cycle. -/
def EagerMay (r : EndRecord) : PortOp → Prop
  | .drainChannel => True
  | .waitDone _ => True
  | .retrieve cycle => (cycle : Int) ≤ r.waited
  | .updateReady cycle _ => cycle = r.decisions.length ∨ r.Promised cycle
  | _ => False

/-- What an answer tells the sender: a decision that was read reads as ready. -/
def SenderLearns (s : EndRecord) : (op : PortOp) → op.Resp → Prop
  | .isReady cycle, ready => (cycle : Int) ≤ s.asked → ready = true
  | _, _ => True

/-- A sender of either kind. -/
def sending (may : EndRecord → PortOp → Prop) : Discipline portInterface EndRecord where
  pre := may
  post := SenderLearns
  grow := EndRecord.grow

/-- A receiver that decides in order. -/
def deciding : Discipline portInterface EndRecord where
  pre := EagerMay
  post _ _ _ := True
  grow := EndRecord.grow

variable {limit : Option Nat} {e e' : Exchange} {s r : EndRecord} {op op₁ op₂ : PortOp}

theorem Linked.agreed (linked : Linked limit e s r) : Agreed e s r :=
  ⟨linked.done,linked.waited,linked.decision,linked.asked⟩

theorem PromptMay.may (prompt : PromptMay s op) : SenderMay s op := by
  cases op with
  | isReady cycle => trivial
  | send pwc => exact .inl prompt
  | markDone cycle => exact prompt
  | _ => exact prompt.elim

theorem ReceiverMay.eager (may : ReceiverMay r op) : EagerMay r op := by
  cases op with
  | drainChannel => trivial
  | waitDone cycle => trivial
  | retrieve cycle => exact may.2
  | updateReady cycle ready => exact may.imp And.left id
  | _ => exact may.elim

/-! ### Steps of the two ends -/

theorem Agreed.learns (agreed : Agreed e s r) {answer : op.Resp} (outcome : e.exec op = .done answer e') :
    SenderLearns s op answer := by
  cases op with
  | isReady cycle =>
    intro read
    have decided := agreed.decision cycle
    rw [if_pos read] at decided
    simp only [Exchange.exec,decided] at outcome
    exact (Outcome.done.inj outcome).1.symm
  | _ => trivial

theorem Agreed.sender (agreed : Agreed e s r) (may : PromptMay s op) {answer : op.Resp}
    (outcome : e.exec op = .done answer e') : Agreed e' (s.grow op answer) r := by
  obtain ⟨done,waited,decision,asked⟩ := agreed
  cases op with
  | isReady cycle =>
    rcases decided : e.decision cycle with _ | ready
    · simp only [Exchange.exec,decided] at outcome
      cases outcome
    · simp only [Exchange.exec,decided] at outcome
      cases outcome
      have marked : (s.grow (.isReady cycle) answer).marked = s.marked := by
        cases answer <;> rfl
      have read : (s.grow (.isReady cycle) answer).asked = max s.asked cycle := by
        cases answer <;> rfl
      have inside : (cycle : Int) < r.decisions.length := by
        rw [decision] at decided
        split_ifs at decided with old
        · omega
        · exact_mod_cast (List.getElem?_eq_some_iff.mp decided).1
      refine ⟨by rw [marked]; exact done,by rw [marked]; exact waited,fun c => ?_,by rw [read]; omega⟩
      show (if c ≤ cycle then some true else e.decision c) = _
      rw [read,decision c]
      split_ifs <;> first | rfl | omega
  | send pwc =>
    cases outcome
    have same : (s.grow (.send pwc) ()).marked = s.marked ∧ (s.grow (.send pwc) ()).asked = s.asked := by
      simp only [EndRecord.grow]
      split_ifs <;> exact ⟨rfl,rfl⟩
    refine ⟨by rw [same.1]; exact done,by rw [same.1]; exact waited,fun c => ?_,by rw [same.2]; exact asked⟩
    rw [same.2]
    exact decision c
  | markDone cycle =>
    cases outcome
    exact ⟨rfl,le_trans waited (le_of_lt may),decision,asked⟩
  | _ => exact may.elim

theorem Agreed.receiver (agreed : Agreed e s r) (may : EagerMay r op) {answer : op.Resp}
    (outcome : e.exec op = .done answer e') : Agreed e' s (r.grow op answer) := by
  obtain ⟨done,waited,decision,asked⟩ := agreed
  cases op with
  | drainChannel =>
    cases outcome
    exact ⟨done,waited,decision,asked⟩
  | waitDone cycle =>
    simp only [Exchange.exec] at outcome
    split_ifs at outcome with marked
    cases outcome
    exact ⟨done,done ▸ marked,decision,asked⟩
  | retrieve cycle =>
    cases outcome
    exact ⟨done,waited,decision,asked⟩
  | updateReady cycle ready =>
    rcases decided : e.decision cycle with _ | old
    · simp only [Exchange.exec,decided] at outcome
      cases outcome
      have here : cycle = r.decisions.length := by
        rcases may with here | promised
        · exact here
        · rw [decision,promised] at decided
          split_ifs at decided
      have grown : (r.grow (.updateReady cycle ready) ()).decisions = r.decisions ++ [ready] := by
        simp only [EndRecord.grow,if_pos here]
      refine ⟨done,?_,fun c => ?_,?_⟩
      · simp only [EndRecord.grow,if_pos here]
        exact waited
      · rw [grown]
        show Function.update e.decision cycle (some ready) c = _
        rw [Function.update_apply,decision c]
        by_cases same : c = cycle
        · rw [if_pos same,if_neg (by omega),same,here,List.getElem?_concat_length]
        · rw [if_neg same]
          split_ifs
          · rfl
          · rcases Nat.lt_or_ge c r.decisions.length with inside | outside
            · rw [List.getElem?_append_left inside]
            · rw [List.getElem?_eq_none outside,List.getElem?_eq_none]
              rw [List.length_append,List.length_singleton]
              omega
      · rw [grown,List.length_append,List.length_singleton]
        omega
    · simp only [Exchange.exec,decided] at outcome
      split_ifs at outcome
      cases outcome
      have before : cycle ≠ r.decisions.length := by
        rintro rfl
        rw [decision,if_neg (by omega),List.getElem?_eq_none (le_refl _)] at decided
        cases decided
      simp only [EndRecord.grow,if_neg before]
      exact ⟨done,waited,decision,asked⟩
  | _ => exact may.elim

/-! ### Independence -/

theorem Agreed.independent_update {cycle c : Nat} {ready : Bool} (agreed : Agreed e s r)
    (may : EagerMay r (.updateReady c ready)) : exchangeMachine.Independent e (.isReady cycle) (.updateReady c ready) := by
  intro answer₁ answer₂ e₁ e₂ first second
  simp only [exchangeMachine,Exchange.exec] at first second ⊢
  rcases decided : e.decision cycle with _ | was <;> rw [decided] at first
  · cases first
  obtain ⟨rfl,rfl⟩ := Outcome.done.inj first
  have inside : (cycle : Int) < r.decisions.length := by
    rw [agreed.decision] at decided
    split_ifs at decided with old
    · have asked := agreed.asked
      omega
    · exact_mod_cast (List.getElem?_eq_some_iff.mp decided).1
  rcases open_ : e.decision c with _ | old <;> rw [open_] at second
  · cases second
    -- the decision is of a later cycle than the one that is read
    have here : c = r.decisions.length := by
      rcases may with here | promised
      · exact here
      · rw [agreed.decision,promised] at open_
        split_ifs at open_
    have later : ¬ c ≤ cycle := by omega
    have other : cycle ≠ c := by omega
    refine ⟨{ e with decision := Function.update (fun c' => if c' ≤ cycle then some true else e.decision c') c (some ready) },
      ?_,?_⟩
    · dsimp only
      rw [if_neg later,open_]
    · dsimp only
      rw [Function.update_of_ne other,decided]
      refine congrArg (fun decision => Outcome.done _ { e with decision := decision }) (funext fun c' => ?_)
      by_cases same : c' = c
      · subst same
        rw [if_neg later,Function.update_self,Function.update_self]
      · rw [Function.update_of_ne same,Function.update_of_ne same]
  · dsimp only at second
    split_ifs at second with same
    cases second
    subst same
    refine ⟨{ e with decision := fun c' => if c' ≤ cycle then some true else e.decision c' },?_,?_⟩
    · dsimp only
      by_cases upTo : c ≤ cycle
      · -- what is decided again is a promise, and it still reads as one
        have promised : ready = true := by
          rcases may with here | promised
          · omega
          · rw [agreed.decision,promised] at open_
            split_ifs at open_ <;> exact (Option.some.inj open_).symm
        rw [if_pos upTo,promised]
        rfl
      · rw [if_neg upTo,open_]
        exact if_pos rfl
    · rw [decided]

/-- Operations of the two ends are independent, unless a packet is sent for the cycle that is read. -/
theorem Agreed.independent (agreed : Agreed e s r) (may₁ : SenderMay s op₁) (may₂ : EagerMay r op₂)
    (apart : ∀ pwc cycle, op₁ = .send pwc → op₂ = .retrieve cycle → pwc.cycle ≠ cycle) :
    exchangeMachine.Independent e op₁ op₂ := by
  cases op₁ with
  | isReady cycle =>
    cases op₂ with
    | updateReady c ready => exact agreed.independent_update may₂
    | drainChannel =>
      intro answer₁ answer₂ e₁ e₂ first second
      cases second
      exact ⟨e₁,rfl,first⟩
    | waitDone c =>
      intro answer₁ answer₂ e₁ e₂ first second
      simp only [exchangeMachine,Exchange.exec] at first second ⊢
      split_ifs at second with done
      cases second
      refine ⟨e₁,?_,first⟩
      split at first
      · cases first
      · cases first
        exact if_pos done
    | retrieve c =>
      intro answer₁ answer₂ e₁ e₂ first second
      simp only [exchangeMachine,Exchange.exec] at first second ⊢
      cases second
      split at first
      · cases first
      · next decided =>
        cases first
        exact ⟨_,rfl,by rw [decided]⟩
    | _ => exact may₂.elim
  | send pwc =>
    cases op₂ with
    | drainChannel =>
      intro answer₁ answer₂ e₁ e₂ first second
      cases first
      cases second
      exact ⟨_,rfl,rfl⟩
    | waitDone c =>
      intro answer₁ answer₂ e₁ e₂ first second
      simp only [exchangeMachine,Exchange.exec] at first second ⊢
      split_ifs at second with done
      cases first
      cases second
      exact ⟨_,if_pos done,rfl⟩
    | retrieve c =>
      intro answer₁ answer₂ e₁ e₂ first second
      simp only [exchangeMachine,Exchange.exec] at first second ⊢
      cases first
      cases second
      have other : pwc.cycle ≠ c := apart pwc c rfl rfl
      have packets := Function.update_comm other (e.inFlight pwc.cycle ++ [pwc.packet]) [] e.inFlight
      dsimp only
      rw [Function.update_of_ne other,Function.update_of_ne other.symm,packets]
      exact ⟨_,rfl,rfl⟩
    | updateReady c ready =>
      intro answer₁ answer₂ e₁ e₂ first second
      simp only [exchangeMachine,Exchange.exec] at first second ⊢
      cases first
      split at second
      · next decided =>
        cases second
        exact ⟨_,by rw [decided],rfl⟩
      · next decided =>
        split_ifs at second with same
        cases second
        exact ⟨_,by rw [decided]; exact if_pos same,rfl⟩
    | _ => exact may₂.elim
  | markDone cycle =>
    cases op₂ with
    | drainChannel =>
      intro answer₁ answer₂ e₁ e₂ first second
      cases first
      cases second
      exact ⟨_,rfl,rfl⟩
    | waitDone c =>
      intro answer₁ answer₂ e₁ e₂ first second
      simp only [exchangeMachine,Exchange.exec] at first second ⊢
      split_ifs at second with done
      cases first
      cases second
      have later : s.marked < cycle := may₁
      have marked := agreed.done
      have still : (c : Int) ≤ cycle := by omega
      exact ⟨_,if_pos still,rfl⟩
    | retrieve c =>
      intro answer₁ answer₂ e₁ e₂ first second
      cases first
      cases second
      exact ⟨_,rfl,rfl⟩
    | updateReady c ready =>
      intro answer₁ answer₂ e₁ e₂ first second
      simp only [exchangeMachine,Exchange.exec] at first second ⊢
      cases first
      split at second
      · next decided =>
        cases second
        exact ⟨_,by rw [decided],rfl⟩
      · next decided =>
        split_ifs at second with same
        cases second
        exact ⟨_,by rw [decided]; exact if_pos same,rfl⟩
    | _ => exact may₂.elim
  | _ => exact may₁.elim

/-- A sender that is never late, and a receiver that decides in order. -/
theorem Agreed.prompt_independent (agreed : Agreed e s r) (may₁ : PromptMay s op₁) (may₂ : EagerMay r op₂) :
    exchangeMachine.Independent e op₁ op₂ := by
  refine agreed.independent may₁.may may₂ ?_
  rintro pwc cycle rfl rfl
  have fresh : s.marked < pwc.cycle := may₁
  have read : (cycle : Int) ≤ r.waited := may₂
  have waited := agreed.waited
  omega

/-- A sender that may be late, and a receiver that reads what it refuses. -/
theorem Linked.independent (linked : Linked limit e s r) (may₁ : SenderMay s op₁) (may₂ : ReceiverMay r op₂) :
    exchangeMachine.Independent e op₁ op₂ := by
  refine linked.agreed.independent may₁ may₂.eager ?_
  rintro pwc cycle rfl rfl
  obtain ⟨here,read⟩ := may₂
  have waited := linked.waited
  rcases may₁ with fresh | ⟨upTo,since⟩
  · omega
  · have before := linked.late_read upTo since
    omega

end FlowSim.AheadPort
