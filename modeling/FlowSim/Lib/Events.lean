import FlowSim.Lib.Interleave

/-!
What a program does under given answers. `Prog.under` runs a program whose n-th operation
gets the n-th answer and records the operations with their answers;
`Prog.Does` relates a program to the events and the result of one of its runs, and is what
proofs take apart.
-/
namespace FlowSim.Lib
set_option linter.unusedSimpArgs false

/-- The answers that a program gets, in turn. -/
abbrev Answers (I : Interface) := Nat → (op : I.Op) → I.Resp op

namespace Prog
variable {I : Interface} {α β : Type}

/-- The result under the given answers, with the events on the way. -/
def under (answers : Answers I) : Prog I α → α × List (Event I)
  | .done value => (value,[])
  | .call op next =>
    let (value,events) := under (fun n => answers (n + 1)) (next (answers 0 op))
    (value,⟨op,answers 0 op⟩ :: events)

/-- For some answers, the program does this and returns the value. -/
def Does : Prog I α → List (Event I) → α → Prop
  | .done value, events, result => events = [] ∧ result = value
  | .call op next, events, result => ∃ answer rest, events = ⟨op,answer⟩ :: rest ∧ Does (next answer) rest result

@[simp] theorem does_done {value result : α} {events : List (Event I)} :
    Does (.done value) events result ↔ events = [] ∧ result = value := Iff.rfl

@[simp] theorem does_pure {value result : α} {events : List (Event I)} :
    Does (pure value) events result ↔ events = [] ∧ result = value := Iff.rfl

@[simp] theorem does_call {op : I.Op} {next : I.Resp op → Prog I α} {events : List (Event I)} {result : α} :
    Does (.call op next) events result ↔
      ∃ answer rest, events = ⟨op,answer⟩ :: rest ∧ Does (next answer) rest result := Iff.rfl

@[simp] theorem does_perform {op : I.Op} {events : List (Event I)} {result : I.Resp op} :
    Does (perform op) events result ↔ events = [⟨op,result⟩] := by
  constructor
  · rintro ⟨answer,rest,rfl,rfl,rfl⟩
    rfl
  · rintro rfl
    exact ⟨result,[],rfl,rfl,rfl⟩

/-- A sequence does what its first part does and then what the second part does. -/
theorem does_bind {p : Prog I α} {f : α → Prog I β} : ∀ {events : List (Event I)} {result : β},
    Does (p >>= f) events result ↔
      ∃ first value second, events = first ++ second ∧ Does p first value ∧ Does (f value) second result := by
  induction p with
  | done value =>
    intro events result
    constructor
    · exact fun does => ⟨[],value,events,rfl,⟨rfl,rfl⟩,does⟩
    · rintro ⟨first,value',second,rfl,⟨rfl,rfl⟩,does⟩
      exact does
  | call op next ih =>
    intro events result
    constructor
    · rintro ⟨answer,rest,rfl,does⟩
      obtain ⟨first,value,second,rfl,does₁,does₂⟩ := (ih answer).mp does
      exact ⟨⟨op,answer⟩ :: first,value,second,rfl,⟨answer,first,rfl,does₁⟩,does₂⟩
    · rintro ⟨_,value,second,rfl,⟨answer,first,rfl,does₁⟩,does₂⟩
      exact ⟨answer,first ++ second,rfl,(ih answer).mpr ⟨first,value,second,rfl,does₁,does₂⟩⟩

theorem does_under (p : Prog I α) : ∀ answers : Answers I, Does p (p.under answers).2 (p.under answers).1 := by
  induction p with
  | done value => exact fun _ => ⟨rfl,rfl⟩
  | call op next ih => exact fun answers => ⟨answers 0 op,_,rfl,ih (answers 0 op) _⟩

/-- The answers that are recorded are the given ones. -/
theorem answer_of_under (p : Prog I α) : ∀ {answers : Answers I} {event : Event I}, event ∈ (p.under answers).2 →
    ∃ n, event.answer = answers n event.op := by
  induction p with
  | done value => exact fun member => absurd member List.not_mem_nil
  | call op next ih =>
    intro answers event member
    rcases List.mem_cons.mp member with rfl | later
    · exact ⟨0,rfl⟩
    · obtain ⟨n,same⟩ := ih (answers 0 op) later
      exact ⟨n + 1,same⟩

/-! ### Runs on a state -/

/-- The state after the events, when each is what the state answers. -/
inductive Follows {σ : Type} (exec : σ → (op : I.Op) → Option (I.Resp op × σ)) : σ → List (Event I) → σ → Prop where
  | nil (s : σ) : Follows exec s [] s
  | cons {s s' t : σ} {event : Event I} {rest : List (Event I)} (first : exec s event.op = some (event.answer,s'))
      (later : Follows exec s' rest t) : Follows exec s (event :: rest) t

end Prog
end FlowSim.Lib
