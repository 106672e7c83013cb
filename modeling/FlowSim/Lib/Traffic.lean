import FlowSim.Lib.Family

/-!
What workers carry to and from a shared state. An operation gives something to the state, or
takes something from it, and a worker's account says what it has given and taken so far. When
every operation balances with the state, and every worker with its account, then nothing is lost
and nothing appears, in whatever order the workers take their steps (`Conserves.total`).
-/
namespace FlowSim.Lib
set_option linter.unusedSimpArgs false

/-! ### Accounts -/

/-- What a worker has given to the shared state, and what it has taken from it. -/
structure Account (A : Type) where
  given : A
  taken : A

namespace Account
variable {A : Type} [AddCommMonoid A] {a : Account A} {start now x : A}

/-- The account of a worker that has done nothing yet. -/
def empty : Account A := ⟨0,0⟩

def give (a : Account A) (x : A) : Account A := { a with given := a.given + x }

def take (a : Account A) (x : A) : Account A := { a with taken := a.taken + x }

@[simp] theorem give_zero (a : Account A) : a.give 0 = a := by
  show ({ a with given := a.given + 0 } : Account A) = a
  rw [add_zero]

@[simp] theorem take_zero (a : Account A) : a.take 0 = a := by
  show ({ a with taken := a.taken + 0 } : Account A) = a
  rw [add_zero]

/-- What the worker has now is what it had at the start and what it took, less what it gave. -/
def Balances (a : Account A) (start now : A) : Prop := now + a.given = start + a.taken

theorem balances_empty (start : A) : (empty : Account A).Balances start start := rfl

theorem Balances.give (balances : a.Balances start (now + x)) : (a.give x).Balances start now := by
  show now + (a.given + x) = start + a.taken
  rw [add_comm a.given,← add_assoc]
  exact balances

theorem Balances.take (balances : a.Balances start now) (x : A) : (a.take x).Balances start (now + x) := by
  show now + x + a.given = start + (a.taken + x)
  rw [add_right_comm,balances,add_assoc]

theorem Balances.congr {now' : A} (balances : a.Balances start now) (same : now = now') : a.Balances start now' :=
  same ▸ balances

end Account

/-- What is gained is also accounted for at the start. -/
theorem Account.Balances.gain {A : Type} [AddCancelCommMonoid A] {a : Account A} {start start' now now' : A}
    (balances : a.Balances start now) (gained : now' + start = now + start') : a.Balances start' now' := by
  refine add_right_cancel (b := start) ?_
  calc now' + a.given + start
    _ = now + a.given + start' := by rw [add_right_comm,gained,add_right_comm]
    _ = start' + a.taken + start := by rw [balances,add_comm,← add_assoc,add_right_comm]

/-! ### What operations carry -/

/-- What the operations of an interface give to the state, and what they take from it. -/
structure Traffic (I : Interface) (A : Type) where
  given : I.Op → A
  taken : (op : I.Op) → I.Resp op → A

section
variable {I : Interface} {A P Q S W α : Type} [AddCancelCommMonoid A] {t : Traffic I A}

/-- The discipline of the programs that issue what they may, relying on what they learn from the
    answers, with their accounts. -/
def Traffic.discipline (t : Traffic I A) (may : I.Op → Prop) (learns : (op : I.Op) → I.Resp op → Prop) :
    Discipline I (Account A) where
  pre _ op := may op
  post _ op answer := learns op answer
  grow a op answer := (a.give (t.given op)).take (t.taken op answer)

/-- The traffic of a family, given that of one object. -/
abbrev Traffic.each (t : Traffic I A) (P : Type) : Traffic (I.each P) A where
  given op := t.given op.2
  taken op answer := t.taken op.2 answer

section
variable (may : P → I.Op → Prop) (learns : P → (op : I.Op) → I.Resp op → Prop) {R : Account A → α → Prop} {a : Account A}

theorem keeps_inside_traffic {p : P} {prog : Prog I α} (keeps : Keeps (t.discipline (may p) (learns p)) prog R a) :
    Keeps ((t.each P).discipline (fun op => may op.1 op.2) fun op => learns op.1 op.2) (prog.inside p) R a := by
  induction prog generalizing a with
  | done value => exact keeps
  | call op next ih => exact ⟨keeps.1,fun answer learned => ih answer (keeps.2 answer learned)⟩

/-- The objects have other names, and so have the conditions on them. -/
theorem keeps_relabel_traffic {f : Q → P} {prog : Prog (I.each Q) α}
    (keeps : Keeps ((t.each Q).discipline (fun op => may (f op.1) op.2) fun op => learns (f op.1) op.2) prog R a) :
    Keeps ((t.each P).discipline (fun op => may op.1 op.2) fun op => learns op.1 op.2) (prog.relabel f) R a := by
  induction prog generalizing a with
  | done value => exact keeps
  | call op next ih => exact ⟨keeps.1,fun answer learned => ih answer (keeps.2 answer learned)⟩

end

/-! ### Balancing with the state -/

/-- Every operation that a worker may issue changes what the state holds by what it gives and
    takes, and its answer is one to rely on. -/
structure Machine.Conserves (M : Machine I S) (t : Traffic I A) (may : I.Op → Prop) (learns : (op : I.Op) → I.Resp op → Prop)
    (sound : S → Prop) (held : S → A) : Prop where
  again : ∀ {s op s'}, sound s → M.exec s op = .again s' → sound s' ∧ held s' = held s
  done : ∀ {s op answer s'}, sound s → may op → M.exec s op = .done answer s' →
    sound s' ∧ learns op answer ∧ held s' + t.taken op answer = held s + t.given op

theorem finsum_update [DecidableEq P] {f : P → A} (finite : f.support.Finite) (p : P) (x : A) :
    (∑ᶠ q, Function.update f p x q) + f p = (∑ᶠ q, f q) + x := by
  have inside : f.support ⊆ (insert p finite.toFinset : Finset P) := by
    intro q member
    simp [Function.mem_support.mp member]
  have inside' : (Function.update f p x).support ⊆ (insert p finite.toFinset : Finset P) := by
    intro q member
    by_cases here : q = p
    · simp [here]
    · rw [Function.mem_support,Function.update_of_ne here] at member
      simp [member]
  rw [finsum_eq_sum_of_support_subset _ inside,finsum_eq_sum_of_support_subset _ inside',
    Finset.sum_update_of_mem (Finset.mem_insert_self ..),← Finset.add_sum_erase _ f (Finset.mem_insert_self p _),
    Finset.sdiff_singleton_eq_erase]
  abel

/-- The members of a family hold together what each of them holds. -/
theorem Machine.Conserves.each [DecidableEq P] {M : Machine I S} {may : P → I.Op → Prop}
    {learns : P → (op : I.Op) → I.Resp op → Prop} {sound : P → S → Prop} {held : S → A}
    (conserves : ∀ p, M.Conserves t (may p) (learns p) (sound p) held) :
    (M.each P).Conserves (t.each P) (fun op => may op.1 op.2) (fun op => learns op.1 op.2)
      (fun s => (∀ p, sound p (s p)) ∧ (fun p => held (s p)).support.Finite) (fun s => ∑ᶠ p, held (s p)) := by
  have updated : ∀ {s : P → S} {p : P} {s' : S}, (fun p => held (s p)).support.Finite →
      (fun q => held (Function.update s p s' q)).support.Finite := by
    intro s p s' finite
    refine (finite.insert p).subset fun q member => ?_
    by_cases here : q = p
    · exact .inl here
    · rw [Function.mem_support,Function.update_of_ne here] at member
      exact .inr member
  have kept : ∀ {s : P → S} {p : P} {s' : S}, (∀ q, sound q (s q)) → sound p s' → ∀ q, sound q (Function.update s p s' q) := by
    intro s p s' before after q
    by_cases here : q = p
    · subst here
      rwa [Function.update_self]
    · rw [Function.update_of_ne here]
      exact before q
  have total : ∀ (s : P → S) (p : P) (s' : S), (fun q => held (Function.update s p s' q)) =
      Function.update (fun q => held (s q)) p (held s') := by
    intro s p s'
    funext q
    by_cases here : q = p
    · subst here
      rw [Function.update_self,Function.update_self]
    · rw [Function.update_of_ne here,Function.update_of_ne here]
  refine ⟨?_,?_⟩
  · rintro s op s' ⟨before,finite⟩ again
    obtain ⟨one,outcome,rfl⟩ := Machine.each_again.mp again
    obtain ⟨after,same⟩ := (conserves op.1).again (before op.1) outcome
    refine ⟨⟨kept before after,updated finite⟩,?_⟩
    rw [total,same,Function.update_eq_self]
  · rintro s op answer s' ⟨before,finite⟩ may done
    obtain ⟨one,outcome,rfl⟩ := Machine.each_done.mp done
    obtain ⟨after,learned,balanced⟩ := (conserves op.1).done (before op.1) may outcome
    refine ⟨⟨kept before after,updated finite⟩,learned,?_⟩
    rw [total]
    have moved := finsum_update finite op.1 (held one)
    refine add_right_cancel (b := held (s op.1)) ?_
    calc (∑ᶠ q, Function.update (fun q => held (s q)) op.1 (held one) q) + t.taken op.2 answer + held (s op.1)
      _ = (∑ᶠ q, held (s q)) + (held one + t.taken op.2 answer) := by rw [add_right_comm,moved,add_assoc]
      _ = (∑ᶠ q, held (s q)) + t.given op.2 + held (s op.1) := by rw [balanced,add_assoc,add_comm (held (s op.1))]

/-- A worker alone balances with the state. -/
theorem Machine.Conserves.alone {M : Machine I S} {may : I.Op → Prop} {learns : (op : I.Op) → I.Resp op → Prop} {sound : S → Prop}
    {held : S → A} (conserves : M.Conserves t may learns sound held) {p : Prog I α} {R : Account A → α → Prop} {value : α} {s' : S}
    {whole : A} : ∀ {s : S} {a : Account A}, sound s → held s + a.taken = whole + a.given → Keeps (t.discipline may learns) p R a →
      p.runWith M.now s = some (value,s') → sound s' ∧ ∃ a : Account A, R a value ∧ held s' + a.taken = whole + a.given := by
  induction p with
  | done result =>
    intro s a isSound balanced keeps ran
    cases ran
    exact ⟨isSound,a,keeps,balanced⟩
  | call op next ih =>
    intro s a isSound balanced keeps ran
    obtain ⟨⟨answer,s₁⟩,first,rest⟩ := Option.bind_eq_some_iff.mp ran
    obtain ⟨after,learned,moved⟩ := conserves.done isSound keeps.1 (Machine.now_iff.mp first)
    refine ih answer after ?_ (keeps.2 answer learned) rest
    show held s₁ + (a.taken + t.taken op answer) = whole + (a.given + t.given op)
    calc held s₁ + (a.taken + t.taken op answer)
      _ = held s₁ + t.taken op answer + a.taken := by abel
      _ = whole + (a.given + t.given op) := by rw [moved,add_right_comm,balanced,add_assoc]

/-! ### All workers together -/

variable [DecidableEq W] {α : W → Type} {M : Machine I S} {may : I.Op → Prop} {learns : (op : I.Op) → I.Resp op → Prop}
  {sound : S → Prop} {held : S → A} {active : Finset W}

/-- The discipline of the workers: those that are not active do nothing. -/
def Traffic.worker (t : Traffic I A) (may : I.Op → Prop) (learns : (op : I.Op) → I.Resp op → Prop) (active : Finset W) (w : W) :
    Discipline I (Account A) :=
  t.discipline (fun op => w ∈ active ∧ may op) learns

/-- The state holds what it held, what was given and not what was taken. -/
def Shared (sound : S → Prop) (held : S → A) (active : Finset W) (whole : A) (s : S) (a : W → Account A) : Prop :=
  sound s ∧ held s + ∑ w ∈ active, (a w).taken = whole + ∑ w ∈ active, (a w).given

theorem Machine.Conserves.supports (conserves : M.Conserves t may learns sound held) (active : Finset W) (whole : A) :
    Supports M (t.worker may learns active) (Shared sound held active whole) where
  again := by
    rintro s a w op s' ⟨isSound,balanced⟩ _ again
    obtain ⟨after,same⟩ := conserves.again isSound again
    exact ⟨after,same ▸ balanced⟩
  done := by
    rintro s a w op answer s' ⟨isSound,balanced⟩ ⟨isActive,allowed⟩ done
    obtain ⟨after,learned,moved⟩ := conserves.done isSound allowed done
    refine ⟨learned,after,?_⟩
    have sums : ∀ f : Account A → A, ∑ v ∈ active, f (Function.update a w ((t.worker may learns active w).grow (a w) op answer) v) =
        f (((a w).give (t.given op)).take (t.taken op answer)) + ∑ v ∈ active.erase w, f (a v) := by
      intro f
      rw [← Finset.add_sum_erase _ _ isActive,Function.update_self]
      refine congrArg₂ _ rfl (Finset.sum_congr rfl fun v member => ?_)
      rw [Function.update_of_ne (Finset.ne_of_mem_erase member)]
    rw [sums Account.taken,sums Account.given]
    rw [← Finset.add_sum_erase _ _ isActive,← Finset.add_sum_erase _ _ isActive] at balanced
    show held s' + ((a w).taken + t.taken op answer + _) = whole + ((a w).given + t.given op + _)
    calc held s' + ((a w).taken + t.taken op answer + ∑ v ∈ active.erase w, (a v).taken)
      _ = held s' + t.taken op answer + ((a w).taken + ∑ v ∈ active.erase w, (a v).taken) := by abel
      _ = held s + ((a w).taken + ∑ v ∈ active.erase w, (a v).taken) + t.given op := by rw [moved,add_right_comm]
      _ = whole + ((a w).given + t.given op + ∑ v ∈ active.erase w, (a v).given) := by rw [balanced]; abel

/-- Once all workers have come to their ends, the state and the workers hold together what they
    held at the start. -/
theorem Machine.Conserves.total (conserves : M.Conserves t may learns sound held) (active : Finset W) {s : S} (isSound : sound s)
    {prog : (w : W) → Prog I (α w)} {start result : (w : W) → α w → A} {R Q : (w : W) → α w → Prop}
    (keeps : ∀ w ∈ active, Keeps (t.discipline may learns) (prog w)
      (fun a value => R w value → a.Balances (start w value) (result w value) ∧ Q w value) .empty)
    (idle : ∀ w ∉ active, ∃ value, prog w = .done value) {c : Config I S α} (reach : M.Reach (Config.start s prog) c)
    {value : (w : W) → α w} (finished : ∀ w, c.prog w = .done (value w)) (fine : ∀ w ∈ active, R w (value w)) :
    sound c.shared ∧ (∀ w ∈ active, Q w (value w)) ∧
      held c.shared + ∑ w ∈ active, result w (value w) = held s + ∑ w ∈ active, start w (value w) := by
  have keeps' : ∀ w, Keeps (t.worker may learns active w) (prog w)
      (fun a value => w ∈ active → R w value → a.Balances (start w value) (result w value) ∧ Q w value) .empty := by
    intro w
    by_cases isActive : w ∈ active
    · have allows : ∀ (a : Account A) op, True → (t.discipline may learns).pre a op → (t.worker may learns active w).pre a op :=
        fun _ _ _ allowed => ⟨isActive,allowed⟩
      refine ((keeps w isActive).carry trivial allows (fun _ _ _ learned => learned) fun _ _ _ _ => ⟨rfl,trivial⟩).mono ?_
      exact fun a value both _ => both.2
    · obtain ⟨value,nothing⟩ := idle w isActive
      rw [nothing]
      exact fun active _ => absurd active isActive
  have started : Governed (t.worker may learns active) (Shared sound held active (held s)) (fun _ => .empty)
      (fun w a value => w ∈ active → R w value → a.Balances (start w value) (result w value) ∧ Q w value) (Config.start s prog) :=
    .start s prog ⟨isSound,by simp [Account.empty]⟩ keeps'
  have governed := started.reach (conserves.supports active (held s)) reach
  have ends := fun w isActive => governed.result (finished w) isActive (fine w isActive)
  obtain ⟨after,balanced⟩ := governed.related
  refine ⟨after,fun w isActive => (ends w isActive).2,?_⟩
  have workers : ∑ w ∈ active, result w (value w) + ∑ w ∈ active, ((t.worker may learns active w).history .empty (c.log w)).given =
      ∑ w ∈ active, start w (value w) + ∑ w ∈ active, ((t.worker may learns active w).history .empty (c.log w)).taken := by
    rw [← Finset.sum_add_distrib,← Finset.sum_add_distrib]
    exact Finset.sum_congr rfl fun w isActive => (ends w isActive).1
  generalize (∑ w ∈ active, ((t.worker may learns active w).history .empty (c.log w)).given) = given at balanced workers
  generalize (∑ w ∈ active, ((t.worker may learns active w).history .empty (c.log w)).taken) = taken at balanced workers
  refine add_right_cancel (b := given + taken) ?_
  calc held c.shared + ∑ w ∈ active, result w (value w) + (given + taken)
    _ = held c.shared + taken + (∑ w ∈ active, result w (value w) + given) := by abel
    _ = held s + ∑ w ∈ active, start w (value w) + (given + taken) := by rw [balanced,workers]; abel

end
end FlowSim.Lib
