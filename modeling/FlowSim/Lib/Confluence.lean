import FlowSim.Lib.Interleave

/-!
Workers whose operations do not disturb each other. When steps of different
workers commute, all schedules that bring every worker to its end bring the
system to the same end: the same results, the same answers to every operation
and the same shared state.
-/
namespace FlowSim.Lib
set_option linter.unusedSimpArgs false

section
variable {I : Interface} {S W : Type} {α : W → Type} [DecidableEq W]

/-- Two operations that can both finish now can finish one after the other, with
    the same answers and the same state in the end. -/
def Machine.Independent (M : Machine I S) (s : S) (op₁ op₂ : I.Op) : Prop :=
  ∀ {answer₁ answer₂ s₁ s₂}, M.exec s op₁ = .done answer₁ s₁ → M.exec s op₂ = .done answer₂ s₂ →
    ∃ s', M.exec s₁ op₂ = .done answer₂ s' ∧ M.exec s₂ op₁ = .done answer₁ s'

/-- No operation has to go on. -/
def Machine.Immediate (M : Machine I S) : Prop := ∀ s op s', M.exec s op ≠ .again s'

variable {M : Machine I S}

/-- A step of an immediate machine finishes an operation. -/
theorem Machine.Immediate.step_cases (immediate : M.Immediate) {w : W} {c c' : Config I S α}
    (stepped : M.step w c = some c') :
    ∃ op next answer shared, c.prog w = .call op next ∧ M.exec c.shared op = .done answer shared ∧
      c' = { shared, prog := Function.update c.prog w (next answer),
             log := Function.update c.log w (c.log w ++ [⟨op,answer⟩]) } := by
  obtain ⟨op,next,isCall,outcome⟩ := Machine.step_cases stepped
  rcases outcome with ⟨shared,outcome,_⟩ | ⟨answer,shared,outcome,same⟩
  · exact absurd outcome (immediate c.shared op shared)
  · exact ⟨op,next,answer,shared,isCall,outcome,same⟩

/-- Steps of different workers commute when the operations they are at do. -/
theorem Machine.Immediate.diamond (immediate : M.Immediate) {w v : W} (different : w ≠ v) {c c₁ c₂ : Config I S α}
    (independent : ∀ {op₁ next₁ op₂ next₂}, c.prog w = .call op₁ next₁ → c.prog v = .call op₂ next₂ →
      M.Independent c.shared op₁ op₂)
    (first : M.step w c = some c₁) (second : M.step v c = some c₂) :
    ∃ d, M.step v c₁ = some d ∧ M.step w c₂ = some d := by
  obtain ⟨op₁,next₁,answer₁,s₁,isCall₁,outcome₁,rfl⟩ := immediate.step_cases first
  obtain ⟨op₂,next₂,answer₂,s₂,isCall₂,outcome₂,rfl⟩ := immediate.step_cases second
  obtain ⟨s',after₁,after₂⟩ := independent isCall₁ isCall₂ outcome₁ outcome₂
  have still₁ : Function.update c.prog v (next₂ answer₂) w = .call op₁ next₁ :=
    (Function.update_of_ne different _ _).trans isCall₁
  have still₂ : Function.update c.prog w (next₁ answer₁) v = .call op₂ next₂ :=
    (Function.update_of_ne different.symm _ _).trans isCall₂
  refine ⟨_,Machine.step_done still₂ after₁,?_⟩
  rw [Machine.step_done still₁ after₂]
  simp only [Function.update_of_ne different,Function.update_of_ne different.symm]
  rw [Function.update_comm different,Function.update_comm different]

/-- A worker that has finished does not step. -/
theorem Machine.step_finished {w : W} {c : Config I S α} (finished : c.Finished w) : M.step w c = none := by
  obtain ⟨value,isDone⟩ := finished
  simp only [Machine.step,isDone]

/-- When operations of different workers are independent in all configurations
    with the invariant `P`, the end does not depend on the schedule. -/
theorem Machine.Immediate.finished_unique (immediate : M.Immediate) {P : Config I S α → Prop}
    (kept : ∀ {c c' : Config I S α} (w : W), P c → M.step w c = some c' → P c')
    (independent : ∀ {c : Config I S α} {w v : W} {op₁ next₁ op₂ next₂}, P c → w ≠ v →
      c.prog w = .call op₁ next₁ → c.prog v = .call op₂ next₂ → M.Independent c.shared op₁ op₂)
    {c₀ c₁ c₂ : Config I S α} (start : P c₀) (reach₁ : M.Reach c₀ c₁) (reach₂ : M.Reach c₀ c₂)
    (finished₁ : ∀ w, c₁.Finished w) (finished₂ : ∀ w, c₂.Finished w) : c₁ = c₂ := by
  -- one step that keeps the invariant, as a relation to which the Church-Rosser property applies
  let Step (c c' : Config I S α) : Prop := P c ∧ ∃ w, M.step w c = some c'
  have related : ∀ {c}, M.Reach c₀ c → P c ∧ Relation.ReflTransGen Step c₀ c := by
    intro c reach
    induction reach with
    | refl => exact ⟨start,.refl⟩
    | step _ w _ stepped ih => exact ⟨kept w ih.1 stepped,ih.2.tail ⟨ih.1,w,stepped⟩⟩
  have stuck : ∀ {c d}, (∀ w, c.Finished w) → Relation.ReflTransGen Step c d → c = d := by
    intro c d finished steps
    rcases Relation.ReflTransGen.cases_head steps with same | ⟨c',⟨_,w,stepped⟩,_⟩
    · exact same
    · exact absurd stepped (by simp [Machine.step_finished (finished w)])
  obtain ⟨d,to₁,to₂⟩ := Relation.church_rosser (r := Step) (fun c c₁ c₂ first second => by
    obtain ⟨holds,w,stepped₁⟩ := first
    obtain ⟨_,v,stepped₂⟩ := second
    by_cases same : w = v
    · subst same
      obtain rfl := Option.some.inj (stepped₁.symm.trans stepped₂)
      exact ⟨c₁,.refl,.refl⟩
    · obtain ⟨d,last₁,last₂⟩ := immediate.diamond same (independent holds same) stepped₁ stepped₂
      exact ⟨d,.single ⟨kept w holds stepped₁,v,last₁⟩,.single ⟨kept v holds stepped₂,w,last₂⟩⟩)
    (related reach₁).2 (related reach₂).2
  exact (stuck finished₁ to₁).trans (stuck finished₂ to₂).symm

end
end FlowSim.Lib
