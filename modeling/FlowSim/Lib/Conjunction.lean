import FlowSim.Lib.Interleave

/-!
Two disciplines at once. A program that keeps each of them keeps both, and what supports each
of them supports both.
-/
namespace FlowSim.Lib
set_option linter.unusedSimpArgs false

section
variable {I : Interface} {G G' α : Type}

/-- What two disciplines ask for together, each with a history of its own. -/
def Discipline.both (D : Discipline I G) (D' : Discipline I G') : Discipline I (G × G') where
  pre g op := D.pre g.1 op ∧ D'.pre g.2 op
  post g op answer := D.post g.1 op answer ∧ D'.post g.2 op answer
  grow g op answer := (D.grow g.1 op answer,D'.grow g.2 op answer)

/-- A worker that issues nothing. -/
def Discipline.silent : Discipline I G where
  pre _ _ := False
  post _ _ _ := True
  grow g _ _ := g

variable {D : Discipline I G} {D' : Discipline I G'}

/-- A program that ends with either of two postconditions ends with both. -/
theorem Keeps.and {p : Prog I α} {Q Q' : G → α → Prop} {g : G} (first : Keeps D p Q g) (second : Keeps D p Q' g) :
    Keeps D p (fun g value => Q g value ∧ Q' g value) g := by
  induction p generalizing g with
  | done value => exact ⟨first,second⟩
  | call op next ih => exact ⟨first.1,fun answer learned => ih answer (first.2 answer learned) (second.2 answer learned)⟩

theorem Keeps.both {p : Prog I α} {Q : G → α → Prop} {Q' : G' → α → Prop} {g : G} {g' : G'} (first : Keeps D p Q g)
    (second : Keeps D' p Q' g') : Keeps (D.both D') p (fun g value => Q g.1 value ∧ Q' g.2 value) (g,g') := by
  induction p generalizing g g' with
  | done value => exact ⟨first,second⟩
  | call op next ih =>
    exact ⟨⟨first.1,second.1⟩,fun answer learned => ih answer (first.2 answer learned.1) (second.2 answer learned.2)⟩

end

section
variable {I : Interface} {S W : Type} {G G' : Type} [DecidableEq W] {M : Machine I S}
  {D : W → Discipline I G} {D' : W → Discipline I G'} {J : S → (W → G) → Prop} {J' : S → (W → G') → Prop}

theorem Supports.both (first : Supports M D J) (second : Supports M D' J') :
    Supports M (fun w => (D w).both (D' w)) fun s g => J s (fun w => (g w).1) ∧ J' s fun w => (g w).2 where
  again := by
    rintro s g w op s' ⟨related,related'⟩ ⟨allowed,allowed'⟩ outcome
    exact ⟨first.again w op related allowed outcome,second.again w op related' allowed' outcome⟩
  done := by
    rintro s g w op answer s' ⟨related,related'⟩ ⟨allowed,allowed'⟩ outcome
    obtain ⟨learned,after⟩ := first.done w op related allowed outcome
    obtain ⟨learned',after'⟩ := second.done w op related' allowed' outcome
    refine ⟨⟨learned,learned'⟩,cast (congrArg _ (funext fun v => ?_)) after,cast (congrArg _ (funext fun v => ?_)) after'⟩
    · exact (Function.apply_update (fun _ => Prod.fst) g w (((D w).both (D' w)).grow (g w) op answer) v).symm
    · exact (Function.apply_update (fun _ => Prod.snd) g w (((D w).both (D' w)).grow (g w) op answer) v).symm

end
end FlowSim.Lib
