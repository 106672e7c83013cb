import FlowSim.AheadPort.Sync

/-!
The producer's side of the readiness decisions. What a component has decided is a
partial map from cycles to decisions; the watermark and the dense array behind it stand
for that map in whatever order the decisions come.
-/
namespace FlowSim.AheadPort
set_option linter.unusedSimpArgs false

/-- The cycles that are decided, and how. -/
abbrev Decisions : Type := Nat → Option Bool

/-- Adds a decision; `none` when the cycle has the opposite one. -/
def Decisions.record (m : Decisions) (cycle : Nat) (ready : Bool) : Option Decisions :=
  if m cycle = some !ready then none else some (Function.update m cycle (some ready))

/-- A call of `UpdateReady`. -/
structure ReadyUpdate where
  cycle : Nat
  ready : Bool
deriving DecidableEq, Repr

def Decisions.recordAll (m : Decisions) (updates : List ReadyUpdate) : Option Decisions :=
  updates.foldlM (fun m update => m.record update.cycle update.ready) m

namespace ComponentSync

def updateReadyAll (cs : ComponentSync) (updates : List ReadyUpdate) : Option ComponentSync :=
  updates.foldlM (fun cs update => cs.updateReady update.cycle update.ready) cs

/-- The state answers for every cycle as the map does. -/
def Represents (cs : ComponentSync) (m : Decisions) : Prop :=
  ∀ cycle, cs.isReadyNonBlocking cycle = ((m cycle).isSome,(m cycle).getD false)

theorem represents_iff {cs : ComponentSync} {m : Decisions} : cs.Represents m ↔ cs.answer = m := by
  constructor
  · intro represents
    funext cycle
    have same := represents cycle
    rw [isReadyNonBlocking_eq] at same
    cases answer : cs.answer cycle with
    | none => cases decision : m cycle <;> simp_all
    | some ready => cases decision : m cycle <;> simp_all
  · rintro rfl cycle
    exact isReadyNonBlocking_eq cs cycle

/-- An update panics exactly when the map has the opposite decision, and otherwise
    represents the map with the decision added. -/
theorem updateReady_represents {cs : ComponentSync} {m : Decisions} (represents : cs.Represents m) (cycle : Nat)
    (ready : Bool) : Option.Rel Represents (cs.updateReady cycle ready) (m.record cycle ready) := by
  obtain rfl := represents_iff.mp represents
  unfold Decisions.record
  rcases decision : cs.answer cycle with _ | old
  · obtain ⟨cs',updated,_,answers⟩ := updateReady_undecided decision ready
    rw [updated,if_neg (by simp)]
    refine .some (represents_iff.mpr ?_)
    funext c
    rw [answers,Function.update_apply]
  · rw [updateReady_decided decision]
    by_cases same : ready = old
    · subst same
      rw [if_pos rfl,if_neg (by cases ready <;> simp)]
      refine .some (represents_iff.mpr ?_)
      rw [← decision,Function.update_eq_self]
    · rw [if_neg same,if_pos (by cases ready <;> cases old <;> simp_all)]
      exact .none

theorem updateReadyAll_represents : ∀ (updates : List ReadyUpdate) {cs : ComponentSync} {m : Decisions},
    cs.Represents m → Option.Rel Represents (cs.updateReadyAll updates) (m.recordAll updates)
  | [], _, _, represents => .some represents
  | update :: rest, cs, m, represents => by
    have one := updateReady_represents represents update.cycle update.ready
    unfold updateReadyAll Decisions.recordAll
    rw [List.foldlM_cons,List.foldlM_cons]
    rcases updated : cs.updateReady update.cycle update.ready with _ | cs'
    · rw [updated] at one
      rcases recorded : m.record update.cycle update.ready with _ | m'
      · exact .none
      · rw [recorded] at one
        cases one
    · rw [updated] at one
      rcases recorded : m.record update.cycle update.ready with _ | m'
      · rw [recorded] at one
        cases one
      · rw [recorded] at one
        cases one with
        | some represents' => exact updateReadyAll_represents rest represents'

end ComponentSync

/-- Without contradictions the map holds exactly the decisions it was given. -/
theorem Decisions.recordAll_apply {cycle : Nat} {ready : Bool} : ∀ {updates : List ReadyUpdate} {m m' : Decisions},
    m.recordAll updates = some m' → (m' cycle = some ready ↔ m cycle = some ready ∨ ⟨cycle,ready⟩ ∈ updates)
  | [], m, m', recorded => by
    obtain rfl := Option.some.inj recorded
    simp
  | update :: rest, m, m', recorded => by
    rw [recordAll,List.foldlM_cons] at recorded
    obtain ⟨m₁,one,others⟩ := Option.bind_eq_some_iff.mp recorded
    rw [recordAll_apply others]
    unfold record at one
    split at one
    · cases one
    · next agrees =>
      obtain rfl := Option.some.inj one
      obtain ⟨c,b⟩ := update
      rw [List.mem_cons,ReadyUpdate.mk.injEq,← or_assoc,Function.update_apply]
      by_cases here : cycle = c
      · subst here
        cases ready <;> cases b <;> simp_all
      · simp [here]

namespace ComponentSync

/-- However the updates of a new state are ordered, the state and the map of the decisions
    panic at the same update or not at all, the state answers as the map does, and the next
    update panics exactly when the opposite decision was among the earlier ones. -/
theorem updates_represent_decisions (updates : List ReadyUpdate) :
    Option.Rel Represents (newComponentSync.updateReadyAll updates) (Decisions.recordAll (fun _ => none) updates) ∧
    ∀ cs, newComponentSync.updateReadyAll updates = some cs → ∀ cycle ready,
      (cs.isReadyNonBlocking cycle = (true,ready) ↔ ⟨cycle,ready⟩ ∈ updates) ∧
      (cs.updateReady cycle ready = none ↔ ⟨cycle,!ready⟩ ∈ updates) := by
  have initially : newComponentSync.Represents (fun _ => none) := represents_iff.mpr (funext answer_new)
  have related := updateReadyAll_represents updates initially
  refine ⟨related,fun cs updated cycle ready => ?_⟩
  rw [updated] at related
  rcases recorded : Decisions.recordAll (fun _ => none) updates with _ | m
  · rw [recorded] at related
    cases related
  · rw [recorded] at related
    obtain represents : cs.Represents m := by
      cases related with
      | some represents => exact represents
    have given : ∀ b, m cycle = some b ↔ ⟨cycle,b⟩ ∈ updates := by
      intro b
      rw [Decisions.recordAll_apply recorded]
      simp
    refine ⟨?_,?_⟩
    · rw [represents cycle,← given]
      cases m cycle <;> simp
    · rw [← given]
      have next := updateReady_represents represents cycle ready
      unfold Decisions.record at next
      split at next
      · next contradicts =>
        rw [contradicts,iff_true_right rfl]
        cases next' : cs.updateReady cycle ready with
        | none => rfl
        | some cs' =>
          rw [next'] at next
          cases next
      · next agrees =>
        rw [iff_false_right agrees]
        intro panics
        rw [panics] at next
        cases next

/-- A refusal of cycle 3 ahead of the promises of cycles 0 and 1 stands. -/
theorem updates_represent_decisions_ahead :
    ∃ cs, newComponentSync.updateReadyAll [⟨3,false⟩,⟨1,true⟩,⟨0,true⟩,⟨3,false⟩] = some cs ∧
      cs.isReadyNonBlocking 3 = (true,false) ∧ cs.updateReady 3 true = none := by
  obtain ⟨_,decided⟩ := updates_represent_decisions [⟨3,false⟩,⟨1,true⟩,⟨0,true⟩,⟨3,false⟩]
  refine ⟨_,rfl,?_,?_⟩
  · exact (decided _ rfl 3 false).1.mpr (by decide)
  · exact (decided _ rfl 3 true).2.mpr (by decide)

end ComponentSync
end FlowSim.AheadPort
