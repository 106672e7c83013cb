import FlowSim.Directory.FullyAssociative
import FlowSim.Lib.Transition

/-!
When the directory gives up an entry. `Watched` carries, next to the directory, what its
callback was told. Only a request for a line whose entry is in state NotPresent makes room
for an entry that the directory has already (`evicts_for_absent_iff`).
-/
namespace FlowSim.Directory
open FlowSim.Lib
set_option linter.unusedSimpArgs false

/-- The operations that may change the directory. -/
inductive EntryOp where
  | setState (state : State)
  | addSharer (nodeID : Int)
  | removeSharer (nodeID : Int)
  | clearSharers
  | setOwner (nodeID : Int)
  | handleMESIRequest (requesterID : Int) (isWrite : Bool)
deriving DecidableEq, Repr

/-- An operation on a line, and the entry to give up if it has to make room. -/
structure EntryCall where
  victim : UInt64
  addr : UInt64
  op : EntryOp
deriving DecidableEq, Repr

namespace FullyAssociativeDirectory

/-- The directory has no room for another entry. -/
def Full (d : FullyAssociativeDirectory) : Prop := d.capacity ≤ d.entries.keys.length

instance (d : FullyAssociativeDirectory) : Decidable d.Full := inferInstanceAs (Decidable (_ ≤ _))

def perform (d : FullyAssociativeDirectory) (call : EntryCall) : Option (Option EvictedLine × FullyAssociativeDirectory) :=
  match call.op with
  | .setState state => d.setState call.victim call.addr state
  | .addSharer nodeID => d.addSharer call.victim call.addr nodeID
  | .removeSharer nodeID => some (none,d.removeSharer call.addr nodeID)
  | .clearSharers => some (none,d.clearSharers call.addr)
  | .setOwner nodeID => d.setOwner call.victim call.addr nodeID
  | .handleMESIRequest requesterID isWrite =>
    (d.handleMESIRequest call.victim call.addr requesterID isWrite).map fun (evicted,_,d) => (evicted,d)

/-- The operation makes room for an entry, by the entry it finds. -/
def MakesRoom (op : EntryOp) (found : Option DirectoryEntry) : Prop :=
  match op with
  | .removeSharer _ | .clearSharers => False
  | .setState _ | .addSharer _ | .setOwner _ => found = none
  | .handleMESIRequest _ _ => ∀ entry ∈ found, entry.state = .notPresent

/-- The operation is a request that finds an entry in state NotPresent. -/
def Refills (op : EntryOp) (found : Option DirectoryEntry) : Prop :=
  match op with
  | .handleMESIRequest _ _ => ∃ entry ∈ found, entry.state = .notPresent
  | _ => False

/-! ### One operation -/

section
variable {d d' : FullyAssociativeDirectory} {evicted : Option EvictedLine} {victim addr : UInt64} {entry : DirectoryEntry}
  {call : EntryCall}

theorem capacity_modify (d : FullyAssociativeDirectory) (addr : UInt64) (change : DirectoryEntry → DirectoryEntry) :
    (d.modify addr change).capacity = d.capacity := by
  unfold modify
  split <;> rfl

/-- A line is given up exactly when the directory is full. -/
theorem ensureCapacity_full {made : { d : FullyAssociativeDirectory // d.entries.keys.length < d.capacity }}
    (room : d.ensureCapacity victim = some (evicted,made)) :
    (evicted.isSome = true ↔ d.Full) ∧ made.val.capacity = d.capacity := by
  unfold ensureCapacity at room
  unfold Full
  split at room
  · next few =>
    cases room
    exact ⟨iff_of_false (by simp) (by omega),rfl⟩
  · next full =>
    split at room
    · cases room
    · cases room
      exact ⟨iff_of_true rfl (by omega),rfl⟩

/-- How an operation that makes room leaves the directory. -/
structure Inserted (d : FullyAssociativeDirectory) (addr : UInt64) (evicted : Option EvictedLine)
    (d' : FullyAssociativeDirectory) : Prop where
  full : evicted.isSome = true ↔ d.Full
  replaces : ∃ entry, d.Replaces evicted addr (some entry) d'

/-- How an operation that changes an entry, if there is one, leaves the directory. -/
structure Changed (d : FullyAssociativeDirectory) (addr : UInt64) (evicted : Option EvictedLine)
    (d' : FullyAssociativeDirectory) : Prop where
  nothing : evicted = none
  replaces : ∃ change, d.Replaces none addr ((d.find addr).map change) d'

theorem allocate_cases (allocated : d.allocate victim addr entry = some (evicted,d')) :
    d'.capacity = d.capacity ∧ d.Inserted addr evicted d' := by
  have replaces := replaces_allocate allocated
  obtain ⟨⟨line,made⟩,room,rest⟩ := Option.bind_eq_some_iff.mp allocated
  cases rest
  obtain ⟨full,capacity⟩ := ensureCapacity_full room
  exact ⟨capacity,full,_,replaces⟩

theorem changed_modify (change : DirectoryEntry → DirectoryEntry) :
    (d.modify addr change).capacity = d.capacity ∧ d.Changed addr none (d.modify addr change) :=
  ⟨d.capacity_modify addr change,rfl,_,d.replaces_modify addr change⟩

/-- Setting the entry of a line that has none, or changing the one it has. -/
theorem setOrChange_cases {change : DirectoryEntry → DirectoryEntry}
    (performed : (match d.find addr with
      | none => d.allocate victim addr entry
      | some _ => some (none,d.modify addr change)) = some (evicted,d')) :
    d'.capacity = d.capacity ∧
      (d.find addr = none ∧ d.Inserted addr evicted d' ∨ d.find addr ≠ none ∧ d.Changed addr evicted d') := by
  split at performed
  · next absent =>
    obtain ⟨capacity,inserted⟩ := allocate_cases performed
    exact ⟨capacity,.inl ⟨absent,inserted⟩⟩
  · next old found =>
    cases performed
    obtain ⟨capacity,changed⟩ := @changed_modify d addr change
    exact ⟨capacity,.inr ⟨by rw [found]; exact Option.some_ne_none _,changed⟩⟩

theorem handleMESIRequest_cases {requesterID : Int} {isWrite : Bool} {action : MESIAction}
    (handled : d.handleMESIRequest victim addr requesterID isWrite = some (evicted,action,d')) :
    d'.capacity = d.capacity ∧
      ((∀ entry ∈ d.find addr, entry.state = .notPresent) ∧ d.Inserted addr evicted d' ∨
        (¬ ∀ entry ∈ d.find addr, entry.state = .notPresent) ∧ d.Changed addr evicted d') := by
  have first : ∀ {evicted action d'}, d.handleFirst victim addr requesterID isWrite = some (evicted,action,d') →
      d'.capacity = d.capacity ∧ d.Inserted addr evicted d' := by
    intro evicted action d' handled
    obtain ⟨⟨line,made⟩,allocated,rest⟩ := Option.bind_eq_some_iff.mp handled
    cases rest
    exact allocate_cases allocated
  unfold handleMESIRequest at handled
  split at handled
  · next absent =>
    obtain ⟨capacity,inserted⟩ := first handled
    exact ⟨capacity,.inl ⟨by simp [absent],inserted⟩⟩
  · next entry found =>
    split at handled
    · next nothing =>
      obtain ⟨capacity,inserted⟩ := first handled
      exact ⟨capacity,.inl ⟨by simp [found,nothing],inserted⟩⟩
    · next recorded =>
      cases handled
      obtain ⟨capacity,changed⟩ := @changed_modify d addr fun _ => (entry.request requesterID isWrite).2
      exact ⟨capacity,.inr ⟨by simpa [found] using recorded,changed⟩⟩

/-- What an operation gives up and leaves: either it makes room and sets the entry of its
    line, or it changes that entry alone. -/
theorem perform_cases (performed : d.perform call = some (evicted,d')) :
    d'.capacity = d.capacity ∧
      (MakesRoom call.op (d.find call.addr) ∧ d.Inserted call.addr evicted d' ∨
        ¬ MakesRoom call.op (d.find call.addr) ∧ d.Changed call.addr evicted d') := by
  obtain ⟨victim,addr,op⟩ := call
  cases op with
  | setState state => exact setOrChange_cases performed
  | addSharer nodeID => exact setOrChange_cases performed
  | setOwner nodeID => exact setOrChange_cases performed
  | removeSharer nodeID =>
    cases performed
    obtain ⟨capacity,changed⟩ := @changed_modify d addr fun entry => entry.removeSharer nodeID
    exact ⟨capacity,.inr ⟨id,changed⟩⟩
  | clearSharers =>
    cases performed
    obtain ⟨capacity,changed⟩ := @changed_modify d addr DirectoryEntry.clearSharers
    exact ⟨capacity,.inr ⟨id,changed⟩⟩
  | handleMESIRequest requesterID isWrite =>
    obtain ⟨⟨line,action,after⟩,handled,rest⟩ := Option.map_eq_some_iff.mp performed
    cases rest
    exact handleMESIRequest_cases handled

end
end FullyAssociativeDirectory

/-! ### Runs -/

/-- The directory, and the lines that the callback was told of, oldest first. -/
structure Watched where
  dir : FullyAssociativeDirectory
  reports : List EvictedLine

namespace Watched
open FullyAssociativeDirectory

def start (capacity : Int) : Watched := { dir := .newFullyAssociativeDirectory capacity, reports := [] }

/-- An operation; `none` when the entry to give up is no entry, which is no choice of the code. -/
def step (s : Watched) (call : EntryCall) : Option Watched :=
  (s.dir.perform call).map fun (evicted,dir) => { dir, reports := s.reports ++ evicted.toList }

/-- What is promised of an operation: the directory keeps within its capacity; at most one
    line is given up, which was an entry and is told as it was; a line that has lost its
    entry was told; and a line is given up only to insert an absent one into a full directory. -/
structure Evicts (s : Watched) (call : EntryCall) (s' : Watched) : Prop where
  size : s'.dir.entries.keys.length ≤ s'.dir.capacity ∧ s'.dir.capacity = s.dir.capacity
  told : ∃ evicted : Option EvictedLine, s'.reports = s.reports ++ evicted.toList ∧ s.dir.GivesUp evicted ∧
    ∀ x, s.dir.find x ≠ none → s'.dir.find x = none → ∃ line ∈ evicted, line.addr = x
  absent : s'.reports ≠ s.reports → s.dir.find call.addr = none ∧ s.dir.Full ∧ s'.dir.find call.addr ≠ none

/-- The operation is no request that finds an entry in state NotPresent in a full directory. -/
def Keeps (s : Watched) (call : EntryCall) : Prop := ¬ (Refills call.op (s.dir.find call.addr) ∧ s.dir.Full)

section
variable {s s' : Watched} {call : EntryCall}

theorem replaces_lost {d d' : FullyAssociativeDirectory} {evicted : Option EvictedLine} {addr x : UInt64}
    {entry : Option DirectoryEntry} (replaces : d.Replaces evicted addr entry d') (kept : x = addr → entry ≠ none)
    (found : d.find x ≠ none) (lost : d'.find x = none) : ∃ line ∈ evicted, line.addr = x := by
  rw [replaces.find] at lost
  split at lost
  · next here => exact absurd lost (kept here)
  · unfold findAfter at lost
    split at lost
    · next given =>
      rcases evicted with _ | line
      · cases given
      · exact ⟨line,rfl,of_decide_eq_true given⟩
    · exact absurd lost found

/-- A request that finds an entry in state NotPresent is the one operation that makes room
    for an entry that is there. -/
theorem refills_iff (op : EntryOp) (found : Option DirectoryEntry) : Refills op found ↔ MakesRoom op found ∧ found ≠ none := by
  cases op with
  | handleMESIRequest requesterID isWrite =>
    unfold Refills MakesRoom
    cases found with
    | none => simp
    | some entry => simp
  | removeSharer nodeID => exact iff_of_false id fun both => both.1
  | clearSharers => exact iff_of_false id fun both => both.1
  | setState state => exact iff_of_false id fun both => both.2 both.1
  | addSharer nodeID => exact iff_of_false id fun both => both.2 both.1
  | setOwner nodeID => exact iff_of_false id fun both => both.2 both.1

theorem evicts_iff (stepped : s.step call = some s') : s.Evicts call s' ↔ s.Keeps call := by
  obtain ⟨⟨evicted,dir⟩,performed,rfl⟩ := Option.map_eq_some_iff.mp stepped
  have same : s.reports ++ evicted.toList ≠ s.reports ↔ evicted.isSome = true := by
    cases evicted <;> simp
  unfold Keeps
  rw [refills_iff]
  obtain ⟨capacity,⟨room,full,entry,replaces⟩ | ⟨noRoom,nothing,change,replaces⟩⟩ := perform_cases performed
  · constructor
    · rintro evicts ⟨⟨_,found⟩,isFull⟩
      exact found (evicts.absent (same.mpr (full.mpr isFull))).1
    · intro keeps
      refine ⟨⟨dir.size_le,capacity⟩,⟨evicted,rfl,replaces.givesUp,fun x => replaces_lost replaces ?_⟩,fun reported => ?_⟩
      · exact fun _ => Option.some_ne_none entry
      · have isFull := full.mp (same.mp reported)
        refine ⟨?_,isFull,?_⟩
        · by_contra found
          exact keeps ⟨⟨room,found⟩,isFull⟩
        · show dir.find call.addr ≠ none
          rw [replaces.find,if_pos rfl]
          exact Option.some_ne_none entry
  · subst nothing
    refine iff_of_true ⟨⟨dir.size_le,capacity⟩,⟨none,rfl,replaces.givesUp,fun x found => replaces_lost replaces ?_ found⟩,?_⟩ ?_
    · rintro rfl absent
      exact found (Option.map_eq_none_iff.mp absent)
    · exact fun reported => absurd (same.mp reported) (by simp)
    · exact fun both => noRoom both.1.1

end

/-- For every capacity and all operations, whatever entries are given up: all operations of a
    run keep the promise exactly when no request finds an entry in state NotPresent in a full
    directory. -/
theorem evicts_for_absent_iff (capacity : Int) (calls : List EntryCall) :
    (start capacity).dir.entries.keys.length ≤ (start capacity).dir.capacity ∧
    ((∀ taken ∈ trace Watched.step (start capacity) calls, taken.1.Evicts taken.2.1 taken.2.2) ↔
      ∀ taken ∈ trace Watched.step (start capacity) calls, taken.1.Keeps taken.2.1) :=
  ⟨(start capacity).dir.size_le,
    @trace_forall_iff _ _ Watched.step (fun _ => True) Evicts Keeps (fun _ stepped => evicts_iff stepped)
      (fun _ _ _ => trivial) _ _ trivial⟩

/-- Two lines are recorded in a directory with room for two, and the sharer of the first is
    removed: a request for the first line then gives up the second one. -/
theorem request_evicts_other : ∃ s s' : Watched, Reachable Watched.step (start 2) s ∧
    s.step ⟨6,5,.handleMESIRequest 2 false⟩ = some s' ∧ (s.dir.find 5).isSome = true ∧
    s'.reports = [⟨6,.exclusive,[2],-1⟩] ∧ ¬ s.Evicts ⟨6,5,.handleMESIRequest 2 false⟩ s' := by
  let before : List EntryCall := [⟨0,5,.addSharer 1⟩,⟨0,6,.addSharer 2⟩,⟨0,5,.removeSharer 1⟩]
  have ends : ((runActions Watched.step (fun _ _ => True) before (start 2)).bind fun s =>
      (s.step ⟨6,5,.handleMESIRequest 2 false⟩).map fun s' => ((s.dir.find 5).isSome,s.reports,s'.reports)) =
        some (true,[],[⟨6,.exclusive,[2],-1⟩]) := by decide +kernel
  obtain ⟨s,ran,last⟩ := Option.bind_eq_some_iff.mp ends
  obtain ⟨s',stepped,all⟩ := Option.map_eq_some_iff.mp last
  obtain ⟨found,both⟩ := Prod.mk.inj all
  obtain ⟨none_told,told⟩ := Prod.mk.inj both
  refine ⟨s,s',reaches_runActions before ran,stepped,found,told,fun evicts => ?_⟩
  have absent := (evicts.absent (by rw [told,none_told]; simp)).1
  rw [absent] at found
  cases found

end Watched
end FlowSim.Directory
