import FlowSim.Directory.Eviction

/-!
What the home node records of a line that it grants: one more reader, or the only holder.
-/
namespace FlowSim.Chi
open FlowSim.Directory FullyAssociativeDirectory
set_option linter.unusedSimpArgs false

/-- Records a reader: the line is shared, and the reader is added unless it is known. -/
def recordShared (dir : FullyAssociativeDirectory) (victim addr : UInt64) (rnNodeID : Int) (add : Bool) :
    Option FullyAssociativeDirectory := do
  let (_,dir) ← dir.setState victim addr .shared
  if add then (dir.addSharer victim addr rnNodeID).map Prod.snd else some dir

/-- Records the only holder of a line. -/
def recordUnique (dir : FullyAssociativeDirectory) (victim addr : UInt64) (rnNodeID : Int) (state : Directory.State) :
    Option FullyAssociativeDirectory := do
  let (_,dir) ← (dir.clearSharers addr).addSharer victim addr rnNodeID
  (dir.setState victim addr state).map Prod.snd

/-! ### What is recorded then -/

section
variable {d d' d'' : FullyAssociativeDirectory} {victim addr : UInt64} {entry entry' : DirectoryEntry}
  {evicted : Option EvictedLine}

/-- The record of a line is set; if it had none in a full directory, that of the victim goes. -/
structure Rerecorded (d : FullyAssociativeDirectory) (victim addr : UInt64) (entry : DirectoryEntry)
    (d' : FullyAssociativeDirectory) : Prop where
  here : d'.find addr = some entry
  others : ∀ x ≠ addr, d'.find x = d.find x ∨ x = victim ∧ d.find addr = none ∧ d.Full

/-- Once a line has a record, setting it again takes no other away. -/
theorem Rerecorded.trans (first : Rerecorded d victim addr entry d') (second : Rerecorded d' victim addr entry' d'') :
    Rerecorded d victim addr entry' d'' where
  here := second.here
  others x other := by
    rcases second.others x other with same | ⟨-,none_there,-⟩
    · rw [same]
      exact first.others x other
    · cases first.here.symm.trans none_there

theorem rerecorded_allocate (absent : d.find addr = none) (allocated : d.allocate victim addr entry = some (evicted,d')) :
    Rerecorded d victim addr entry d' := by
  have replaces := replaces_allocate allocated
  refine ⟨by rw [replaces.find,if_pos rfl],fun x other => ?_⟩
  by_cases lost : evicted.any (fun line => line.addr = x) = true
  · right
    have given : evicted.isSome = true := by
      rcases evicted with _ | line
      · cases lost
      · rfl
    obtain ⟨⟨evicted,made⟩,room,rest⟩ := Option.bind_eq_some_iff.mp allocated
    cases rest
    refine ⟨?_,absent,(ensureCapacity_full room).1.mp given⟩
    unfold ensureCapacity at room
    split at room
    · cases room
      cases lost
    · split at room
      · cases room
      · cases room
        exact (of_decide_eq_true lost).symm
  · left
    rw [replaces.find,if_neg other,findAfter,if_neg lost]

variable (victim) in
theorem rerecorded_modify (change : DirectoryEntry → DirectoryEntry) (found : d.find addr = some entry) :
    Rerecorded d victim addr (change entry) (d.modify addr change) := by
  refine ⟨?_,fun x other => .inl ?_⟩
  · rw [find_modify,if_pos rfl,found]
    rfl
  · rw [find_modify,if_neg other]

theorem rerecorded_setState {state : State} (set : d.setState victim addr state = some (evicted,d')) :
    Rerecorded d victim addr ((d.find addr).elim (.allocated addr state [] (-1)) fun entry => { entry with state }) d' := by
  unfold setState at set
  split at set
  · next absent =>
    rw [absent]
    exact rerecorded_allocate absent set
  · next entry found =>
    cases set
    rw [found]
    exact rerecorded_modify victim (fun entry => { entry with state }) found

theorem rerecorded_addSharer {nodeID : Int} (added : d.addSharer victim addr nodeID = some (evicted,d')) :
    Rerecorded d victim addr (((d.find addr).getD (.allocated addr .shared [] (-1))).addSharer nodeID) d' := by
  unfold addSharer at added
  split at added
  · next absent =>
    rw [absent]
    exact rerecorded_allocate absent added
  · next entry found =>
    cases added
    rw [found]
    exact rerecorded_modify victim (fun entry => entry.addSharer nodeID) found

theorem mem_addSharer (entry : DirectoryEntry) (nodeID : Int) :
    nodeID ∈ (entry.addSharer nodeID).sharers ∧ ∀ id ∈ entry.sharers, id ∈ (entry.addSharer nodeID).sharers := by
  unfold DirectoryEntry.addSharer
  split_ifs with known
  · exact ⟨known,fun _ member => member⟩
  · exact ⟨List.mem_append_right _ (List.mem_singleton_self _),fun _ member => List.mem_append_left _ member⟩

/-- A reader is added to the sharers. -/
theorem recordShared_spec {rnNodeID : Int} {add : Bool} (recorded : recordShared d victim addr rnNodeID add = some d') :
    ∃ entry, Rerecorded d victim addr entry d' ∧ (∀ id ∈ d.getSharers addr, id ∈ entry.sharers) ∧
      (add = true → rnNodeID ∈ entry.sharers) := by
  obtain ⟨⟨evicted,set⟩,isSet,rest⟩ := Option.bind_eq_some_iff.mp recorded
  have first := rerecorded_setState isSet
  have kept : ∀ id ∈ d.getSharers addr, id ∈ ((d.find addr).elim (DirectoryEntry.allocated addr .shared [] (-1))
      fun entry => { entry with state := .shared }).sharers := by
    intro id member
    rcases found : d.find addr with _ | entry
    · rw [getSharers,found] at member
      cases member
    · rw [getSharers,found] at member
      exact member
  dsimp only at rest
  split_ifs at rest with adds
  · obtain ⟨⟨evicted',d''⟩,added,rfl⟩ := Option.map_eq_some_iff.mp rest
    have second := rerecorded_addSharer added
    rw [first.here] at second
    exact ⟨_,first.trans second,fun id member => (mem_addSharer _ rnNodeID).2 id (kept id member),
      fun _ => (mem_addSharer _ rnNodeID).1⟩
  · obtain rfl := Option.some.inj rest
    exact ⟨_,first,kept,fun add => absurd add adds⟩

/-- The only holder is the only sharer. -/
theorem recordUnique_spec {rnNodeID : Int} {state : State} (recorded : recordUnique d victim addr rnNodeID state = some d') :
    ∃ entry, Rerecorded d victim addr entry d' ∧ entry.sharers = [rnNodeID] ∧ entry.state = state := by
  obtain ⟨⟨evicted,added⟩,isAdded,rest⟩ := Option.bind_eq_some_iff.mp recorded
  obtain ⟨⟨evicted',d''⟩,isSet,rfl⟩ := Option.map_eq_some_iff.mp rest
  have second := rerecorded_addSharer isAdded
  have third := rerecorded_setState isSet
  rw [second.here] at third
  rcases found : d.find addr with _ | entry
  · have same : d.clearSharers addr = d := by
      unfold clearSharers FullyAssociativeDirectory.modify
      split
      · rfl
      · next there => cases found.symm.trans there
    rw [same] at second third
    rw [found] at third
    exact ⟨_,second.trans third,rfl,rfl⟩
  · have first := rerecorded_modify victim DirectoryEntry.clearSharers found
    have cleared : (d.clearSharers addr).find addr = some entry.clearSharers := first.here
    rw [cleared] at second third
    exact ⟨_,(first.trans second).trans third,rfl,rfl⟩

end

end FlowSim.Chi
