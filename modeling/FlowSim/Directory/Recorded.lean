import FlowSim.Directory.SingleWriter

/-!
All operations of the directory mixed. `Recorded` carries, next to the directory,
the caches that were recorded for a line and have not left it since. They stay
recorded, under every operation of a run, exactly when each operation meets the
condition `Harmless` on the entry it finds (`never_lost_iff`).
-/
namespace FlowSim.Directory
open FlowSim.Lib
set_option linter.unusedSimpArgs false

/-- The id of a cache, which is not the value for no owner. -/
abbrev CacheID := { nodeID : Int // nodeID ≠ -1 }

inductive DirectoryOp where
  | addSharer (nodeID : CacheID)
  | removeSharer (nodeID : CacheID)
  | setOwner (nodeID : Int)
  | clearSharers
  | handleMESIRequest (requesterID : CacheID) (isWrite : Bool)
deriving DecidableEq

/-- An operation on a line, and the entry to give up if it has to allocate. -/
structure Call where
  victim : UInt64
  addr : UInt64
  op : DirectoryOp
deriving DecidableEq

structure Recorded where
  dir : FullyAssociativeDirectory
  live : Holders

namespace Recorded

def start (capacity : Int) : Recorded where
  dir := .newFullyAssociativeDirectory capacity
  live _ := ∅

/-- The live caches of the line an operation is about, given its entry before: a
    cache leaves when it is removed, cleared, invalidated or given up as owner. -/
def liveAfter (op : DirectoryOp) (found : Option DirectoryEntry) (action : MESIAction) (live : Finset Int) : Finset Int :=
  match op with
  | .addSharer nodeID => insert nodeID.val live
  | .removeSharer nodeID => live.erase nodeID.val
  | .setOwner nodeID => if nodeID = -1 then live.erase ((found.map DirectoryEntry.owner).getD (-1)) else insert nodeID live
  | .clearSharers => ∅
  | .handleMESIRequest requesterID _ => heldAfter live requesterID.val action

/-- What an operation of the directory returns: the line given up, the action of a
    request, and the directory. -/
def perform (d : FullyAssociativeDirectory) (c : Call) :
    Option (Option EvictedLine × MESIAction × FullyAssociativeDirectory) :=
  match c.op with
  | .addSharer nodeID => (d.addSharer c.victim c.addr nodeID.val).map (fun (line,d) => (line,.noAction,d))
  | .removeSharer nodeID => some (none,.noAction,d.removeSharer c.addr nodeID.val)
  | .setOwner nodeID => (d.setOwner c.victim c.addr nodeID).map (fun (line,d) => (line,.noAction,d))
  | .clearSharers => some (none,.noAction,d.clearSharers c.addr)
  | .handleMESIRequest requesterID isWrite => d.handleMESIRequest c.victim c.addr requesterID.val isWrite

def call (s : Recorded) (c : Call) : Option Recorded := do
  let (line,action,dir) ← perform s.dir c
  let live := s.live.lose line
  return { dir, live := Function.update live c.addr (liveAfter c.op (s.dir.find c.addr) action (live c.addr)) }

end Recorded

/-! ### What is promised -/

/-- The live caches of a line are recorded, and the line is then present; an entry
    in state Exclusive or Modified names an owner. -/
def EntryIntact (live : Finset Int) : Option DirectoryEntry → Prop
  | none => live = ∅
  | some entry => live ⊆ entry.recorded ∧ (live.Nonempty → entry.state ≠ .notPresent) ∧
      (entry.state = .exclusive ∨ entry.state = .modified → entry.owner ≠ -1)

def Intact (s : Recorded) : Prop := ∀ x, EntryIntact (s.live x) (s.dir.find x)

/-- The handler takes a forwarder from the entry: its owner, or a sharer. -/
def NamesForwarder (requesterID : Int) : Option DirectoryEntry → Prop
  | none => False
  | some entry =>
    match entry.state with
    | .notPresent => False
    | .exclusive | .modified => entry.owner ≠ requesterID
    | .shared => requesterID ∉ entry.sharers ∧ entry.sharers ≠ []

/-- The removal of a cache that does not hold the line changes nothing, and what a
    request takes from the entry is a cache. -/
def CallOk (s : Recorded) (c : Call) (s' : Recorded) : Prop :=
  match c.op with
  | .removeSharer nodeID => nodeID.val ∉ s.live c.addr → ∀ x, s'.dir.find x = s.dir.find x
  | .handleMESIRequest requesterID isWrite =>
    ∀ line action dir, s.dir.handleMESIRequest c.victim c.addr requesterID.val isWrite = some (line,action,dir) →
      -1 ∉ action.invalidateList ∧ (NamesForwarder requesterID.val (s.dir.find c.addr) → action.forwarderID ≠ -1)
  | _ => True

/-- When an operation loses no cache, by the entry it finds and the live caches. -/
def Harmless (live : Finset Int) : DirectoryOp → Option DirectoryEntry → Prop
  | .addSharer _, none => False
  | .addSharer nodeID, some entry =>
    (nodeID.val ∈ entry.sharers → entry.state ≠ .notPresent) ∧ (entry.sharers = [] → entry.owner ≠ -1)
  | .removeSharer nodeID, some entry =>
    (nodeID.val ∉ live → nodeID.val ∉ entry.sharers ∧ entry.state = DirectoryEntry.stateFor entry.sharers) ∧
      (entry.sharers.filter (fun id => id ≠ nodeID.val) = [] → live ⊆ {nodeID.val}) ∧
      ((entry.sharers.filter (fun id => id ≠ nodeID.val)).length = 1 → entry.owner ≠ -1)
  | .setOwner nodeID, none => nodeID ≠ -1
  | .setOwner nodeID, some entry =>
    if nodeID = -1 then live ⊆ {entry.owner}
    else live ⊆ insert nodeID entry.sharers.toFinset ∧ (entry.sharers = [] ∨ entry.state ≠ .notPresent)
  | .handleMESIRequest requesterID isWrite, some entry =>
    match entry.state with
    | .notPresent => True
    | .exclusive => entry.owner = requesterID.val ∨ live ⊆ {entry.owner,requesterID.val}
    | .modified => entry.owner = requesterID.val ∨ isWrite = true ∨ live ⊆ {entry.owner,requesterID.val}
    | .shared => isWrite = true → live ⊆ insert requesterID.val entry.sharers.toFinset
  | _, _ => True

/-! ### One entry -/

section
variable {live : Finset Int} {entry : DirectoryEntry}

/-- What holds of an entry before an operation. -/
def EntrySound (live : Finset Int) (found : Option DirectoryEntry) : Prop :=
  EntryIntact live found ∧ -1 ∉ live ∧ ∀ entry ∈ found, -1 ∉ entry.sharers

theorem entryIntact_addSharer (sound : EntrySound live (some entry)) (nodeID : CacheID) :
    EntryIntact (insert nodeID.val live) (some (entry.addSharer nodeID.val)) ↔
      Harmless live (.addSharer nodeID) (some entry) := by
  obtain ⟨addr,state,sharers,owner⟩ := entry
  obtain ⟨⟨named,present,owned⟩,_⟩ := sound
  by_cases sharer : nodeID.val ∈ sharers
  · have nonempty : sharers ≠ [] := List.ne_nil_of_mem sharer
    have still : insert nodeID.val live ⊆ DirectoryEntry.recorded ⟨addr,state,sharers,owner⟩ :=
      Finset.insert_subset (by simp [DirectoryEntry.recorded,sharer]) named
    simp only [DirectoryEntry.addSharer,sharer,↓reduceIte,EntryIntact,Harmless,nonempty,false_implies,and_true,
      true_implies]
    exact ⟨fun intact => intact.2.1 (Finset.insert_nonempty ..),fun here => ⟨still,fun _ => here,owned⟩⟩
  · have grown : insert nodeID.val live ⊆ insert owner (sharers ++ [nodeID.val]).toFinset := by
      intro id member
      have old := @named id
      simp [DirectoryEntry.recorded] at old member ⊢
      tauto
    rcases sharers with _ | ⟨first,rest⟩
    · simp only [DirectoryEntry.addSharer,EntryIntact,Harmless,DirectoryEntry.recorded]
      simpa using fun _ => grown
    · simp only [DirectoryEntry.addSharer,EntryIntact,Harmless,DirectoryEntry.recorded]
      simpa [sharer] using grown

theorem entryIntact_removeSharer (sound : EntrySound live (some entry)) (nodeID : CacheID) :
    EntryIntact (live.erase nodeID.val) (some (entry.removeSharer nodeID.val)) ∧
        (nodeID.val ∉ live → entry.removeSharer nodeID.val = entry) ↔
      Harmless live (.removeSharer nodeID) (some entry) := by
  obtain ⟨addr,state,sharers,owner⟩ := entry
  obtain ⟨⟨named,present,owned⟩,_⟩ := sound
  have same : DirectoryEntry.removeSharer ⟨addr,state,sharers,owner⟩ nodeID.val = ⟨addr,state,sharers,owner⟩ ↔
      nodeID.val ∉ sharers ∧ state = DirectoryEntry.stateFor sharers := by
    have kept : sharers.filter (fun id => id ≠ nodeID.val) = sharers ↔ nodeID.val ∉ sharers := by
      rw [List.filter_eq_self]
      constructor
      · intro others member
        exact absurd rfl (of_decide_eq_true (others _ member))
      · intro absent id member
        exact decide_eq_true (fun here => absent (here ▸ member))
    simp only [DirectoryEntry.removeSharer,DirectoryEntry.mk.injEq,true_and,and_true,kept]
    constructor
    · rintro ⟨state_eq,absent⟩
      exact ⟨absent,by rw [← state_eq,kept.mpr absent]⟩
    · rintro ⟨absent,state_eq⟩
      exact ⟨by rw [kept.mpr absent,state_eq],absent⟩
  have left : live.erase nodeID.val ⊆ insert owner (sharers.filter (fun id => id ≠ nodeID.val)).toFinset := by
    intro id member
    have old := @named id (Finset.mem_of_mem_erase member)
    have other := Finset.ne_of_mem_erase member
    simp only [DirectoryEntry.recorded,Finset.mem_insert,List.mem_toFinset,List.mem_filter] at old ⊢
    exact old.imp_right (fun sharer => ⟨sharer,decide_eq_true other⟩)
  have none_left : (live.erase nodeID.val).Nonempty ↔ ¬ live ⊆ {nodeID.val} := by
    rw [Finset.nonempty_iff_ne_empty,Ne,Finset.erase_eq_empty_iff,Finset.subset_singleton_iff]
  rw [same]
  simp only [DirectoryEntry.removeSharer,EntryIntact,DirectoryEntry.recorded,Harmless,left,none_left,
    DirectoryEntry.stateFor_eq_exclusive,DirectoryEntry.stateFor_ne_modified,DirectoryEntry.stateFor_eq_notPresent,
    ne_eq,true_and,or_false]
  constructor
  · rintro ⟨⟨someLeft,alone⟩,unchanged⟩
    exact ⟨unchanged,fun none_ => not_not.mp (fun others => someLeft others none_),alone⟩
  · rintro ⟨unchanged,noneLeft,alone⟩
    exact ⟨⟨fun others none_ => others (noneLeft none_),alone⟩,unchanged⟩

theorem entryIntact_setOwner (sound : EntrySound live (some entry)) (nodeID : Int) :
    EntryIntact (if nodeID = -1 then live.erase entry.owner else insert nodeID live) (some (entry.setOwner nodeID)) ↔
      Harmless live (.setOwner nodeID) (some entry) := by
  obtain ⟨addr,state,sharers,owner⟩ := entry
  obtain ⟨⟨named,present,owned⟩,_⟩ := sound
  by_cases nobody : nodeID = -1
  · have none_left : (live.erase owner).Nonempty ↔ ¬ live ⊆ {owner} := by
      rw [Finset.nonempty_iff_ne_empty,Ne,Finset.erase_eq_empty_iff,Finset.subset_singleton_iff]
    simp only [nobody,DirectoryEntry.setOwner,↓reduceIte,EntryIntact,Harmless,none_left]
    constructor
    · intro intact
      exact not_not.mp (fun some_left => intact.2.1 some_left rfl)
    · intro alone
      refine ⟨?_,fun some_left => absurd alone some_left,by simp⟩
      rw [Finset.erase_eq_empty_iff .. |>.mpr (Finset.subset_singleton_iff.mp alone)]
      exact Finset.empty_subset _
  · have named_now : insert nodeID live ⊆ insert nodeID sharers.toFinset ↔ live ⊆ insert nodeID sharers.toFinset := by
      rw [Finset.insert_subset_iff]
      exact and_iff_right (Finset.mem_insert_self ..)
    simp only [nobody,DirectoryEntry.setOwner,↓reduceIte,EntryIntact,Harmless,DirectoryEntry.recorded,named_now,
      Finset.insert_nonempty,true_implies,ne_eq,not_false_eq_true,implies_true,and_true]
    rcases sharers with _ | ⟨first,rest⟩ <;> simp

/-- A request by the owner keeps the entry but for its state. -/
theorem entryIntact_owner (sound : EntrySound live (some entry)) (requesterID : CacheID)
    (owner : entry.owner = requesterID.val) {state : State} (present : state ≠ .notPresent) :
    EntryIntact (insert requesterID.val live) (some { entry with state }) := by
  refine ⟨?_,fun _ => present,fun _ => by rw [owner]; exact requesterID.property⟩
  exact Finset.insert_subset (by simp [DirectoryEntry.recorded,owner]) sound.1.1

/-- A line read by another cache: the old owner and the reader are recorded. -/
theorem entryIntact_read (sound : EntrySound live (some entry)) (requesterID : CacheID) :
    EntryIntact (insert requesterID.val live)
        (some { entry with state := .shared, sharers := [entry.owner,requesterID.val], owner := -1 }) ↔
      live ⊆ {entry.owner,requesterID.val} := by
  have real := sound.2.1
  simp only [EntryIntact,DirectoryEntry.recorded,ne_eq,reduceCtorEq,not_false_eq_true,implies_true,false_or,
    false_implies,and_true]
  constructor
  · intro named id member
    have here := named (Finset.mem_insert_of_mem member)
    have other : id ≠ -1 := fun same => real (same ▸ member)
    simpa [other] using here
  · intro named id member
    rcases Finset.mem_insert.mp member with rfl | old
    · simp
    · have here := named old
      simp at here ⊢
      exact .inr here

/-- A line that a cache writes: the writer is recorded, with the sharers left. -/
theorem entryIntact_written (requesterID : CacheID) (addr : UInt64) (sharers : List Int) :
    EntryIntact live (some ⟨addr,.modified,sharers,requesterID.val⟩) ↔ live ⊆ insert requesterID.val sharers.toFinset := by
  simp [EntryIntact,DirectoryEntry.recorded,requesterID.property]

/-- What is left once the list is invalidated. -/
theorem heldAfter_subset {requesterID : Int} {sharers : Finset Int} {action : MESIAction} :
    heldAfter live requesterID action ⊆ insert requesterID sharers ↔
      live ⊆ action.invalidateList.toFinset ∪ insert requesterID sharers := by
  have others : live \ action.invalidateList.toFinset ⊆ insert requesterID sharers ↔ _ := sdiff_le_iff
  rw [heldAfter,Finset.insert_subset_iff,others]
  exact and_iff_right (Finset.mem_insert_self ..)

theorem invalidated_sharers (requesterID : Int) (sharers : List Int) :
    (sharers.filter (fun id => id ≠ requesterID)).toFinset ∪ insert requesterID ∅ = insert requesterID sharers.toFinset := by
  ext id
  by_cases here : id = requesterID <;> simp [here]

theorem entryIntact_request (sound : EntrySound live (some entry)) (requesterID : CacheID) (isWrite : Bool)
    (present : entry.state ≠ .notPresent) :
    EntryIntact (heldAfter live requesterID.val (entry.request requesterID.val isWrite).1)
        (some (entry.request requesterID.val isWrite).2) ↔
      Harmless live (.handleMESIRequest requesterID isWrite) (some entry) := by
  obtain ⟨addr,state,sharers,owner⟩ := entry
  cases state with
  | notPresent => exact absurd rfl present
  | exclusive =>
    by_cases same : owner = requesterID.val
    · refine iff_of_true ?_ (.inl same)
      cases isWrite with
      | true =>
        simpa [DirectoryEntry.request,DirectoryEntry.requestExclusive,same,heldAfter,MESIAction.noAction] using
          entryIntact_owner sound requesterID same (show State.modified ≠ .notPresent by simp)
      | false =>
        simpa [DirectoryEntry.request,DirectoryEntry.requestExclusive,same,heldAfter,MESIAction.noAction] using
          entryIntact_owner sound requesterID same (show State.exclusive ≠ .notPresent by simp)
    · cases isWrite with
      | true =>
        have answer : DirectoryEntry.request ⟨addr,.exclusive,sharers,owner⟩ requesterID.val true =
            (⟨[owner],owner,false,.modified,true⟩,⟨addr,.modified,[],requesterID.val⟩) := by
          simp [DirectoryEntry.request,DirectoryEntry.requestExclusive,same,MESIAction.noAction]
        rw [answer,entryIntact_written,List.toFinset_nil,heldAfter_subset]
        exact ⟨.inr,fun harmless => harmless.resolve_left same⟩
      | false =>
        simpa [DirectoryEntry.request,DirectoryEntry.requestExclusive,same,heldAfter,MESIAction.noAction,Harmless] using
          entryIntact_read sound requesterID
  | modified =>
    by_cases same : owner = requesterID.val
    · refine iff_of_true ?_ (.inl same)
      cases isWrite <;>
        simpa [DirectoryEntry.request,DirectoryEntry.requestModified,same,heldAfter,MESIAction.noAction] using
          entryIntact_owner sound requesterID same (show State.modified ≠ .notPresent by simp)
    · cases isWrite with
      | true =>
        have answer : DirectoryEntry.request ⟨addr,.modified,sharers,owner⟩ requesterID.val true =
            (⟨[owner],owner,false,.modified,true⟩,⟨addr,.modified,sharers,requesterID.val⟩) := by
          simp [DirectoryEntry.request,DirectoryEntry.requestModified,same,MESIAction.noAction]
        rw [answer,entryIntact_written,heldAfter_subset]
        refine iff_of_true ?_ (.inr (.inl rfl))
        exact sound.1.1.trans (Finset.insert_subset_insert _ (Finset.subset_insert ..))
      | false =>
        simpa [DirectoryEntry.request,DirectoryEntry.requestModified,same,heldAfter,MESIAction.noAction,Harmless] using
          entryIntact_read sound requesterID
  | shared =>
    cases isWrite with
    | true =>
      have answer : DirectoryEntry.request ⟨addr,.shared,sharers,owner⟩ requesterID.val true =
          ({ DirectoryEntry.source ⟨addr,.shared,sharers,owner⟩ requesterID.val { MESIAction.noAction with
              invalidateList := sharers.filter (fun id => id ≠ requesterID.val) } with
              newState := .modified, grantExclusive := true },⟨addr,.modified,[],requesterID.val⟩) := rfl
      rw [answer,entryIntact_written,List.toFinset_nil,heldAfter_subset,DirectoryEntry.source_eq]
      simp only [invalidated_sharers]
      exact ⟨fun left _ => left,fun harmless => harmless rfl⟩
    | false =>
      refine iff_of_true ?_ (fun write => absurd write Bool.false_ne_true)
      have named := sound.1.1
      simp only [DirectoryEntry.request,DirectoryEntry.requestShared,Bool.false_eq_true,↓reduceIte,
        DirectoryEntry.source_eq,heldAfter,MESIAction.noAction,List.toFinset_nil,Finset.sdiff_empty]
      split
      · next sharer =>
        refine ⟨Finset.insert_subset ?_ named,by simp,by simp⟩
        simpa [DirectoryEntry.recorded] using .inr sharer
      · refine ⟨Finset.insert_subset ?_ (named.trans ?_),by simp,by simp⟩
        · simp [DirectoryEntry.recorded]
        · apply Finset.insert_subset_insert
          rw [List.toFinset_append]
          exact Finset.subset_union_left

/-- What a request takes from a sound entry is a cache. -/
theorem request_real (sound : EntrySound live (some entry)) (requesterID : CacheID) (isWrite : Bool) :
    -1 ∉ (entry.request requesterID.val isWrite).1.invalidateList ∧
      (NamesForwarder requesterID.val (some entry) → (entry.request requesterID.val isWrite).1.forwarderID ≠ -1) := by
  obtain ⟨addr,state,sharers,owner⟩ := entry
  obtain ⟨⟨_,_,owned⟩,_,sharers_real⟩ := sound
  have real : -1 ∉ sharers := sharers_real _ rfl
  cases state with
  | notPresent => exact ⟨by simp [DirectoryEntry.request,MESIAction.noAction],fun names => absurd names id⟩
  | exclusive =>
    have owner_real : owner ≠ -1 := owned (.inl rfl)
    by_cases same : owner = requesterID.val <;> cases isWrite <;>
      simp [DirectoryEntry.request,DirectoryEntry.requestExclusive,MESIAction.noAction,NamesForwarder,same,owner_real,
        Ne.symm owner_real]
  | modified =>
    have owner_real : owner ≠ -1 := owned (.inr rfl)
    by_cases same : owner = requesterID.val <;> cases isWrite <;>
      simp [DirectoryEntry.request,DirectoryEntry.requestModified,MESIAction.noAction,NamesForwarder,same,owner_real,
        Ne.symm owner_real]
  | shared =>
    constructor
    · cases isWrite <;>
        simp [DirectoryEntry.request,DirectoryEntry.requestShared,DirectoryEntry.source_eq,MESIAction.noAction,real]
    · rintro ⟨stranger,some_⟩
      obtain ⟨sharer,rest,rfl⟩ := List.exists_cons_of_ne_nil some_
      have sharer_real : sharer ≠ -1 := fun here => real (here ▸ List.mem_cons_self)
      cases isWrite <;>
        simpa [DirectoryEntry.request,DirectoryEntry.requestShared,DirectoryEntry.source_eq,stranger] using sharer_real

/-! ### One operation -/

/-- The action and the new entry of an operation on a line, by its entry before. -/
def outcome (addr : UInt64) : DirectoryOp → Option DirectoryEntry → MESIAction × Option DirectoryEntry
  | .addSharer nodeID, none => (.noAction,some ((DirectoryEntry.allocated addr .shared [] (-1)).addSharer nodeID.val))
  | .addSharer nodeID, some entry => (.noAction,some (entry.addSharer nodeID.val))
  | .removeSharer nodeID, found => (.noAction,found.map (fun entry => entry.removeSharer nodeID.val))
  | .setOwner nodeID, none => (.noAction,some (.allocated addr .exclusive [] nodeID))
  | .setOwner nodeID, some entry => (.noAction,some (entry.setOwner nodeID))
  | .clearSharers, found => (.noAction,found.map DirectoryEntry.clearSharers)
  | .handleMESIRequest requesterID isWrite, found =>
    let answer := (found.filter (fun entry => entry.state ≠ .notPresent)).elim
      (DirectoryEntry.requestFirst addr requesterID.val isWrite) (fun entry => entry.request requesterID.val isWrite)
    (answer.1,some answer.2)

/-- An operation changes the entry of its line, and gives up a line only if its own
    is not present. -/
theorem perform_some {d d' : FullyAssociativeDirectory} {c : Call} {line : Option EvictedLine} {action : MESIAction}
    (performed : Recorded.perform d c = some (line,action,d')) :
    action = (outcome c.addr c.op (d.find c.addr)).1 ∧
      d.Replaces line c.addr (outcome c.addr c.op (d.find c.addr)).2 d' ∧
      (line = none ∨ (d.find c.addr).filter (fun entry => entry.state ≠ .notPresent) = none) := by
  obtain ⟨victim,addr,op⟩ := c
  cases op with
  | addSharer nodeID =>
    obtain ⟨⟨line,d'⟩,added,rest⟩ := Option.map_eq_some_iff.mp performed
    cases rest
    unfold FullyAssociativeDirectory.addSharer at added
    split at added
    · next absent =>
      simp only [absent,outcome]
      exact ⟨trivial,FullyAssociativeDirectory.replaces_allocate added,.inr rfl⟩
    · next entry found =>
      cases added
      have replaces := d.replaces_modify addr (fun entry => entry.addSharer nodeID.val)
      simp only [found,outcome] at replaces ⊢
      exact ⟨trivial,replaces,.inl trivial⟩
  | removeSharer nodeID =>
    cases performed
    exact ⟨rfl,d.replaces_modify addr _,.inl rfl⟩
  | setOwner nodeID =>
    obtain ⟨⟨line,d'⟩,set,rest⟩ := Option.map_eq_some_iff.mp performed
    cases rest
    unfold FullyAssociativeDirectory.setOwner at set
    split at set
    · next absent =>
      simp only [absent,outcome]
      exact ⟨trivial,FullyAssociativeDirectory.replaces_allocate set,.inr rfl⟩
    · next entry found =>
      cases set
      have replaces := d.replaces_modify addr (fun entry => entry.setOwner nodeID)
      simp only [found,outcome] at replaces ⊢
      exact ⟨trivial,replaces,.inl trivial⟩
  | clearSharers =>
    cases performed
    exact ⟨rfl,d.replaces_modify addr _,.inl rfl⟩
  | handleMESIRequest requesterID isWrite =>
    rcases FullyAssociativeDirectory.handleMESIRequest_some performed with
      ⟨nothing,rfl,replaces⟩ | ⟨entry,found,recorded,rfl,rfl,replaces⟩
    · simp only [outcome,nothing]
      exact ⟨rfl,replaces,.inr trivial⟩
    · simp only [found,outcome,Option.filter,recorded,ne_eq,not_false_eq_true,decide_true,↓reduceIte]
      exact ⟨rfl,replaces,.inl trivial⟩

variable {found : Option DirectoryEntry}

/-- A line without a present entry has no live cache. -/
theorem EntrySound.live_empty (sound : EntrySound live found)
    (nothing : found.filter (fun entry => entry.state ≠ .notPresent) = none) : live = ∅ := by
  rcases found with _ | entry
  · exact sound.1
  · have absent : entry.state = .notPresent := by simpa using nothing
    by_contra some_
    exact sound.1.2.1 (Finset.nonempty_iff_ne_empty.mpr some_) absent

/-- An operation keeps a sound line intact, and a removal of a cache that does not
    hold the line changes nothing, exactly when the operation is harmless. -/
theorem outcome_exact (sound : EntrySound live found) (addr : UInt64) (op : DirectoryOp) :
    EntryIntact (Recorded.liveAfter op found (outcome addr op found).1 live) (outcome addr op found).2 ∧
        (∀ nodeID, op = .removeSharer nodeID → nodeID.val ∉ live → (outcome addr op found).2 = found) ↔
      Harmless live op found := by
  have intact : (∀ nodeID, op ≠ .removeSharer nodeID) →
      (EntryIntact (Recorded.liveAfter op found (outcome addr op found).1 live) (outcome addr op found).2 ∧
        (∀ nodeID, op = .removeSharer nodeID → nodeID.val ∉ live → (outcome addr op found).2 = found) ↔
      EntryIntact (Recorded.liveAfter op found (outcome addr op found).1 live) (outcome addr op found).2) :=
    fun other => and_iff_left (fun nodeID same => absurd same (other nodeID))
  cases op with
  | addSharer nodeID =>
    rw [intact (by simp)]
    rcases found with _ | entry
    · refine iff_of_false (fun kept => ?_) id
      exact kept.2.2 (.inl rfl) rfl
    · exact entryIntact_addSharer sound nodeID
  | removeSharer nodeID =>
    rcases found with _ | entry
    · obtain rfl : live = ∅ := sound.1
      exact iff_of_true ⟨by simp [Recorded.liveAfter,outcome,EntryIntact],by simp [outcome]⟩ trivial
    · rw [← entryIntact_removeSharer sound nodeID]
      simp [Recorded.liveAfter,outcome]
  | setOwner nodeID =>
    rw [intact (by simp)]
    rcases found with _ | entry
    · obtain rfl : live = ∅ := sound.1
      by_cases nobody : nodeID = -1
      · exact iff_of_false (fun kept => kept.2.2 (.inl rfl) nobody) (fun real => real nobody)
      · refine iff_of_true ?_ nobody
        simp [Recorded.liveAfter,outcome,EntryIntact,nobody,DirectoryEntry.allocated,DirectoryEntry.recorded]
    · exact entryIntact_setOwner sound nodeID
  | clearSharers =>
    rw [intact (by simp)]
    refine iff_of_true ?_ (by cases found <;> trivial)
    rcases found with _ | entry <;>
      simp [Recorded.liveAfter,outcome,EntryIntact,DirectoryEntry.clearSharers]
  | handleMESIRequest requesterID isWrite =>
    rw [intact (by simp)]
    rcases present : found.filter (fun entry => entry.state ≠ .notPresent) with _ | entry
    · obtain rfl := sound.live_empty present
      refine iff_of_true ?_ ?_
      · simp only [Recorded.liveAfter,outcome,present,Option.elim_none]
        simp [EntryIntact,heldAfter,DirectoryEntry.requestFirst,DirectoryEntry.allocated,DirectoryEntry.recorded,
          requesterID.property]
      · rcases found with _ | entry
        · trivial
        · have absent : entry.state = .notPresent := by simpa using present
          simp only [Harmless,absent]
    · obtain ⟨rfl,recorded⟩ := Option.filter_eq_some_iff.mp present
      have here := entryIntact_request sound requesterID isWrite (of_decide_eq_true recorded)
      simpa only [Recorded.liveAfter,outcome,present,Option.elim_some] using here

theorem sharers_addSharer (entry : DirectoryEntry) (nodeID : Int) :
    ∀ id ∈ (entry.addSharer nodeID).sharers, id ∈ entry.sharers ∨ id = nodeID := by
  unfold DirectoryEntry.addSharer
  split
  · exact fun id member => .inl member
  · intro id member
    simpa using member

/-- After a request the sharers are old ones, the owner there was, or the requester. -/
theorem sharers_request (entry : DirectoryEntry) (requesterID : Int) (isWrite : Bool) :
    ∀ id ∈ (entry.request requesterID isWrite).2.sharers,
      id ∈ entry.sharers ∨ id = requesterID ∨ ((entry.state = .exclusive ∨ entry.state = .modified) ∧ id = entry.owner) := by
  obtain ⟨addr,state,sharers,owner⟩ := entry
  intro id member
  cases state with
  | notPresent => exact .inl member
  | exclusive =>
    by_cases same : owner = requesterID <;> cases isWrite <;>
      simp_all [DirectoryEntry.request,DirectoryEntry.requestExclusive,or_comm]
  | modified =>
    by_cases same : owner = requesterID <;> cases isWrite <;>
      simp_all [DirectoryEntry.request,DirectoryEntry.requestModified,or_comm]
  | shared =>
    by_cases sharer : requesterID ∈ sharers <;> cases isWrite <;>
      simp_all [DirectoryEntry.request,DirectoryEntry.requestShared]

/-- After a harmless operation the line is sound again. -/
theorem outcome_sound (sound : EntrySound live found) (addr : UInt64) (op : DirectoryOp)
    (harmless : Harmless live op found) :
    EntrySound (Recorded.liveAfter op found (outcome addr op found).1 live) (outcome addr op found).2 := by
  obtain ⟨intact,real,sharers⟩ := sound
  refine ⟨((outcome_exact ⟨intact,real,sharers⟩ addr op).mpr harmless).1,?_,?_⟩
  · cases op with
    | addSharer nodeID => simpa [Recorded.liveAfter,real] using nodeID.property.symm
    | removeSharer nodeID => simp [Recorded.liveAfter,real]
    | setOwner nodeID =>
      by_cases nobody : nodeID = -1
      · simp [Recorded.liveAfter,nobody,real]
      · simpa [Recorded.liveAfter,nobody,real] using Ne.symm nobody
    | clearSharers => simp [Recorded.liveAfter]
    | handleMESIRequest requesterID isWrite => simpa [Recorded.liveAfter,heldAfter,real] using requesterID.property.symm
  · cases op with
    | addSharer nodeID =>
      rcases found with _ | entry
      · exact absurd harmless id
      · rintro entry' ⟨⟩ member
        rcases sharers_addSharer entry nodeID.val _ member with old | new
        · exact sharers entry rfl old
        · exact nodeID.property new.symm
    | removeSharer nodeID =>
      rcases found with _ | entry
      · rintro _ ⟨⟩
      · rintro entry' ⟨⟩ member
        exact sharers entry rfl (List.mem_of_mem_filter member)
    | setOwner nodeID =>
      rcases found with _ | entry
      · rintro entry' ⟨⟩ member
        exact absurd member (by simp [DirectoryEntry.allocated])
      · rintro entry' ⟨⟩ member
        exact sharers entry rfl member
    | clearSharers =>
      rcases found with _ | entry
      · rintro _ ⟨⟩
      · rintro entry' ⟨⟩ member
        exact absurd member (by simp [DirectoryEntry.clearSharers])
    | handleMESIRequest requesterID isWrite =>
      rcases present : found.filter (fun entry => entry.state ≠ .notPresent) with _ | entry
      · simp only [outcome,present,Option.elim_none]
        rintro entry' ⟨⟩ member
        have requester : isWrite = false ∧ -1 = requesterID.val := by
          simpa [DirectoryEntry.requestFirst,DirectoryEntry.allocated] using member
        exact requesterID.property requester.2.symm
      · obtain ⟨rfl,_⟩ := Option.filter_eq_some_iff.mp present
        simp only [outcome,present,Option.elim_some]
        rintro entry' ⟨⟩ member
        rcases sharers_request entry requesterID.val isWrite _ member with old | requester | ⟨owned,owner⟩
        · exact sharers entry rfl old
        · exact requesterID.property requester.symm
        · exact intact.2.2 owned owner.symm

end

/-! ### All lines -/

section
variable {s s' : Recorded} {c : Call}

def Sound (s : Recorded) : Prop := ∀ x, EntrySound (s.live x) (s.dir.find x)

theorem sound_start (capacity : Int) : Sound (.start capacity) :=
  fun _ => ⟨rfl,by simp [Recorded.start],fun _ member => nomatch member⟩

/-- The lines an operation is not about stay sound, also the one given up. -/
theorem sound_lose {line : Option EvictedLine} (sound : Sound s) (givesUp : s.dir.GivesUp line) (x : UInt64) :
    EntrySound (s.live.lose line x) (s.dir.findAfter line x) := by
  rcases line with _ | line
  · simpa [Holders.lose] using sound x
  · by_cases here : line.addr = x
    · subst here
      obtain ⟨entry,found,same⟩ := givesUp line rfl
      have held := sound line.addr
      rw [found] at held
      have none_left : s.live line.addr \ insert line.owner line.sharers.toFinset = ∅ := by
        rw [same]
        exact Finset.sdiff_eq_empty_iff_subset.mpr held.1.1
      simp [Holders.lose,FullyAssociativeDirectory.findAfter,EntrySound,EntryIntact,none_left]
    · simpa [Holders.lose,FullyAssociativeDirectory.findAfter,here,Function.update_of_ne (Ne.symm here)] using sound x

/-- What an operation on a sound directory did. -/
theorem call_some (sound : Sound s) (called : s.call c = some s') :
    ∃ line, s.dir.Replaces line c.addr (outcome c.addr c.op (s.dir.find c.addr)).2 s'.dir ∧
      s'.live = Function.update (s.live.lose line) c.addr (Recorded.liveAfter c.op (s.dir.find c.addr)
        (outcome c.addr c.op (s.dir.find c.addr)).1 (s.live c.addr)) := by
  obtain ⟨⟨line,action,dir⟩,performed,rest⟩ := Option.bind_eq_some_iff.mp called
  cases rest
  obtain ⟨rfl,replaces,gives⟩ := perform_some performed
  have same : s.live.lose line c.addr = s.live c.addr := by
    rcases gives with rfl | nothing
    · rfl
    · have empty : s.live c.addr = ∅ := (sound c.addr).live_empty nothing
      rw [empty]
      exact Finset.subset_empty.mp (empty ▸ s.live.lose_subset line c.addr)
  refine ⟨line,replaces,?_⟩
  simp only [same]

/-- The lines after an operation: the one it is about, and the others. -/
theorem call_lines (sound : Sound s) (called : s.call c = some s') (x : UInt64) :
    (x = c.addr ∧ s'.live x = Recorded.liveAfter c.op (s.dir.find c.addr)
        (outcome c.addr c.op (s.dir.find c.addr)).1 (s.live c.addr) ∧
      s'.dir.find x = (outcome c.addr c.op (s.dir.find c.addr)).2) ∨
    (x ≠ c.addr ∧ EntrySound (s'.live x) (s'.dir.find x)) := by
  obtain ⟨line,replaces,live⟩ := call_some sound called
  rw [live,replaces.find]
  by_cases here : x = c.addr
  · subst here
    exact .inl ⟨rfl,Function.update_self ..,if_pos rfl⟩
  · rw [if_neg here,Function.update_of_ne here]
    exact .inr ⟨here,sound_lose sound replaces.givesUp x⟩

/-- On a sound directory an operation keeps the promise exactly when it is harmless. -/
theorem call_exact (sound : Sound s) (called : s.call c = some s') :
    Intact s' ∧ CallOk s c s' ↔ Harmless (s.live c.addr) c.op (s.dir.find c.addr) := by
  rw [← outcome_exact (sound c.addr) c.addr c.op]
  have lines := call_lines sound called
  have intact : Intact s' ↔ EntryIntact (Recorded.liveAfter c.op (s.dir.find c.addr)
      (outcome c.addr c.op (s.dir.find c.addr)).1 (s.live c.addr)) (outcome c.addr c.op (s.dir.find c.addr)).2 := by
    constructor
    · intro intact
      rcases lines c.addr with ⟨_,live,found⟩ | ⟨other,_⟩
      · exact found ▸ live ▸ intact c.addr
      · exact absurd rfl other
    · intro here x
      rcases lines x with ⟨_,live,found⟩ | ⟨_,other⟩
      · rw [live,found]
        exact here
      · exact other.1
  rw [intact]
  refine and_congr_right (fun _ => ?_)
  obtain ⟨victim,addr,op⟩ := c
  cases op with
  | removeSharer nodeID =>
    cases called
    simp only [CallOk,outcome,FullyAssociativeDirectory.removeSharer,FullyAssociativeDirectory.find_modify]
    constructor
    · rintro unchanged nodeID' ⟨⟩ stranger
      simpa using unchanged stranger addr
    · intro unchanged stranger x
      split
      · next here => rw [here,unchanged nodeID rfl stranger]
      · rfl
  | handleMESIRequest requesterID isWrite =>
    refine iff_of_true ?_ (by rintro _ ⟨⟩)
    intro line action dir handled
    rcases FullyAssociativeDirectory.handleMESIRequest_some handled with
      ⟨nothing,rfl,_⟩ | ⟨entry,found,_,_,rfl,_⟩
    · refine ⟨by simp [DirectoryEntry.requestFirst,MESIAction.noAction],fun names => ?_⟩
      rcases found : s.dir.find addr with _ | entry <;> rw [found] at nothing names
      · exact absurd names id
      · have absent : entry.state = .notPresent := by simpa using nothing
        simp only [NamesForwarder,absent] at names
    · have here := sound addr
      rw [found] at here ⊢
      exact request_real here requesterID isWrite
  | _ => exact iff_of_true trivial (by rintro _ ⟨⟩)

theorem call_sound (sound : Sound s) (called : s.call c = some s')
    (harmless : Harmless (s.live c.addr) c.op (s.dir.find c.addr)) : Sound s' := by
  intro x
  rcases call_lines sound called x with ⟨_,live,found⟩ | ⟨_,other⟩
  · rw [live,found]
    exact outcome_sound (sound c.addr) c.addr c.op harmless
  · exact other

end

/-- In every run of operations, whatever entries are given up: the promise is kept
    in every state and by every step exactly when every step is harmless. -/
theorem never_lost_iff (capacity : Int) (calls : List Call) :
    (∀ taken ∈ trace Recorded.call (.start capacity) calls, Intact taken.2.2 ∧ CallOk taken.1 taken.2.1 taken.2.2) ↔
      ∀ taken ∈ trace Recorded.call (.start capacity) calls,
        Harmless (taken.1.live taken.2.1.addr) taken.2.1.op (taken.1.dir.find taken.2.1.addr) :=
  trace_forall_iff call_exact call_sound (sound_start capacity)

/-- A cache added as the only sharer of a new line, which another then writes: the
    line is Exclusive without an owner, and -1 is to be invalidated. -/
theorem ownerless_line_invalidates_nobody :
    ¬ ∀ (capacity : Int) (calls : List Call), ∀ taken ∈ trace Recorded.call (.start capacity) calls,
      Intact taken.2.2 ∧ CallOk taken.1 taken.2.1 taken.2.2 := by
  intro promised
  let add : Call := ⟨0,5,.addSharer ⟨1,by decide⟩⟩
  let write : Call := ⟨0,5,.handleMESIRequest ⟨2,by decide⟩ true⟩
  let added := (runActions Recorded.call (fun _ _ => True) [add] (.start 4)).get (by decide +kernel)
  have ran : runActions Recorded.call (fun _ _ => True) [add] (.start 4) = some added := (Option.some_get _).symm
  have stepped : added.call write = some ((added.call write).get (by decide +kernel)) := (Option.some_get _).symm
  have kept := (promised 4 [add,write] _ (mem_trace_of_run stepped ran)).2
  let handled := (added.dir.handleMESIRequest 0 5 2 true).get (by decide +kernel)
  have listed : -1 ∈ handled.2.1.invalidateList := by decide +kernel
  have answer : added.dir.handleMESIRequest 0 5 2 true = some handled := (Option.some_get _).symm
  exact (kept handled.1 handled.2.1 handled.2.2 answer).1 listed

end FlowSim.Directory
