import Mathlib

/-!
The fully associative directory: a bounded map from addresses to entries, with
the operations that record sharers and owners and the handler of MESI requests.
The entry an overfull directory gives up is chosen at random, so every operation
that may allocate is given the victim and fails when the victim is no entry.
-/
namespace FlowSim.Directory
set_option linter.unusedSimpArgs false

inductive State where
  | notPresent
  | shared
  | exclusive
  | modified
deriving DecidableEq, Repr

/-- One line's record; the owner is -1 when there is none. -/
structure DirectoryEntry where
  addr : UInt64
  state : State
  sharers : List Int
  owner : Int
deriving DecidableEq, Repr

/-- What a MESI request asks its caller to do. -/
structure MESIAction where
  invalidateList : List Int
  forwarderID : Int
  needMemory : Bool
  newState : State
  grantExclusive : Bool
deriving DecidableEq, Repr

/-- The action before any case is looked at. -/
def MESIAction.noAction : MESIAction :=
  { invalidateList := [], forwarderID := -1, needMemory := false, newState := .notPresent, grantExclusive := false }

/-- What the evict callback is told. -/
structure EvictedLine where
  addr : UInt64
  state : State
  sharers : List Int
  owner : Int
deriving DecidableEq, Repr

def DirectoryEntry.evicted (entry : DirectoryEntry) (addr : UInt64) : EvictedLine :=
  { addr, state := entry.state, sharers := entry.sharers, owner := entry.owner }

/-! ### One entry -/

namespace DirectoryEntry

/-- An entry of its own for a new line. -/
def allocated (addr : UInt64) (state : State) (sharers : List Int) (owner : Int) : DirectoryEntry :=
  { addr, state, sharers, owner }

def addSharer (entry : DirectoryEntry) (nodeID : Int) : DirectoryEntry :=
  if nodeID ∈ entry.sharers then entry
  else
    let sharers := entry.sharers ++ [nodeID]
    { entry with sharers, state := if sharers.length = 1 then .exclusive else .shared }

/-- The state by the number of sharers, whoever owns the line. -/
def stateFor (sharers : List Int) : State :=
  if sharers.length = 0 then .notPresent else if sharers.length = 1 then .exclusive else .shared

theorem stateFor_eq_notPresent (sharers : List Int) : stateFor sharers = .notPresent ↔ sharers = [] := by
  rw [← List.length_eq_zero_iff]
  unfold stateFor
  split_ifs <;> simp_all

theorem stateFor_eq_exclusive (sharers : List Int) : stateFor sharers = .exclusive ↔ sharers.length = 1 := by
  unfold stateFor
  split_ifs <;> simp_all

theorem stateFor_ne_modified (sharers : List Int) : stateFor sharers ≠ .modified := by
  unfold stateFor
  split_ifs <;> simp

def removeSharer (entry : DirectoryEntry) (nodeID : Int) : DirectoryEntry :=
  let sharers := entry.sharers.filter (fun id => id ≠ nodeID)
  { entry with sharers, state := stateFor sharers }

def clearSharers (entry : DirectoryEntry) : DirectoryEntry :=
  { entry with sharers := [], state := .notPresent, owner := -1 }

def setOwner (entry : DirectoryEntry) (nodeID : Int) : DirectoryEntry :=
  { entry with
    owner := nodeID
    state := if nodeID = -1 then .notPresent else if entry.sharers.length = 0 then .exclusive else entry.state }

/-- A request for a line in state Exclusive. -/
def requestExclusive (entry : DirectoryEntry) (requesterID : Int) (isWrite : Bool) : MESIAction × DirectoryEntry :=
  let owner := entry.owner
  if isWrite then
    if owner = requesterID then
      ({ MESIAction.noAction with newState := .modified, grantExclusive := true },{ entry with state := .modified })
    else
      ({ MESIAction.noAction with
          invalidateList := [owner], forwarderID := owner, newState := .modified, grantExclusive := true },
        { entry with state := .modified, owner := requesterID, sharers := [] })
  else
    if owner = requesterID then ({ MESIAction.noAction with newState := .exclusive },entry)
    else
      ({ MESIAction.noAction with forwarderID := owner, newState := .shared },
        { entry with state := .shared, sharers := [owner,requesterID], owner := -1 })

/-- A request for a line in state Modified. A new owner leaves the sharers as they were. -/
def requestModified (entry : DirectoryEntry) (requesterID : Int) (isWrite : Bool) : MESIAction × DirectoryEntry :=
  let owner := entry.owner
  if isWrite then
    if owner = requesterID then ({ MESIAction.noAction with newState := .modified, grantExclusive := true },entry)
    else
      ({ MESIAction.noAction with
          invalidateList := [owner], forwarderID := owner, newState := .modified, grantExclusive := true },
        { entry with owner := requesterID })
  else
    if owner = requesterID then ({ MESIAction.noAction with newState := .modified },entry)
    else
      ({ MESIAction.noAction with forwarderID := owner, newState := .shared },
        { entry with state := .shared, sharers := [owner,requesterID], owner := -1 })

/-- Where a requester that is no sharer gets the line from: the first sharer, or
    memory when there is none. -/
def source (entry : DirectoryEntry) (requesterID : Int) (action : MESIAction) : MESIAction :=
  if requesterID ∈ entry.sharers then action
  else
    match entry.sharers with
    | sharer :: _ => { action with forwarderID := sharer }
    | [] => { action with needMemory := true }

/-- A forwarder is named only to a requester that is no sharer, and is a sharer. -/
theorem source_eq (entry : DirectoryEntry) (requesterID : Int) (action : MESIAction) :
    entry.source requesterID action =
      { action with
        forwarderID := if requesterID ∈ entry.sharers then action.forwarderID
          else entry.sharers.head?.getD action.forwarderID
        needMemory := action.needMemory || (decide (requesterID ∉ entry.sharers) && entry.sharers.isEmpty) } := by
  unfold source
  split
  · next sharer => simp [sharer]
  · next stranger => rcases sharers : entry.sharers with _ | ⟨sharer,rest⟩ <;> simp_all

/-- A request for a line in state Shared. -/
def requestShared (entry : DirectoryEntry) (requesterID : Int) (isWrite : Bool) : MESIAction × DirectoryEntry :=
  if isWrite then
    let action := { MESIAction.noAction with invalidateList := entry.sharers.filter (fun id => id ≠ requesterID) }
    ({ entry.source requesterID action with newState := .modified, grantExclusive := true },
      { entry with state := .modified, sharers := [], owner := requesterID })
  else
    ({ entry.source requesterID MESIAction.noAction with newState := .shared },
      if requesterID ∈ entry.sharers then entry else { entry with sharers := entry.sharers ++ [requesterID] })

/-- A request for a line that is recorded, by its state; the first case is the
    source's default, which its handler never comes to. -/
def request (entry : DirectoryEntry) (requesterID : Int) (isWrite : Bool) : MESIAction × DirectoryEntry :=
  match entry.state with
  | .notPresent => (.noAction,entry)
  | .exclusive => entry.requestExclusive requesterID isWrite
  | .modified => entry.requestModified requesterID isWrite
  | .shared => entry.requestShared requesterID isWrite

/-- A request for a line of which nothing is recorded. -/
def requestFirst (addr : UInt64) (requesterID : Int) (isWrite : Bool) : MESIAction × DirectoryEntry :=
  ({ MESIAction.noAction with needMemory := true, newState := .exclusive, grantExclusive := true },
    allocated addr .exclusive (if isWrite then [] else [requesterID]) requesterID)

end DirectoryEntry

/-! ### The directory -/

/-- A directory that never has more entries than it has room for. The lock and
    the random number generator are left out. -/
structure FullyAssociativeDirectory where
  capacity : Nat
  entries : AList (fun _ : UInt64 => DirectoryEntry)
  capacity_pos : 0 < capacity
  size_le : entries.keys.length ≤ capacity

namespace FullyAssociativeDirectory

/-- An empty directory, of 64 entries unless another capacity is given. -/
def newFullyAssociativeDirectory (capacity : Int) : FullyAssociativeDirectory where
  capacity := if capacity ≤ 0 then 64 else capacity.toNat
  entries := ∅
  capacity_pos := by split <;> omega
  size_le := Nat.zero_le _

def find (d : FullyAssociativeDirectory) (addr : UInt64) : Option DirectoryEntry := d.entries.lookup addr

def getState (d : FullyAssociativeDirectory) (addr : UInt64) : State := (d.find addr).elim .notPresent DirectoryEntry.state

def getSharers (d : FullyAssociativeDirectory) (addr : UInt64) : List Int := (d.find addr).elim [] DirectoryEntry.sharers

/-- Sets an entry, in place or where there is room. -/
def put (d : FullyAssociativeDirectory) (addr : UInt64) (entry : DirectoryEntry)
    (room : (d.find addr).isSome ∨ d.entries.keys.length < d.capacity) : FullyAssociativeDirectory where
  capacity := d.capacity
  entries := d.entries.insert addr entry
  capacity_pos := d.capacity_pos
  size_le := by
    rw [AList.keys_insert,List.length_cons,List.length_erase]
    have old := d.size_le
    split
    · next present =>
      have some_left := List.length_pos_of_mem present
      omega
    · next absent =>
      rcases room with present | room
      · exact absurd (AList.mem_keys.mp (AList.lookup_isSome.mp present)) absent
      · omega

/-- Changes the entry of an address, if it has one. -/
def modify (d : FullyAssociativeDirectory) (addr : UInt64) (change : DirectoryEntry → DirectoryEntry) :
    FullyAssociativeDirectory :=
  match found : d.find addr with
  | none => d
  | some entry => d.put addr (change entry) (.inl (found ▸ rfl))

/-- Makes room for an entry, by giving up the victim when the directory is full.
    `none` when the victim is no entry. -/
def ensureCapacity (d : FullyAssociativeDirectory) (victim : UInt64) :
    Option (Option EvictedLine × { d : FullyAssociativeDirectory // d.entries.keys.length < d.capacity }) :=
  if room : d.entries.keys.length < d.capacity then some (none,⟨d,room⟩)
  else
    match found : d.find victim with
    | none => none
    | some entry =>
      some (some (entry.evicted victim),
        ⟨{ d with
            entries := d.entries.erase victim
            size_le := by
              rw [AList.keys_erase]
              exact le_trans List.length_erase_le d.size_le },by
          have present : victim ∈ d.entries.keys := 
            AList.mem_keys.mp (AList.lookup_isSome.mp (Option.isSome_of_mem found))
          have some_left := List.length_pos_of_mem present
          have small := d.size_le
          show (d.entries.erase victim).keys.length < d.capacity
          rw [AList.keys_erase,List.length_erase_of_mem present]
          omega⟩)

/-- Makes room for an entry and sets it. -/
def allocate (d : FullyAssociativeDirectory) (victim addr : UInt64) (entry : DirectoryEntry) :
    Option (Option EvictedLine × FullyAssociativeDirectory) := do
  let (evicted,d) ← d.ensureCapacity victim
  return (evicted,d.val.put addr entry (.inr d.property))

def setState (d : FullyAssociativeDirectory) (victim addr : UInt64) (state : State) :
    Option (Option EvictedLine × FullyAssociativeDirectory) :=
  match d.find addr with
  | none => d.allocate victim addr (.allocated addr state [] (-1))
  | some _ => some (none,d.modify addr (fun entry => { entry with state }))

def addSharer (d : FullyAssociativeDirectory) (victim addr : UInt64) (nodeID : Int) :
    Option (Option EvictedLine × FullyAssociativeDirectory) :=
  match d.find addr with
  | none => d.allocate victim addr ((DirectoryEntry.allocated addr .shared [] (-1)).addSharer nodeID)
  | some _ => some (none,d.modify addr (fun entry => entry.addSharer nodeID))

def removeSharer (d : FullyAssociativeDirectory) (addr : UInt64) (nodeID : Int) : FullyAssociativeDirectory :=
  d.modify addr (fun entry => entry.removeSharer nodeID)

def clearSharers (d : FullyAssociativeDirectory) (addr : UInt64) : FullyAssociativeDirectory :=
  d.modify addr DirectoryEntry.clearSharers

def setOwner (d : FullyAssociativeDirectory) (victim addr : UInt64) (nodeID : Int) :
    Option (Option EvictedLine × FullyAssociativeDirectory) :=
  match d.find addr with
  | none => d.allocate victim addr (.allocated addr .exclusive [] nodeID)
  | some _ => some (none,d.modify addr (fun entry => entry.setOwner nodeID))

/-- The first request for a line, which is granted exclusively. -/
def handleFirst (d : FullyAssociativeDirectory) (victim addr : UInt64) (requesterID : Int) (isWrite : Bool) :
    Option (Option EvictedLine × MESIAction × FullyAssociativeDirectory) := do
  let (action,entry) := DirectoryEntry.requestFirst addr requesterID isWrite
  let (evicted,d) ← d.allocate victim addr entry
  return (evicted,action,d)

def handleMESIRequest (d : FullyAssociativeDirectory) (victim addr : UInt64) (requesterID : Int) (isWrite : Bool) :
    Option (Option EvictedLine × MESIAction × FullyAssociativeDirectory) :=
  match d.find addr with
  | none => d.handleFirst victim addr requesterID isWrite
  | some entry =>
    if entry.state = .notPresent then d.handleFirst victim addr requesterID isWrite
    else
      let (action,entry) := entry.request requesterID isWrite
      some (none,action,d.modify addr (fun _ => entry))

/-! ### What the operations do to the entries -/

theorem find_put (d : FullyAssociativeDirectory) {addr : UInt64} {entry : DirectoryEntry} (room) (x : UInt64) :
    (d.put addr entry room).find x = if x = addr then some entry else d.find x := by
  by_cases here : x = addr
  · subst here
    rw [if_pos rfl]
    exact AList.lookup_insert ..
  · rw [if_neg here]
    exact AList.lookup_insert_ne here

theorem find_modify (d : FullyAssociativeDirectory) (addr : UInt64) (change : DirectoryEntry → DirectoryEntry)
    (x : UInt64) : (d.modify addr change).find x = if x = addr then (d.find addr).map change else d.find x := by
  unfold modify
  split
  · next absent =>
    split
    · next here => rw [here,absent]; rfl
    · rfl
  · next entry found => rw [find_put,found]; rfl

/-- The entries once a line has been given up. -/
def findAfter (d : FullyAssociativeDirectory) (evicted : Option EvictedLine) (x : UInt64) : Option DirectoryEntry :=
  if evicted.any (fun line => line.addr = x) then none else d.find x

/-- The callback is told of an entry, as it was. -/
def GivesUp (d : FullyAssociativeDirectory) (evicted : Option EvictedLine) : Prop :=
  ∀ line ∈ evicted, ∃ entry, d.find line.addr = some entry ∧ line = entry.evicted line.addr

theorem ensureCapacity_some {d : FullyAssociativeDirectory} {victim : UInt64} {evicted : Option EvictedLine}
    {d' : { d : FullyAssociativeDirectory // d.entries.keys.length < d.capacity }}
    (made : d.ensureCapacity victim = some (evicted,d')) :
    d.GivesUp evicted ∧ ∀ x, d'.val.find x = d.findAfter evicted x := by
  unfold ensureCapacity at made
  split at made
  · cases made
    exact ⟨fun _ member => absurd member (by simp),fun x => rfl⟩
  · split at made
    · cases made
    · next entry found =>
      cases made
      constructor
      · rintro line ⟨⟩
        exact ⟨entry,found,rfl⟩
      · intro x
        by_cases here : victim = x
        · subst here
          simp only [findAfter,Option.any_some,DirectoryEntry.evicted,decide_true,↓reduceIte]
          exact AList.lookup_erase ..
        · simp only [findAfter,Option.any_some,DirectoryEntry.evicted,here,decide_false,Bool.false_eq_true,↓reduceIte]
          exact AList.lookup_erase_ne (Ne.symm here)

@[simp] theorem findAfter_none (d : FullyAssociativeDirectory) (x : UInt64) : d.findAfter none x = d.find x := rfl

/-- How a directory may follow another: a line may be given up, and the entry of
    one address is new. -/
structure Replaces (d : FullyAssociativeDirectory) (evicted : Option EvictedLine) (addr : UInt64)
    (entry : Option DirectoryEntry) (d' : FullyAssociativeDirectory) : Prop where
  givesUp : d.GivesUp evicted
  find : ∀ x, d'.find x = if x = addr then entry else d.findAfter evicted x

theorem replaces_allocate {d d' : FullyAssociativeDirectory} {victim addr : UInt64} {entry : DirectoryEntry}
    {evicted : Option EvictedLine} (allocated : d.allocate victim addr entry = some (evicted,d')) :
    d.Replaces evicted addr (some entry) d' := by
  obtain ⟨⟨evicted,made⟩,room,rest⟩ := Option.bind_eq_some_iff.mp allocated
  cases rest
  obtain ⟨givesUp,others⟩ := ensureCapacity_some room
  exact ⟨givesUp,fun x => by rw [find_put,others]⟩

theorem replaces_modify (d : FullyAssociativeDirectory) (addr : UInt64) (change : DirectoryEntry → DirectoryEntry) :
    d.Replaces none addr ((d.find addr).map change) (d.modify addr change) :=
  ⟨fun _ member => absurd member (by simp),d.find_modify addr change⟩

/-- What a MESI request does, by the entry it finds. -/
theorem handleMESIRequest_some {d d' : FullyAssociativeDirectory} {victim addr : UInt64} {requesterID : Int}
    {isWrite : Bool} {evicted : Option EvictedLine} {action : MESIAction}
    (handled : d.handleMESIRequest victim addr requesterID isWrite = some (evicted,action,d')) :
    ((d.find addr).filter (fun entry => entry.state ≠ .notPresent) = none ∧
      action = (DirectoryEntry.requestFirst addr requesterID isWrite).1 ∧
      d.Replaces evicted addr (some (DirectoryEntry.requestFirst addr requesterID isWrite).2) d') ∨
    ∃ entry, d.find addr = some entry ∧ entry.state ≠ .notPresent ∧ evicted = none ∧
      action = (entry.request requesterID isWrite).1 ∧
      d.Replaces none addr (some (entry.request requesterID isWrite).2) d' := by
  have first : ∀ {evicted action d'}, d.handleFirst victim addr requesterID isWrite = some (evicted,action,d') →
      action = (DirectoryEntry.requestFirst addr requesterID isWrite).1 ∧
        d.Replaces evicted addr (some (DirectoryEntry.requestFirst addr requesterID isWrite).2) d' := by
    intro evicted action d' handled
    obtain ⟨⟨evicted,made⟩,allocated,rest⟩ := Option.bind_eq_some_iff.mp handled
    cases rest
    exact ⟨rfl,replaces_allocate allocated⟩
  unfold handleMESIRequest at handled
  split at handled
  · next absent => exact .inl ⟨by simp [absent],first handled⟩
  · next entry found =>
    split at handled
    · next nothing => exact .inl ⟨by simp [found,nothing],first handled⟩
    · next recorded =>
      cases handled
      refine .inr ⟨entry,found,recorded,rfl,rfl,?_⟩
      have replaces := d.replaces_modify addr (fun _ => (entry.request requesterID isWrite).2)
      rwa [found] at replaces

end FullyAssociativeDirectory
end FlowSim.Directory
