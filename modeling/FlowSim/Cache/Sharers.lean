import FlowSim.Cache.MESIController
import FlowSim.Lib.Transition

/-!
The entries of the MESI controller over whole histories. Each request leaves an entry that
lists its holders once, and a sole holder alone; but a read by the core that owns a line
is taken for a read by another one.
-/
namespace FlowSim.Cache
open FlowSim.Lib
set_option linter.unusedSimpArgs false

/-- The state in which one core alone has the line. -/
def MESIState.Sole (state : MESIState) : Prop := state = .exclusive ∨ state = .modified

/-- No core is listed twice, and a sole holder is the only one listed. -/
structure MESIEntry.Valid (entry : MESIEntry) : Prop where
  nodup : entry.sharers.Nodup
  sole : entry.state.Sole → entry.sharers = [entry.owner]

namespace MESIController

/-- A core reads or writes an address. -/
structure Request where
  write : Bool
  address : UInt64
  requestorID : Int

def Request.message (r : Request) : CoherenceMessage where
  type := if r.write then .write else .read
  address := r.address
  requestorID := r.requestorID

def responses (mc : MESIController) (r : Request) : List CoherenceMessage := (mc.handleRequest r.message).1

def step (mc : MESIController) (r : Request) : Option MESIController := some (mc.handleRequest r.message).2

def Valid (mc : MESIController) : Prop := ∀ address entry, mc.directory address = some entry → entry.Valid

/-- The core reads a line that it owns. -/
def OwnerReads (mc : MESIController) (r : Request) : Prop :=
  r.write = false ∧ ∃ entry, mc.directory r.address = some entry ∧ entry.state.Sole ∧ entry.owner = r.requestorID

/-- The entries are valid afterwards, and a read by the owner has changed nothing and
    called for no downgrade and no invalidation. -/
def Keeps (mc : MESIController) (r : Request) (mc' : MESIController) : Prop :=
  mc'.Valid ∧ (mc.OwnerReads r → mc'.directory r.address = mc.directory r.address ∧
    ∀ msg ∈ mc.responses r, msg.type ≠ .sharedRequest ∧ msg.type ≠ .invalidate)

section
variable {entry : MESIEntry} {address : UInt64} {requestorID : Int}

theorem valid_newEntry : newEntry.Valid where
  nodup := .nil
  sole := by
    rintro (exclusive | modified)
    · cases exclusive
    · cases modified

/-- A read by another core than the sole holder leaves a valid entry. -/
theorem valid_handleRead (valid : entry.Valid) (other : ¬ (entry.state.Sole ∧ entry.owner = requestorID)) :
    (handleRead entry address requestorID).2.Valid := by
  have shared : ∀ {sharers}, sharers.Nodup → MESIEntry.Valid { state := .shared, sharers, owner := -1 } := by
    intro sharers nodup
    refine ⟨nodup,?_⟩
    rintro (exclusive | modified)
    · cases exclusive
    · cases modified
  have pair : entry.state.Sole → [entry.owner,requestorID].Nodup := by
    intro sole
    have different : entry.owner ≠ requestorID := fun same => other ⟨sole,same⟩
    simp [different]
  unfold handleRead
  split
  · exact ⟨List.nodup_singleton _,fun _ => rfl⟩
  · next state =>
    refine ⟨?_,?_⟩
    · dsimp only
      split
      · exact valid.nodup
      · next new => exact valid.nodup.append (List.nodup_singleton _) (by simpa using new)
    · rintro (exclusive | modified)
      · cases state.symm.trans exclusive
      · cases state.symm.trans modified
  · next state => exact shared (pair (.inl state))
  · next state => exact shared (pair (.inr state))

theorem valid_handleWrite : (handleWrite entry address requestorID).2.Valid := ⟨List.nodup_singleton _,fun _ => rfl⟩

end

section
variable {mc mc' : MESIController} {r : Request}

/-- What a request does to the entry of its address. -/
def entryAfter (mc : MESIController) (r : Request) : List CoherenceMessage × MESIEntry :=
  if r.write then handleWrite ((mc.directory r.address).getD newEntry) r.address r.requestorID
  else handleRead ((mc.directory r.address).getD newEntry) r.address r.requestorID

theorem handleRequest_message (mc : MESIController) (r : Request) : mc.handleRequest r.message =
    ((mc.entryAfter r).1,{ mc with directory := Function.update mc.directory r.address (some (mc.entryAfter r).2) }) := by
  unfold handleRequest entryAfter Request.message
  cases r.write with
  | false => rfl
  | true => rfl

theorem keeps_iff (valid : mc.Valid) (stepped : mc.step r = some mc') : mc.Keeps r mc' ↔ ¬ mc.OwnerReads r := by
  obtain rfl := Option.some.inj stepped
  have now : (mc.directory r.address).getD newEntry |>.Valid := by
    rcases found : mc.directory r.address with _ | entry
    · exact valid_newEntry
    · exact valid r.address entry found
  constructor
  · rintro ⟨_,quiet⟩ owner
    obtain ⟨_,calm⟩ := quiet owner
    obtain ⟨read,entry,found,sole,_⟩ := owner
    -- the downgrade of the owner is always sent
    have sent : (⟨.sharedRequest,r.address,0,entry.owner,0⟩ : CoherenceMessage) ∈ mc.responses r := by
      rw [responses,handleRequest_message,entryAfter,read,found]
      unfold handleRead
      rcases sole with state | state
      · simp [state]
      · simp [state]
    exact (calm _ sent).1 rfl
  · intro other
    refine ⟨?_,fun owner => absurd owner other⟩
    intro address entry found
    rw [handleRequest_message] at found
    dsimp only at found
    by_cases here : address = r.address
    · subst here
      rw [Function.update_self] at found
      obtain rfl := Option.some.inj found
      unfold entryAfter
      split
      · exact valid_handleWrite
      · next read =>
        refine valid_handleRead now ?_
        rintro ⟨sole,owner⟩
        rcases present : mc.directory r.address with _ | entry
        · rw [present] at sole
          rcases sole with state | state
          · cases state
          · cases state
        · rw [present] at sole owner
          exact other ⟨by simpa using read,entry,present,sole,owner⟩
    · rw [Function.update_of_ne here] at found
      exact valid address entry found

end

/-- Over every history of reads and writes the entries are valid, and reads by owners
    change nothing, exactly when there are no reads by owners. -/
theorem entries_valid_iff (requests : List Request) :
    (∀ taken ∈ trace step newMESIController requests, Keeps taken.1 taken.2.1 taken.2.2) ↔
      ∀ taken ∈ trace step newMESIController requests, ¬ OwnerReads taken.1 taken.2.1 :=
  @trace_forall_iff _ _ step Valid Keeps (fun mc r => ¬ OwnerReads mc r) (fun valid stepped => keeps_iff valid stepped)
    (fun valid stepped other => ((keeps_iff valid stepped).mpr other).1) _ _ fun _ _ found => by cases found

/-- A core that reads a line twice becomes its two sharers. -/
theorem owner_downgraded : ¬ ∀ taken ∈ trace step newMESIController [⟨false,0,0⟩,⟨false,0,0⟩],
    Keeps taken.1 taken.2.1 taken.2.2 := by
  intro keeps
  have last := keeps (_,⟨false,0,0⟩,_) (List.mem_cons_of_mem _ List.mem_cons_self)
  have twice := (last.1 0 ⟨.shared,[0,0],-1⟩ rfl).nodup
  cases twice with
  | cons first => exact first 0 List.mem_cons_self rfl

end MESIController
end FlowSim.Cache
