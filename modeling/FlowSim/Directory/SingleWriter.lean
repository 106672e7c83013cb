import FlowSim.Directory.FullyAssociative
import FlowSim.Lib.Transition

/-!
MESI requests keep the directory and the caches in step. `Tracked` carries, next
to the directory, which caches hold which line by what they were told to do;
`LineOk` says how the entry of a line and its holders belong together, by the
state of the entry, and every request keeps it for all lines (`LinesOk.request`).
-/
namespace FlowSim.Directory
open FlowSim.Lib
set_option linter.unusedSimpArgs false

/-- The caches that an entry names. -/
def DirectoryEntry.recorded (entry : DirectoryEntry) : Finset Int := insert entry.owner entry.sharers.toFinset

/-- Which caches hold which line. -/
abbrev Holders := UInt64 → Finset Int

/-- The caches that the evict callback names lose the line. -/
def Holders.lose (holders : Holders) : Option EvictedLine → Holders
  | none => holders
  | some line => Function.update holders line.addr (holders line.addr \ insert line.owner line.sharers.toFinset)

/-- The requester gets the line, and the caches on the list lose it. -/
def heldAfter (holders : Finset Int) (requesterID : Int) (action : MESIAction) : Finset Int :=
  insert requesterID (holders \ action.invalidateList.toFinset)

/-- A grant makes the line exclusive, sharing it ends that. -/
def exclusiveAfter (exclusive : Bool) (action : MESIAction) : Bool :=
  if action.grantExclusive then true else if action.newState = .shared then false else exclusive

structure Request where
  victim : UInt64
  addr : UInt64
  requesterID : Int
  isWrite : Bool
deriving DecidableEq, Repr

/-- A directory with what its requests have led to: the holders, the lines granted
    exclusively and not shared since, and the lines given up since they were last
    requested. -/
structure Tracked where
  dir : FullyAssociativeDirectory
  holders : Holders
  exclusive : UInt64 → Bool
  evicted : UInt64 → Bool

namespace Tracked

def start (capacity : Int) : Tracked where
  dir := .newFullyAssociativeDirectory capacity
  holders _ := ∅
  exclusive _ := false
  evicted _ := false

def request (t : Tracked) (r : Request) : Option Tracked := do
  let (line,action,dir) ← t.dir.handleMESIRequest r.victim r.addr r.requesterID r.isWrite
  let held := t.holders.lose line
  let lost (x : UInt64) : Bool := t.evicted x || line.any (fun line => line.addr = x)
  return {
    dir
    holders := Function.update held r.addr (heldAfter (held r.addr) r.requesterID action)
    exclusive := Function.update t.exclusive r.addr (exclusiveAfter (t.exclusive r.addr) action)
    evicted := Function.update lost r.addr false }

end Tracked

/-- How the entry of a line and its holders belong together: a line without an
    entry has no holder, the sharers of a shared line hold it, and otherwise its
    owner alone does. A line is not granted exclusively while it is shared, nor
    without an entry unless it was given up. -/
def LineOk (holders : Finset Int) (exclusive evicted : Bool) : Option DirectoryEntry → Prop
  | none => holders = ∅ ∧ (exclusive = true → evicted = true)
  | some entry =>
    match entry.state with
    | .notPresent => False
    | .shared => holders = entry.sharers.toFinset ∧ exclusive = false
    | .exclusive | .modified => holders = {entry.owner}

def LinesOk (t : Tracked) : Prop := ∀ x, LineOk (t.holders x) (t.exclusive x) (t.evicted x) (t.dir.find x)

theorem linesOk_start (capacity : Int) : LinesOk (.start capacity) := fun _ => ⟨rfl,fun granted => nomatch granted⟩

/-! ### One request -/

section
variable {holders : Finset Int} {exclusive evicted : Bool} {entry : DirectoryEntry} {requesterID : Int} {isWrite : Bool}

/-- A request for a recorded line keeps its entry and its holders together. -/
theorem LineOk.request (ok : LineOk holders exclusive evicted (some entry)) :
    LineOk (heldAfter holders requesterID (entry.request requesterID isWrite).1)
      (exclusiveAfter exclusive (entry.request requesterID isWrite).1) false
      (some (entry.request requesterID isWrite).2) := by
  obtain ⟨addr,state,sharers,owner⟩ := entry
  cases state with
  | notPresent => exact absurd ok id
  | exclusive =>
    obtain rfl : holders = {owner} := ok
    by_cases same : owner = requesterID <;> cases isWrite <;>
      simp [DirectoryEntry.request,DirectoryEntry.requestExclusive,MESIAction.noAction,LineOk,heldAfter,
        exclusiveAfter,same,Finset.pair_comm]
  | modified =>
    obtain rfl : holders = {owner} := ok
    by_cases same : owner = requesterID <;> cases isWrite <;>
      simp [DirectoryEntry.request,DirectoryEntry.requestModified,MESIAction.noAction,LineOk,heldAfter,
        exclusiveAfter,same,Finset.pair_comm]
  | shared =>
    obtain ⟨rfl,notExclusive⟩ := ok
    cases isWrite with
    | true =>
      have alone : insert requesterID (sharers.toFinset \ (sharers.filter (fun id => id ≠ requesterID)).toFinset) =
          {requesterID} := by
        ext id
        simp only [Finset.mem_insert,Finset.mem_sdiff,List.mem_toFinset,List.mem_filter,Finset.mem_singleton]
        grind
      simpa [DirectoryEntry.request,DirectoryEntry.requestShared,DirectoryEntry.source_eq,
        MESIAction.noAction,LineOk,heldAfter] using alone
    | false =>
      by_cases sharer : requesterID ∈ sharers
      · simp [DirectoryEntry.request,DirectoryEntry.requestShared,DirectoryEntry.source_eq,MESIAction.noAction,LineOk,
          heldAfter,exclusiveAfter,sharer]
      · simp [DirectoryEntry.request,DirectoryEntry.requestShared,DirectoryEntry.source_eq,MESIAction.noAction,LineOk,
          heldAfter,exclusiveAfter,sharer]

/-- A named forwarder holds the line. -/
theorem LineOk.forwarder (ok : LineOk holders exclusive evicted (some entry))
    (named : (entry.request requesterID isWrite).1.forwarderID ≠ -1) :
    (entry.request requesterID isWrite).1.forwarderID ∈ holders := by
  obtain ⟨addr,state,sharers,owner⟩ := entry
  cases state with
  | notPresent => exact absurd ok id
  | exclusive =>
    obtain rfl : holders = {owner} := ok
    by_cases same : owner = requesterID <;> cases isWrite <;>
      simp_all [DirectoryEntry.request,DirectoryEntry.requestExclusive,MESIAction.noAction]
  | modified =>
    obtain rfl : holders = {owner} := ok
    by_cases same : owner = requesterID <;> cases isWrite <;>
      simp_all [DirectoryEntry.request,DirectoryEntry.requestModified,MESIAction.noAction]
  | shared =>
    obtain ⟨rfl,notExclusive⟩ := ok
    have source : (DirectoryEntry.request ⟨addr,.shared,sharers,owner⟩ requesterID isWrite).1.forwarderID =
        if requesterID ∈ sharers then -1 else sharers.head?.getD (-1) := by
      cases isWrite <;> simp [DirectoryEntry.request,DirectoryEntry.requestShared,DirectoryEntry.source_eq,MESIAction.noAction]
    rw [source] at named ⊢
    split at named
    · exact absurd rfl named
    · next stranger =>
      rw [if_neg stranger]
      rcases sharers with _ | ⟨sharer,rest⟩
      · exact absurd rfl named
      · simp

/-- The first request for a line makes the requester its only holder. -/
theorem lineOk_first (addr : UInt64) (requesterID : Int) (isWrite : Bool) (exclusive : Bool) :
    LineOk (heldAfter ∅ requesterID (DirectoryEntry.requestFirst addr requesterID isWrite).1)
      (exclusiveAfter exclusive (DirectoryEntry.requestFirst addr requesterID isWrite).1) false
      (some (DirectoryEntry.requestFirst addr requesterID isWrite).2) := by
  simp [DirectoryEntry.requestFirst,MESIAction.noAction,DirectoryEntry.allocated,LineOk,heldAfter]

/-- All holders of a line are named by its entry. -/
theorem LineOk.subset (ok : LineOk holders exclusive evicted (some entry)) : holders ⊆ entry.recorded := by
  obtain ⟨addr,state,sharers,owner⟩ := entry
  cases state with
  | notPresent => exact absurd ok id
  | shared => exact ok.1 ▸ Finset.subset_insert ..
  | exclusive | modified =>
    obtain rfl : holders = {owner} := ok
    simp [DirectoryEntry.recorded]

end

/-! ### All lines -/

section
variable {t t' : Tracked} {r : Request}

theorem Holders.lose_subset (holders : Holders) (line : Option EvictedLine) (x : UInt64) :
    holders.lose line x ⊆ holders x := by
  rcases line with _ | line
  · exact subset_rfl
  · by_cases here : x = line.addr
    · subst here
      rw [Holders.lose,Function.update_self]
      exact Finset.sdiff_subset
    · simp [Holders.lose,here]

/-- A line that is given up has no holder left, and the others are not touched. -/
theorem lineOk_lose {line : Option EvictedLine} (ok : LinesOk t) (givesUp : t.dir.GivesUp line) (x : UInt64) :
    LineOk (t.holders.lose line x) (t.exclusive x) (t.evicted x || line.any (fun line => line.addr = x))
      (t.dir.findAfter line x) := by
  rcases line with _ | line
  · simpa [Holders.lose] using ok x
  · by_cases here : line.addr = x
    · subst here
      obtain ⟨entry,found,same⟩ := givesUp line rfl
      have held := ok line.addr
      rw [found] at held
      have none_left : t.holders line.addr \ insert line.owner line.sharers.toFinset = ∅ := by
        rw [same]
        exact Finset.sdiff_eq_empty_iff_subset.mpr held.subset
      simp [Holders.lose,FullyAssociativeDirectory.findAfter,LineOk,none_left]
    · simpa [Holders.lose,FullyAssociativeDirectory.findAfter,here,Function.update_of_ne (Ne.symm here)] using ok x

theorem LinesOk.request (ok : LinesOk t) (requested : t.request r = some t') : LinesOk t' := by
  obtain ⟨⟨line,action,dir⟩,handled,rest⟩ := Option.bind_eq_some_iff.mp requested
  cases rest
  -- a line that is not recorded as present has no entry, and so no holder
  have absent : (t.dir.find r.addr).filter (fun entry => entry.state ≠ .notPresent) = none → t.holders r.addr = ∅ := by
    intro nothing
    have here := ok r.addr
    rcases found : t.dir.find r.addr with _ | ⟨addr,state,sharers,owner⟩ <;> rw [found] at here nothing
    · exact here.1
    · obtain rfl : state = .notPresent := by simpa using nothing
      exact absurd here id
  rcases FullyAssociativeDirectory.handleMESIRequest_some handled with
    ⟨nothing,rfl,replaces⟩ | ⟨entry,found,recorded,rfl,rfl,replaces⟩ <;> intro x
  · have others := lineOk_lose ok replaces.givesUp x
    simp only [replaces.find]
    by_cases here : x = r.addr
    · subst here
      have none_held : t.holders.lose line r.addr = ∅ := by
        have lost := t.holders.lose_subset line r.addr
        rwa [absent nothing,Finset.subset_empty] at lost
      simpa [none_held] using lineOk_first r.addr r.requesterID r.isWrite (t.exclusive r.addr)
    · simpa [here] using others
  · simp only [replaces.find]
    by_cases here : x = r.addr
    · subst here
      have held := ok r.addr
      rw [found] at held
      simpa [Holders.lose] using held.request
    · simpa [here,Holders.lose] using ok x

end

/-- Under any requests, whatever lines are given up: the holders of a line are
    named by its entry, a line granted exclusively and neither shared nor given up
    since has one holder, and a forwarder named to the next requester holds the
    line. -/
theorem single_writer (capacity : Int) (t : Tracked)
    (reach : Reachable Tracked.request (.start capacity) t) (x : UInt64) :
    t.holders x ⊆ ((t.dir.find x).map DirectoryEntry.recorded).getD ∅ ∧
    (t.exclusive x = true → t.evicted x = false → (t.holders x).card = 1) ∧
    (∀ victim requesterID isWrite line action dir,
      t.dir.handleMESIRequest victim x requesterID isWrite = some (line,action,dir) →
        action.forwarderID ≠ -1 → action.forwarderID ∈ t.holders x) := by
  have ok : LinesOk t := reach.invariant (linesOk_start capacity) (fun _ before _ requested => before.request requested)
  have here := ok x
  refine ⟨?_,fun granted kept => ?_,fun victim requesterID isWrite line action dir handled named => ?_⟩
  · rcases found : t.dir.find x with _ | entry <;> rw [found] at here
    · exact here.1.le
    · exact here.subset
  · rcases found : t.dir.find x with _ | ⟨addr,state,sharers,owner⟩ <;> rw [found] at here
    · exact absurd (here.2 granted) (by simp [kept])
    · cases state with
      | notPresent => exact absurd here id
      | shared => exact absurd granted (by simp [here.2])
      | exclusive | modified =>
        rw [show t.holders x = {owner} from here]
        exact Finset.card_singleton owner
  · rcases FullyAssociativeDirectory.handleMESIRequest_some handled with
      ⟨_,rfl,_⟩ | ⟨entry,found,_,_,rfl,_⟩
    · exact absurd rfl named
    · rw [found] at here
      exact here.forwarder named

/-- A line that one cache reads, another reads, and the first writes. -/
theorem single_writer_shared_line :
    let requests : List Request := [⟨0,5,1,false⟩,⟨0,5,2,false⟩,⟨0,5,1,true⟩]
    let t := (runActions Tracked.request (fun _ _ => True) requests (.start 2)).get (by decide +kernel)
    t.exclusive 5 = true ∧ t.evicted 5 = false ∧ t.holders 5 = {1} ∧ (t.holders 5).card = 1 :=
  ⟨by decide +kernel,by decide +kernel,by decide +kernel,
    (single_writer 2 _ (reaches_runActions _ (Option.some_get _).symm) 5).2.1 (by decide +kernel) (by decide +kernel)⟩

/-- A line granted exclusively, and given up for another before it is shared, has
    no holder. -/
theorem evicted_line_has_no_holder :
    ¬ ∀ (capacity : Int) (t : Tracked), Reachable Tracked.request (.start capacity) t →
      ∀ x, t.exclusive x = true → (t.holders x).card = 1 := by
  intro one
  let t := (runActions Tracked.request (fun _ _ => True) [⟨0,5,1,false⟩,⟨5,6,2,false⟩] (.start 1)).get (by decide +kernel)
  have reach : Reachable Tracked.request (.start 1) t := reaches_runActions _ (Option.some_get _).symm
  exact absurd (one 1 t reach 5 (by decide +kernel)) (by decide +kernel)

end FlowSim.Directory
