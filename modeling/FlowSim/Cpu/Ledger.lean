import FlowSim.Cpu.O3CPU

/-!
The ledger of the memory operations: what the instructions of a core know of their loads
and stores, the entries of the two queues, and the accesses made so far. An operation
waits when its access is among those that wait for their blocks; the ledger is sound for
them when no operation that waits is done with.
-/
namespace FlowSim.Cpu
set_option linter.unusedSimpArgs false

/-- What an instruction knows of its memory operations. -/
structure Work where
  instrID : Nat
  operands : AccessType → List UInt64
  executed : Bool
  completed : Bool
  completedMemOps : Nat

structure Ledger where
  works : List Work
  coming : List Work
  next : Nat
  entries : AccessType → List LSQEntry
  accesses : List CacheAccess
  awaited : List Nat

/-- The entries of an instruction that are not completed, in their order. -/
def left (instrID : Nat) (entries : List LSQEntry) : List LSQEntry :=
  entries.filter (fun entry => entry.instrID = instrID && !entry.completed)

def LSQEntry.done (cycle : Nat) (entry : LSQEntry) : LSQEntry := { entry with completed := true, completeCycle := cycle }

/-- The entries of an instruction. -/
def entriesOf (instrID : Nat) (entries : List LSQEntry) : List LSQEntry :=
  entries.filter (fun entry => entry.instrID = instrID)

/-- The operation of the entry is among those that wait. -/
def Waiting (waits : List CacheAccess) (accessType : AccessType) (entry : LSQEntry) : Prop :=
  ∃ access ∈ waits, access.accessType = accessType ∧ access.instrID = entry.instrID ∧ access.addr = entry.virtualAddr

theorem Waiting.mono {waits waits' : List CacheAccess} (subset : waits' ⊆ waits) {accessType : AccessType} {entry : LSQEntry}
    (waiting : Waiting waits' accessType entry) : Waiting waits accessType entry := by
  obtain ⟨access,member,rest⟩ := waiting
  exact ⟨access,subset member,rest⟩

def doneOf (instrID : Nat) (entries : List LSQEntry) : Nat := (entriesOf instrID entries).countP LSQEntry.completed

namespace Work

def numMemOps (w : Work) : Nat := (w.operands .store).length + (w.operands .load).length

end Work

/-! ### Completing an entry -/

theorem left_cases (instrID cycle : Nat) : ∀ entries : List LSQEntry,
    (completeEntry instrID cycle entries = none ∧ left instrID entries = []) ∨
    ∃ before entry after, entries = before ++ entry :: after ∧ left instrID before = [] ∧ entry.instrID = instrID ∧
      entry.completed = false ∧ completeEntry instrID cycle entries = some (before ++ entry.done cycle :: after)
  | [] => .inl ⟨rfl,rfl⟩
  | entry :: rest => by
    by_cases here : (entry.instrID = instrID && !entry.completed) = true
    · refine .inr ⟨[],entry,rest,rfl,rfl,?_,?_,?_⟩
      · simp only [Bool.and_eq_true,decide_eq_true_eq] at here
        exact here.1
      · simp only [Bool.and_eq_true,Bool.not_eq_true'] at here
        exact here.2
      · rw [completeEntry,if_pos here]
        rfl
    · rcases left_cases instrID cycle rest with ⟨absent,nothing⟩ | ⟨before,other,after,split,nothing,mine,open_,completed⟩
      · refine .inl ⟨?_,?_⟩
        · rw [completeEntry,if_neg here,absent]
          rfl
        · rw [left,List.filter_cons,if_neg here]
          exact nothing
      · refine .inr ⟨entry :: before,other,after,?_,?_,mine,open_,?_⟩
        · rw [split]
          rfl
        · rw [left,List.filter_cons,if_neg here]
          exact nothing
        · rw [completeEntry,if_neg here,completed]
          rfl

/-- Completing takes the first entry of those left. -/
theorem left_split {instrID : Nat} {before after : List LSQEntry} {entry : LSQEntry} (nothing : left instrID before = [])
    (mine : entry.instrID = instrID) (open_ : entry.completed = false) :
    left instrID (before ++ entry :: after) = entry :: left instrID after := by
  unfold left at nothing ⊢
  rw [List.filter_append,nothing,List.nil_append,List.filter_cons_of_pos]
  simp [mine,open_]

theorem left_done {instrID : Nat} {before after : List LSQEntry} {entry : LSQEntry} {cycle : Nat}
    (nothing : left instrID before = []) : left instrID (before ++ entry.done cycle :: after) = left instrID after := by
  unfold left at nothing ⊢
  rw [List.filter_append,nothing,List.nil_append,List.filter_cons_of_neg]
  simp [LSQEntry.done]

theorem left_other {instrID other : Nat} {before after : List LSQEntry} {entry : LSQEntry} {cycle : Nat}
    (mine : entry.instrID = instrID) (different : other ≠ instrID) :
    left other (before ++ entry.done cycle :: after) = left other (before ++ entry :: after) := by
  have no_match : entry.instrID ≠ other := by
    rw [mine]
    exact different.symm
  simp [left,LSQEntry.done,no_match]

/-! ### What happens in the ledger -/

namespace Ledger

/-- The first work with the id has one more operation done. -/
def countWork (instrID : Nat) : List Work → List Work
  | [] => []
  | w :: rest =>
    if w.instrID = instrID then { w with completedMemOps := w.completedMemOps + 1 } :: rest
    else w :: countWork instrID rest

/-- The first operation of the instruction that is left is done. -/
def complete (l : Ledger) (accessType : AccessType) (instrID cycle : Nat) : Ledger :=
  match completeEntry instrID cycle (l.entries accessType) with
  | none => l
  | some entries => { l with entries := Function.update l.entries accessType entries, works := countWork instrID l.works }

/-- How many entries of the instruction are completed. -/
def doneCount (l : Ledger) (instrID : Nat) : Nat := doneOf instrID (l.entries .store) + doneOf instrID (l.entries .load)

def completeAll (l : Ledger) (accessType : AccessType) (cycle : Nat) (ids : List Nat) : Ledger :=
  ids.foldl (fun l instrID => l.complete accessType instrID cycle) l

/-- The oldest instruction leaves, its operations done. -/
inductive Leave : Ledger → Ledger → Prop where
  | retire {l : Ledger} {w : Work} {rest works coming : List Work} {entries : AccessType → List LSQEntry}
      (here : l.works = w :: rest) (finished : w.completed = true) (older : works.Sublist rest)
      (later : coming.Sublist l.coming) (removed : ∀ accessType, entries accessType = l.entries accessType ∨
        entries accessType = (l.entries accessType).eraseP (fun entry => entry.instrID = w.instrID)) :
      Leave l { l with works, coming, entries }

/-- Instructions come in, enter with their entries, are executed and finish. -/
inductive Move : Ledger → Ledger → Prop where
  | finish {l : Ledger} {before after : List Work} {w : Work} (here : l.works = before ++ w :: after)
      (ran : w.executed = true) (all : w.numMemOps ≤ w.completedMemOps) :
      Move l { l with works := before ++ { w with completed := true } :: after }
  | execute {l : Ledger} {before after : List Work} {w : Work} {made : List CacheAccess} {awaited : List Nat}
      (here : l.works = before ++ w :: after) (first : w.executed = false)
      (mine : ∀ access ∈ made, access.instrID = w.instrID ∧ access.addr ∈ w.operands access.accessType)
      (awaits : ∀ id ∈ awaited, id ∈ l.awaited ∨ id ∈ made.map CacheAccess.instrID) :
      Move l { l with works := before ++ { w with executed := true } :: after, accesses := l.accesses ++ made, awaited }
  | enter {l : Ledger} {w : Work} {rest : List Work} {entries : AccessType → List LSQEntry} (queue : l.coming = w :: rest)
      (added : ∀ accessType, ∃ new, entries accessType = l.entries accessType ++ new ∧
        (∀ entry ∈ new, entry.instrID = w.instrID ∧ entry.completed = false) ∧
        (new.map LSQEntry.virtualAddr).Sublist (w.operands accessType)) :
      Move l { l with works := l.works ++ [w], coming := rest, entries }
  | fetch {l : Ledger} {w : Work} (untouched : w.executed = false ∧ w.completed = false ∧ w.completedMemOps = 0)
      (numbered : w.instrID = l.next) : Move l { l with coming := l.coming ++ [w], next := l.next + 1 }

/-- No operation that waits is done with: its entry is not completed, and neither is its
    instruction. The rest says what the entries of an instruction are. -/
structure Tracked (l : Ledger) (waits : List CacheAccess) : Prop where
  ordered : ((l.works ++ l.coming).map Work.instrID).Pairwise (· < ·)
  below : ∀ w ∈ l.works ++ l.coming, w.instrID < l.next
  untouched : ∀ w ∈ l.coming, w.executed = false ∧ w.completed = false ∧ w.completedMemOps = 0
  entered : ∀ accessType, ∀ entry ∈ l.entries accessType, entry.instrID < l.next ∧ ∀ w ∈ l.coming, entry.instrID < w.instrID
  executed : ∀ access ∈ l.accesses, access.instrID < l.next ∧
    ∀ w ∈ l.works ++ l.coming, access.instrID = w.instrID → w.executed = true
  ran : ∀ w ∈ l.works, w.completed = true → w.executed = true
  awaited : ∀ id ∈ l.awaited, id ∈ l.accesses.map CacheAccess.instrID
  accessed : ∀ accessType, ∀ entry ∈ l.entries accessType, entry.completed = true → entry.instrID ∈ l.accesses.map CacheAccess.instrID
  placed : ∀ w ∈ l.works, ∀ accessType,
    ((entriesOf w.instrID (l.entries accessType)).map LSQEntry.virtualAddr).Sublist (w.operands accessType)
  counted : ∀ w ∈ l.works, w.completedMemOps ≤ doneOf w.instrID (l.entries .store) + doneOf w.instrID (l.entries .load)
  finished : ∀ w ∈ l.works, w.completed = true → ∀ accessType, ∀ entry ∈ l.entries accessType,
    entry.instrID = w.instrID → entry.completed = true
  made : ∀ access ∈ waits, access ∈ l.accesses
  operand : ∀ access ∈ waits, ∀ w ∈ l.works, access.instrID = w.instrID → access.addr ∈ w.operands access.accessType
  unfinished : ∀ access ∈ waits, ∀ w ∈ l.works, access.instrID = w.instrID → w.completed = false
  open_ : ∀ accessType, ∀ entry ∈ l.entries accessType, Waiting waits accessType entry → entry.completed = false

/-! ### Completing keeps the ledger sound -/

section
variable {l : Ledger} {waits : List CacheAccess}

theorem complete_cases (l : Ledger) (accessType : AccessType) (instrID cycle : Nat) :
    (left instrID (l.entries accessType) = [] ∧ l.complete accessType instrID cycle = l) ∨
    ∃ before entry after, l.entries accessType = before ++ entry :: after ∧ left instrID before = [] ∧
      entry.instrID = instrID ∧ entry.completed = false ∧ l.complete accessType instrID cycle =
        { l with entries := Function.update l.entries accessType (before ++ entry.done cycle :: after)
                 works := countWork instrID l.works } := by
  unfold complete
  rcases left_cases instrID cycle (l.entries accessType) with ⟨absent,nothing⟩ | ⟨before,entry,after,split,nothing,mine,open_,completed⟩
  · rw [absent]
    exact .inl ⟨nothing,rfl⟩
  · rw [completed]
    exact .inr ⟨before,entry,after,split,nothing,mine,open_,rfl⟩

theorem ids_countWork (instrID : Nat) : ∀ works : List Work, (countWork instrID works).map Work.instrID = works.map Work.instrID
  | [] => rfl
  | w :: rest => by
    rw [countWork]
    split
    · rfl
    · rw [List.map_cons,List.map_cons,ids_countWork instrID rest]

theorem mem_countWork {instrID : Nat} {w' : Work} : ∀ {works : List Work}, w' ∈ countWork instrID works →
    ∃ w ∈ works, ∃ done, w' = { w with completedMemOps := w.completedMemOps + done } ∧
      done ≤ if w.instrID = instrID then 1 else 0
  | w :: rest, member => by
    rw [countWork] at member
    split at member
    · next same =>
      rcases List.mem_cons.mp member with rfl | later
      · exact ⟨w,List.mem_cons_self,1,rfl,by rw [if_pos same]⟩
      · exact ⟨w',List.mem_cons_of_mem _ later,0,rfl,Nat.zero_le _⟩
    · rcases List.mem_cons.mp member with rfl | later
      · exact ⟨w',List.mem_cons_self,0,rfl,Nat.zero_le _⟩
      · obtain ⟨x,inside,changed⟩ := mem_countWork later
        exact ⟨x,List.mem_cons_of_mem _ inside,changed⟩

theorem entriesOf_done (instrID cycle : Nat) (before after : List LSQEntry) (entry : LSQEntry) :
    (entriesOf instrID (before ++ entry.done cycle :: after)).map LSQEntry.virtualAddr =
      (entriesOf instrID (before ++ entry :: after)).map LSQEntry.virtualAddr := by
  by_cases mine : entry.instrID = instrID
  · simp [entriesOf,LSQEntry.done,mine]
  · simp [entriesOf,LSQEntry.done,mine]

theorem doneOf_done (instrID cycle : Nat) (before after : List LSQEntry) {entry : LSQEntry} (open_ : entry.completed = false) :
    doneOf instrID (before ++ entry.done cycle :: after) =
      doneOf instrID (before ++ entry :: after) + if entry.instrID = instrID then 1 else 0 := by
  by_cases mine : entry.instrID = instrID
  · simp [doneOf,entriesOf,LSQEntry.done,mine,open_]
    omega
  · simp [doneOf,entriesOf,LSQEntry.done,mine,open_]

/-- Completing an entry leaves the addresses. -/
theorem operands_complete (l : Ledger) (accessType : AccessType) (instrID cycle id : Nat) (other : AccessType) :
    (entriesOf id ((l.complete accessType instrID cycle).entries other)).map LSQEntry.virtualAddr =
      (entriesOf id (l.entries other)).map LSQEntry.virtualAddr := by
  rcases complete_cases l accessType instrID cycle with ⟨_,same⟩ | ⟨before,entry,after,split,_,_,_,changed⟩
  · rw [same]
  · rw [changed]
    dsimp only
    by_cases this : other = accessType
    · subst this
      rw [Function.update_self,split,entriesOf_done]
    · rw [Function.update_of_ne this]

/-- With an entry left, one more is completed of the instruction. -/
theorem done_complete {accessType : AccessType} {instrID : Nat} (some_left : left instrID (l.entries accessType) ≠ [])
    (cycle id : Nat) : (l.complete accessType instrID cycle).doneCount id = l.doneCount id + if id = instrID then 1 else 0 := by
  rcases complete_cases l accessType instrID cycle with ⟨nothing,_⟩ | ⟨before,entry,after,split,_,mine,open_,changed⟩
  · exact absurd nothing some_left
  have one := doneOf_done id cycle before after open_
  rw [← split,mine] at one
  rw [changed,doneCount,doneCount]
  dsimp only
  cases accessType with
  | load =>
    rw [Function.update_self,Function.update_of_ne (by decide),one]
    simp only [eq_comm (a := id)]
    omega
  | store =>
    rw [Function.update_self,Function.update_of_ne (by decide),one]
    simp only [eq_comm (a := id)]
    omega

/-- What is in a queue after a completion. -/
theorem mem_complete {accessType other : AccessType} {instrID cycle : Nat} {entry' : LSQEntry}
    (member : entry' ∈ (l.complete accessType instrID cycle).entries other) :
    entry' ∈ l.entries other ∨ other = accessType ∧
      ∃ entry, (left instrID (l.entries accessType)).head? = some entry ∧ entry' = entry.done cycle := by
  rcases complete_cases l accessType instrID cycle with ⟨_,same⟩ | ⟨before,entry,after,split,nothing,mine,open_,changed⟩
  · rw [same] at member
    exact .inl member
  · rw [changed] at member
    dsimp only at member
    by_cases this : other = accessType
    · subst this
      rw [Function.update_self] at member
      rcases List.mem_append.mp member with early | late
      · exact .inl (split ▸ List.mem_append_left _ early)
      rcases List.mem_cons.mp late with rfl | late
      · refine .inr ⟨rfl,entry,?_,rfl⟩
        rw [split,left_split nothing mine open_]
        rfl
      · exact .inl (split ▸ List.mem_append_right _ (List.mem_cons_of_mem _ late))
    · rw [Function.update_of_ne this] at member
      exact .inl member

/-- An entry that does not wait is completed, of an instruction that has made accesses. -/
theorem Tracked.done (tracked : l.Tracked waits) {accessType : AccessType} {before after : List LSQEntry} {entry : LSQEntry}
    (split : l.entries accessType = before ++ entry :: after) (open_ : entry.completed = false)
    (accessed : entry.instrID ∈ l.accesses.map CacheAccess.instrID) (ready : ¬ Waiting waits accessType entry) (cycle : Nat) :
    { l with entries := Function.update l.entries accessType (before ++ entry.done cycle :: after) }.Tracked waits := by
  have inside : entry ∈ l.entries accessType := split ▸ List.mem_append_right _ List.mem_cons_self
  have old : ∀ other, ∀ entry' ∈ Function.update l.entries accessType (before ++ entry.done cycle :: after) other,
      entry' ∈ l.entries other ∨ other = accessType ∧ entry' = entry.done cycle := by
    intro other entry' member
    by_cases this : other = accessType
    · subst this
      rw [Function.update_self] at member
      rcases List.mem_append.mp member with early | late
      · exact .inl (split ▸ List.mem_append_left _ early)
      · rcases List.mem_cons.mp late with rfl | late
        · exact .inr ⟨rfl,rfl⟩
        · exact .inl (split ▸ List.mem_append_right _ (List.mem_cons_of_mem _ late))
    · rw [Function.update_of_ne this] at member
      exact .inl member
  have more : ∀ id other, doneOf id (l.entries other) ≤
      doneOf id (Function.update l.entries accessType (before ++ entry.done cycle :: after) other) := by
    intro id other
    by_cases this : other = accessType
    · subst this
      rw [Function.update_self,split,doneOf_done id cycle before after open_]
      exact Nat.le_add_right ..
    · rw [Function.update_of_ne this]
  refine { tracked with entered := ?_, accessed := ?_, placed := ?_, counted := ?_, finished := ?_, open_ := ?_ }
  · intro other entry' member
    rcases old other entry' member with same | ⟨rfl,rfl⟩
    · exact tracked.entered other entry' same
    · exact tracked.entered other entry inside
  · intro other entry' member completed
    rcases old other entry' member with same | ⟨rfl,rfl⟩
    · exact tracked.accessed other entry' same completed
    · exact accessed
  · intro w member other
    by_cases this : other = accessType
    · subst this
      dsimp only
      rw [Function.update_self,entriesOf_done,← split]
      exact tracked.placed w member other
    · dsimp only
      rw [Function.update_of_ne this]
      exact tracked.placed w member other
  · intro w member
    exact (tracked.counted w member).trans (Nat.add_le_add (more _ _) (more _ _))
  · intro w member completed other entry' member' same
    rcases old other entry' member' with here | ⟨rfl,rfl⟩
    · exact tracked.finished w member completed other entry' here same
    · rfl
  · intro other entry' member waiting
    rcases old other entry' member with same | ⟨rfl,rfl⟩
    · exact tracked.open_ other entry' same waiting
    · exact absurd waiting ready

/-- An operation more is counted, where there is an entry for it. -/
theorem Tracked.count (tracked : l.Tracked waits) {instrID : Nat}
    (spare : ∀ w ∈ l.works, w.completedMemOps + (if w.instrID = instrID then 1 else 0) ≤ l.doneCount w.instrID) :
    { l with works := countWork instrID l.works }.Tracked waits := by
  have old_work : ∀ w' ∈ countWork instrID l.works ++ l.coming, ∃ w ∈ l.works ++ l.coming,
      w'.instrID = w.instrID ∧ w'.executed = w.executed := by
    intro w' member
    rcases List.mem_append.mp member with counted | waiting
    · obtain ⟨w,here,done,rfl,_⟩ := mem_countWork counted
      exact ⟨w,List.mem_append_left _ here,rfl,rfl⟩
    · exact ⟨w',List.mem_append_right _ waiting,rfl,rfl⟩
  refine { tracked with
    ordered := ?_, below := ?_, executed := ?_, ran := ?_, placed := ?_, counted := ?_, finished := ?_, operand := ?_,
    unfinished := ?_ }
  · dsimp only
    rw [List.map_append,ids_countWork,← List.map_append]
    exact tracked.ordered
  · intro w' member
    obtain ⟨w,here,id,_⟩ := old_work w' member
    rw [id]
    exact tracked.below w here
  · intro access member
    refine ⟨(tracked.executed access member).1,fun w' here same => ?_⟩
    obtain ⟨w,here,id,ran⟩ := old_work w' here
    rw [ran]
    exact (tracked.executed access member).2 w here (same.trans id)
  · intro w' member
    obtain ⟨w,here,_,rfl,_⟩ := mem_countWork member
    exact tracked.ran w here
  · intro w' member
    obtain ⟨w,here,_,rfl,_⟩ := mem_countWork member
    exact tracked.placed w here
  · intro w' member
    obtain ⟨w,here,done,rfl,few⟩ := mem_countWork member
    exact (Nat.add_le_add_left few _).trans (spare w here)
  · intro w' member
    obtain ⟨w,here,_,rfl,_⟩ := mem_countWork member
    exact tracked.finished w here
  · intro access member w' counted
    obtain ⟨w,here,_,rfl,_⟩ := mem_countWork counted
    exact tracked.operand access member w here
  · intro access member w' counted
    obtain ⟨w,here,_,rfl,_⟩ := mem_countWork counted
    exact tracked.unfinished access member w here

/-- An operation that does not wait may be done. -/
theorem Tracked.complete (tracked : l.Tracked waits) (accessType : AccessType) (instrID cycle : Nat)
    (accessed : instrID ∈ l.accesses.map CacheAccess.instrID)
    (ready : ∀ entry, (left instrID (l.entries accessType)).head? = some entry → ¬ Waiting waits accessType entry) :
    (l.complete accessType instrID cycle).Tracked waits := by
  rcases complete_cases l accessType instrID cycle with ⟨_,same⟩ | ⟨before,entry,after,split,nothing,mine,open_,changed⟩
  · rw [same]
    exact tracked
  have opens : left instrID (before ++ entry :: after) = entry :: left instrID after := left_split nothing mine open_
  rw [← split] at opens
  have first : (left instrID (l.entries accessType)).head? = some entry := by rw [opens]; rfl
  have some_left : left instrID (l.entries accessType) ≠ [] := by rw [opens]; exact List.cons_ne_nil _ _
  have done := tracked.done split open_ (mine ▸ accessed) (ready entry first) cycle
  rw [changed]
  refine done.count fun w member => ?_
  have before_ := tracked.counted w member
  have now := done_complete some_left cycle w.instrID
  rw [changed] at now
  unfold doneCount at now ⊢
  dsimp only at now ⊢
  omega

theorem complete_accesses (l : Ledger) (accessType : AccessType) (instrID cycle : Nat) :
    (l.complete accessType instrID cycle).accesses = l.accesses ∧
      (l.complete accessType instrID cycle).awaited = l.awaited := by
  rcases complete_cases l accessType instrID cycle with ⟨_,same⟩ | ⟨_,_,_,_,_,_,_,changed⟩
  · rw [same]
    exact ⟨rfl,rfl⟩
  · rw [changed]
    exact ⟨rfl,rfl⟩

/-- One less is left of the instruction's operations. -/
theorem left_complete (l : Ledger) (accessType : AccessType) (instrID cycle : Nat) (other : AccessType) (id : Nat) :
    left id ((l.complete accessType instrID cycle).entries other) =
      if other = accessType ∧ id = instrID then (left id (l.entries other)).tail else left id (l.entries other) := by
  rcases complete_cases l accessType instrID cycle with ⟨nothing,same⟩ | ⟨before,entry,after,split,nothing,mine,open_,changed⟩
  · rw [same]
    split
    · next here =>
      rw [here.1,here.2,nothing]
      rfl
    · rfl
  · rw [changed]
    dsimp only
    by_cases kind : other = accessType
    · subst kind
      rw [Function.update_self]
      by_cases this : id = instrID
      · subst this
        rw [if_pos ⟨rfl,rfl⟩,split,left_split nothing mine open_,left_done nothing]
        rfl
      · rw [if_neg (fun both => this both.2),split,left_other mine this]
    · rw [Function.update_of_ne kind,if_neg (fun both => kind both.1)]

/-- What is done stays done. -/
theorem stays_complete {accessType other : AccessType} {instrID cycle : Nat} {entry : LSQEntry}
    (member : entry ∈ l.entries other) (completed : entry.completed = true) :
    entry ∈ (l.complete accessType instrID cycle).entries other := by
  rcases complete_cases l accessType instrID cycle with ⟨_,same⟩ | ⟨before,first,after,split,_,_,open_,changed⟩
  · rw [same]
    exact member
  · rw [changed]
    dsimp only
    by_cases kind : other = accessType
    · subst kind
      rw [Function.update_self]
      rw [split] at member
      rcases List.mem_append.mp member with early | late
      · exact List.mem_append_left _ early
      rcases List.mem_cons.mp late with rfl | late
      · rw [open_] at completed
        cases completed
      · exact List.mem_append_right _ (List.mem_cons_of_mem _ late)
    · rw [Function.update_of_ne kind]
      exact member

theorem stays_completeAll {accessType other : AccessType} {cycle : Nat} {entry : LSQEntry} (completed : entry.completed = true) :
    ∀ (ids : List Nat) {l : Ledger}, entry ∈ l.entries other → entry ∈ (l.completeAll accessType cycle ids).entries other
  | [], _, member => member
  | _ :: rest, _, member => stays_completeAll completed rest (stays_complete member completed)

theorem completeAll_accesses (accessType : AccessType) (cycle : Nat) : ∀ (ids : List Nat) (l : Ledger),
    (l.completeAll accessType cycle ids).accesses = l.accesses ∧ (l.completeAll accessType cycle ids).awaited = l.awaited
  | [], _ => ⟨rfl,rfl⟩
  | id :: rest, l => by
    obtain ⟨accesses,awaited⟩ := complete_accesses l accessType id cycle
    obtain ⟨accesses',awaited'⟩ := completeAll_accesses accessType cycle rest (l.complete accessType id cycle)
    exact ⟨accesses'.trans accesses,awaited'.trans awaited⟩

theorem left_completeAll {accessType other : AccessType} (different : other ≠ accessType) (cycle id : Nat) :
    ∀ (ids : List Nat) (l : Ledger), left id ((l.completeAll accessType cycle ids).entries other) = left id (l.entries other)
  | [], _ => rfl
  | first :: rest, l => by
    rw [completeAll,List.foldl_cons]
    refine (left_completeAll different cycle id rest _).trans ?_
    rw [left_complete,if_neg fun both => different both.1]

/-- As many of an instruction's operations as it has ids are done, the first ones. -/
theorem mem_take_complete (cycle : Nat) {accessType : AccessType} {instrID id : Nat} {rest : List Nat} {entry : LSQEntry} :
    entry ∈ (left id (l.entries accessType)).take ((instrID :: rest).count id) ↔
      (id = instrID ∧ (left instrID (l.entries accessType)).head? = some entry) ∨
        entry ∈ (left id ((l.complete accessType instrID cycle).entries accessType)).take (rest.count id) := by
  rw [left_complete,List.count_cons]
  by_cases same : id = instrID
  · subst same
    rw [if_pos (beq_self_eq_true _),if_pos ⟨rfl,rfl⟩]
    cases left id (l.entries accessType) with
    | nil => simp
    | cons first others => simp [eq_comm]
  · rw [if_neg (by simpa using Ne.symm same),if_neg fun both => same both.2]
    simp [same]

theorem Tracked.completeAll (accessType : AccessType) (cycle : Nat) : ∀ (ids : List Nat) {l : Ledger}, l.Tracked waits →
    (∀ id ∈ ids, id ∈ l.accesses.map CacheAccess.instrID) →
    (∀ id, ∀ entry ∈ (left id (l.entries accessType)).take (ids.count id), ¬ Waiting waits accessType entry) →
    (l.completeAll accessType cycle ids).Tracked waits
  | [], _, tracked, _, _ => tracked
  | id :: rest, l, tracked, accessed, ready => by
    have first : (l.complete accessType id cycle).Tracked waits :=
      tracked.complete accessType id cycle (accessed id List.mem_cons_self) fun entry taken =>
        ready id entry ((mem_take_complete cycle).mpr (.inl ⟨rfl,taken⟩))
    refine first.completeAll accessType cycle rest ?_ ?_
    · rw [(complete_accesses ..).1]
      exact fun other later => accessed other (List.mem_cons_of_mem _ later)
    · exact fun other entry member => ready other entry ((mem_take_complete cycle).mpr (.inr member))

theorem done_completeAll {accessType : AccessType} {cycle id : Nat} {entry : LSQEntry} : ∀ (ids : List Nat) {l : Ledger},
    entry ∈ (left id (l.entries accessType)).take (ids.count id) →
      entry.done cycle ∈ (l.completeAll accessType cycle ids).entries accessType
  | [], _, member => by simp at member
  | instrID :: rest, l, member => by
    rw [Ledger.completeAll,List.foldl_cons]
    rcases (mem_take_complete cycle).mp member with ⟨rfl,first⟩ | later
    · refine stays_completeAll rfl rest ?_
      rcases complete_cases l accessType id cycle with ⟨nothing,_⟩ | ⟨before,first',after,split,nothing,mine,open_,changed⟩
      · rw [nothing] at first
        cases first
      · rw [split,left_split nothing mine open_] at first
        obtain rfl := Option.some.inj first
        rw [changed]
        dsimp only
        rw [Function.update_self]
        exact List.mem_append_right _ List.mem_cons_self
    · exact done_completeAll rest later

/-! ### Leaving -/

theorem filter_eraseP {α : Type} {p q : α → Bool} : ∀ {items : List α}, (items.find? p).all (fun item => !q item) = true →
    (items.eraseP p).filter q = items.filter q
  | [], _ => rfl
  | item :: rest, apart => by
    by_cases here : p item = true
    · rw [List.find?_cons_of_pos here] at apart
      rw [List.eraseP_cons_of_pos here,List.filter_cons_of_neg (by simpa using apart)]
    · rw [List.find?_cons_of_neg here] at apart
      rw [List.eraseP_cons_of_neg here,List.filter_cons,List.filter_cons,filter_eraseP apart]

/-- An instruction leaves with one entry of its own from each queue, which was done. -/
theorem Leave.filter {l l' : Ledger} (left_ : Leave l l') (tracked : l.Tracked waits) {q : LSQEntry → Bool}
    (apart : ∀ w ∈ l.works.head?, ∀ entry, entry.instrID = w.instrID → entry.completed = true → q entry = false)
    (accessType : AccessType) : (l'.entries accessType).filter q = (l.entries accessType).filter q := by
  cases left_ with
  | @retire w rest works coming entries here finished older later removed =>
    rcases removed accessType with same | erased
    · exact congrArg _ same
    · refine (congrArg _ erased).trans (filter_eraseP ?_)
      rw [Option.all_eq_true]
      intro entry found
      have id : entry.instrID = w.instrID := by simpa using List.find?_some found
      have done := tracked.finished w (here ▸ List.mem_cons_self) finished accessType entry (List.mem_of_find?_eq_some found) id
      rw [apart w (by rw [here]; rfl) entry id done]
      rfl

theorem Leave.left {l l' : Ledger} (left_ : Leave l l') (tracked : l.Tracked waits) (accessType : AccessType) (id : Nat) :
    Cpu.left id (l'.entries accessType) = Cpu.left id (l.entries accessType) :=
  left_.filter tracked (fun _ _ _ _ done => by simp [done]) accessType

/-- The instructions that stay, and the entries that are left. -/
theorem Leave.subset {l l' : Ledger} (left_ : Leave l l') : l'.works.Sublist l.works ∧ l'.coming.Sublist l.coming ∧
    ∀ accessType, ∀ entry ∈ l'.entries accessType, entry ∈ l.entries accessType := by
  cases left_ with
  | @retire w rest works coming entries here finished older later removed =>
    refine ⟨here ▸ older.cons w,later,fun accessType entry member => ?_⟩
    rcases removed accessType with same | erased
    · exact same ▸ member
    · have member' : entry ∈ entries accessType := member
      rw [erased] at member'
      exact List.mem_of_mem_eraseP member'

/-- The entries of the instructions that stay are left alone. -/
theorem Leave.others {l l' : Ledger} (left_ : Leave l l') (ordered : ((l.works ++ l.coming).map Work.instrID).Pairwise (· < ·))
    {w' : Work} (member : w' ∈ l'.works) (accessType : AccessType) :
    entriesOf w'.instrID (l'.entries accessType) = entriesOf w'.instrID (l.entries accessType) := by
  cases left_ with
  | @retire w rest works coming entries here finished older later removed =>
    rw [here,List.cons_append,List.map_cons,List.pairwise_cons] at ordered
    have younger := ordered.1 w'.instrID (List.mem_map_of_mem (List.mem_append_left _ (older.subset member)))
    rcases removed accessType with same | erased
    · exact congrArg _ same
    · refine (congrArg _ erased).trans (filter_eraseP ?_)
      rw [Option.all_eq_true]
      intro entry found
      have id : entry.instrID = w.instrID := by simpa using List.find?_some found
      simp only [Bool.not_eq_true',decide_eq_false_iff_not]
      omega

theorem Tracked.leave {l l' : Ledger} (tracked : l.Tracked waits) (left_ : Leave l l') : l'.Tracked waits := by
  have others := fun w' member => @Leave.others l l' left_ tracked.ordered w' member
  obtain ⟨works_sub,later,fewer⟩ := left_.subset
  have inside := works_sub.append later
  cases left_ with
  | @retire w rest works coming entries here finished older _ removed =>
    constructor
    case ordered => exact tracked.ordered.sublist (inside.map _)
    case below => exact fun w' member => tracked.below w' (inside.subset member)
    case untouched => exact fun w' member => tracked.untouched w' (later.subset member)
    case entered =>
      intro accessType entry member
      obtain ⟨small,smaller⟩ := tracked.entered accessType entry (fewer accessType entry member)
      exact ⟨small,fun w' waiting => smaller w' (later.subset waiting)⟩
    case executed =>
      intro access member
      obtain ⟨small,ran⟩ := tracked.executed access member
      exact ⟨small,fun w' member' => ran w' (inside.subset member')⟩
    case ran => exact fun w' member => tracked.ran w' (works_sub.subset member)
    case awaited => exact tracked.awaited
    case accessed => exact fun accessType entry member => tracked.accessed accessType entry (fewer accessType entry member)
    case placed =>
      intro w' member accessType
      rw [others w' member]
      exact tracked.placed w' (works_sub.subset member) accessType
    case counted =>
      intro w' member
      rw [doneOf,doneOf,others w' member,others w' member]
      exact tracked.counted w' (works_sub.subset member)
    case finished =>
      exact fun w' member done accessType entry entered =>
        tracked.finished w' (works_sub.subset member) done accessType entry (fewer accessType entry entered)
    case made => exact tracked.made
    case operand => exact fun access member w' member' => tracked.operand access member w' (works_sub.subset member')
    case unfinished => exact fun access member w' member' => tracked.unfinished access member w' (works_sub.subset member')
    case open_ => exact fun accessType entry member => tracked.open_ accessType entry (fewer accessType entry member)

theorem accesses_of_leaves {l l' : Ledger} (left_ : Relation.ReflTransGen Leave l l') :
    l'.accesses = l.accesses ∧ l'.awaited = l.awaited := by
  induction left_ with
  | refl => exact ⟨rfl,rfl⟩
  | tail _ leave ih =>
    cases leave
    exact ih

theorem Tracked.leaves {l l' : Ledger} (tracked : l.Tracked waits) (left_ : Relation.ReflTransGen Leave l l') :
    l'.Tracked waits ∧ ∀ accessType id, Cpu.left id (l'.entries accessType) = Cpu.left id (l.entries accessType) := by
  induction left_ with
  | refl => exact ⟨tracked,fun _ _ => rfl⟩
  | tail _ leave ih =>
    obtain ⟨kept,same⟩ := ih
    exact ⟨kept.leave leave,fun accessType id => (leave.left kept accessType id).trans (same accessType id)⟩

/-! ### Coming in and being worked on -/

/-- Fewer operations wait, and fewer answers are awaited. -/
theorem Tracked.mono (tracked : l.Tracked waits) {waits' : List CacheAccess} (subset : waits' ⊆ waits) {awaited : List Nat}
    (fewer : awaited ⊆ l.awaited) : { l with awaited }.Tracked waits' :=
  { tracked with
    awaited := fun id member => tracked.awaited id (fewer member)
    made := fun access member => tracked.made access (subset member)
    operand := fun access member => tracked.operand access (subset member)
    unfinished := fun access member => tracked.unfinished access (subset member)
    open_ := fun accessType entry member waiting => tracked.open_ accessType entry member (waiting.mono subset) }

theorem entriesOf_append (id : Nat) (before after : List LSQEntry) :
    entriesOf id (before ++ after) = entriesOf id before ++ entriesOf id after := List.filter_append ..

/-- As many entries completed as there are operations: there is an entry for each, and all
    are completed. -/
theorem entries_all_done {w : Work} (placed : ∀ accessType,
      ((entriesOf w.instrID (l.entries accessType)).map LSQEntry.virtualAddr).Sublist (w.operands accessType))
    (all : w.numMemOps ≤ l.doneCount w.instrID) (accessType : AccessType) :
    (entriesOf w.instrID (l.entries accessType)).map LSQEntry.virtualAddr = w.operands accessType ∧
      ∀ entry ∈ entriesOf w.instrID (l.entries accessType), entry.completed = true := by
  rw [doneCount,Work.numMemOps] at all
  have size : ∀ kind, doneOf w.instrID (l.entries kind) ≤ (entriesOf w.instrID (l.entries kind)).length ∧
      (entriesOf w.instrID (l.entries kind)).length ≤ (w.operands kind).length := by
    intro kind
    have few := (placed kind).length_le
    rw [List.length_map] at few
    exact ⟨List.countP_le_length,few⟩
  have exactly : doneOf w.instrID (l.entries accessType) = (entriesOf w.instrID (l.entries accessType)).length ∧
      (entriesOf w.instrID (l.entries accessType)).length = (w.operands accessType).length := by
    have loads := size .load
    have stores := size .store
    cases accessType with
    | load => omega
    | store => omega
  refine ⟨(placed accessType).eq_of_length ?_,List.countP_eq_length.mp exactly.1⟩
  rw [List.length_map]
  exact exactly.2

/-- An instruction that knows all its operations to be done has an entry for each, and all
    are completed. -/
theorem Tracked.all_done (tracked : l.Tracked waits) {w : Work} (member : w ∈ l.works) (all : w.numMemOps ≤ w.completedMemOps)
    (accessType : AccessType) : (entriesOf w.instrID (l.entries accessType)).map LSQEntry.virtualAddr = w.operands accessType ∧
      ∀ entry ∈ l.entries accessType, entry.instrID = w.instrID → entry.completed = true := by
  obtain ⟨addresses,completed⟩ := entries_all_done (tracked.placed w member) (all.trans (tracked.counted w member)) accessType
  exact ⟨addresses,fun entry here id => completed entry (by simp [entriesOf,here,id])⟩

theorem mem_replaced {α : Type} {before after : List α} {x y z : α} (member : z ∈ before ++ y :: after) :
    z = y ∨ z ∈ before ++ x :: after := by
  simp only [List.mem_append,List.mem_cons] at member ⊢
  tauto

theorem Tracked.same_work (tracked : l.Tracked waits) {w w' : Work} (member : w ∈ l.works ++ l.coming)
    (member' : w' ∈ l.works ++ l.coming) (same : w.instrID = w'.instrID) : w = w' :=
  List.inj_on_of_nodup_map (tracked.ordered.imp fun smaller => Nat.ne_of_lt smaller) member member' same

/-- An instruction that is still to come has no entries. -/
theorem Tracked.none_entered (tracked : l.Tracked waits) {w : Work} (first : w ∈ l.coming) (accessType : AccessType) :
    entriesOf w.instrID (l.entries accessType) = [] := by
  rw [entriesOf,List.filter_eq_nil_iff]
  intro entry entered
  have smaller := (tracked.entered accessType entry entered).2 w first
  simp only [decide_eq_true_eq]
  omega

/-- An instruction that has not been executed has made no access. -/
theorem Tracked.not_accessed (tracked : l.Tracked waits) {w : Work} (member : w ∈ l.works ++ l.coming) (first : w.executed = false) :
    ∀ access ∈ l.accesses, access.instrID ≠ w.instrID := by
  intro access made same
  have ran := (tracked.executed access made).2 w member same
  rw [first] at ran
  cases ran

/-- An instruction is replaced by what it is after its execution. If that is completed which
    was not, all its operations are done, and none waits. -/
theorem Tracked.replace (tracked : l.Tracked waits) {before after : List Work} {w w₁ : Work} (here : l.works = before ++ w :: after)
    (id : w₁.instrID = w.instrID) (operands : w₁.operands = w.operands) (counted : w₁.completedMemOps = w.completedMemOps)
    (ran : w₁.executed = true) (done : w₁.completed = true → ∀ accessType, ∀ entry ∈ l.entries accessType,
      entry.instrID = w.instrID → entry.completed = true)
    (quiet : ∀ access ∈ waits, access.instrID = w.instrID → w₁.completed = false) :
    { l with works := before ++ w₁ :: after }.Tracked waits := by
  have inside : w ∈ l.works := here ▸ List.mem_append_right _ List.mem_cons_self
  have old : ∀ w' ∈ before ++ w₁ :: after, w' = w₁ ∨ w' ∈ l.works := by
    intro w' member
    rw [here]
    exact mem_replaced member
  have old' : ∀ w' ∈ before ++ w₁ :: after ++ l.coming, w' = w₁ ∨ w' ∈ l.works ++ l.coming := by
    intro w' member
    rcases List.mem_append.mp member with working | waiting
    · exact (old w' working).imp_right (List.mem_append_left _)
    · exact .inr (List.mem_append_right _ waiting)
  refine { tracked with
    ordered := ?_, below := ?_, executed := ?_, ran := ?_, placed := ?_, counted := ?_, finished := ?_, operand := ?_,
    unfinished := ?_ }
  · have ordered := tracked.ordered
    rw [here] at ordered
    simpa [id] using ordered
  · intro w' member
    rcases old' w' member with rfl | same
    · exact id ▸ tracked.below w (List.mem_append_left _ inside)
    · exact tracked.below w' same
  · intro access member
    refine ⟨(tracked.executed access member).1,fun w' member' same => ?_⟩
    rcases old' w' member' with rfl | same'
    · exact ran
    · exact (tracked.executed access member).2 w' same' same
  · intro w' member completed
    rcases old w' member with rfl | same
    · exact ran
    · exact tracked.ran w' same completed
  · intro w' member
    rcases old w' member with rfl | same
    · rw [id,operands]
      exact tracked.placed w inside
    · exact tracked.placed w' same
  · intro w' member
    rcases old w' member with rfl | same
    · rw [id,counted]
      exact tracked.counted w inside
    · exact tracked.counted w' same
  · intro w' member completed
    rcases old w' member with rfl | same
    · rw [id]
      exact done completed
    · exact tracked.finished w' same completed
  · intro access member w' member' same
    rcases old w' member' with rfl | same'
    · rw [operands]
      exact tracked.operand access member w inside (same.trans id)
    · exact tracked.operand access member w' same' same
  · intro access member w' member' same
    rcases old w' member' with rfl | same'
    · exact quiet access member (same.trans id)
    · exact tracked.unfinished access member w' same' same

/-- An instruction whose operations are all done has none that waits. -/
theorem Tracked.finish (tracked : l.Tracked waits) {before after : List Work} {w : Work} (here : l.works = before ++ w :: after)
    (ran : w.executed = true) (all : w.numMemOps ≤ w.completedMemOps) :
    { l with works := before ++ { w with completed := true } :: after }.Tracked waits := by
  have inside : w ∈ l.works := here ▸ List.mem_append_right _ List.mem_cons_self
  have none_waits : ∀ access ∈ waits, access.instrID ≠ w.instrID := by
    intro access member same
    obtain ⟨addrs,completed⟩ := tracked.all_done inside all access.accessType
    have operand := tracked.operand access member w inside same
    rw [← addrs] at operand
    obtain ⟨entry,listed,addr⟩ := List.mem_map.mp operand
    obtain ⟨entered,id⟩ : entry ∈ l.entries access.accessType ∧ entry.instrID = w.instrID := by
      simpa [entriesOf] using listed
    have open_ := tracked.open_ access.accessType entry entered ⟨access,member,rfl,same.trans id.symm,addr.symm⟩
    rw [completed entry entered id] at open_
    cases open_
  exact tracked.replace here rfl rfl rfl ran (fun _ accessType => (tracked.all_done inside all accessType).2)
    fun access member same => absurd same (none_waits access member)

/-- The first accesses of an instruction are made, when it is executed and not completed. -/
theorem Tracked.access (tracked : l.Tracked waits) {w : Work} {made : List CacheAccess} {awaited : List Nat} (inside : w ∈ l.works)
    (ran : w.executed = true) (going : w.completed = false) (fresh : ∀ access ∈ l.accesses, access.instrID ≠ w.instrID)
    (mine : ∀ access ∈ made, access.instrID = w.instrID ∧ access.addr ∈ w.operands access.accessType)
    (awaits : ∀ id ∈ awaited, id ∈ l.awaited ∨ id ∈ made.map CacheAccess.instrID) :
    { l with accesses := l.accesses ++ made, awaited }.Tracked (waits ++ made) := by
  have present : w ∈ l.works ++ l.coming := List.mem_append_left _ inside
  have only : ∀ access ∈ made, ∀ w' ∈ l.works ++ l.coming, access.instrID = w'.instrID → w' = w := fun access now w' member same =>
    tracked.same_work member present (same.symm.trans (mine access now).1)
  refine { tracked with
    executed := ?_, awaited := ?_, accessed := ?_, made := ?_, operand := ?_, unfinished := ?_, open_ := ?_ }
  · intro access member
    rcases List.mem_append.mp member with earlier | now
    · exact tracked.executed access earlier
    · refine ⟨(mine access now).1 ▸ tracked.below w present,fun w' member' same => ?_⟩
      rw [only access now w' member' same]
      exact ran
  · intro id member
    rw [List.map_append]
    rcases awaits id member with earlier | now
    · exact List.mem_append_left _ (tracked.awaited id earlier)
    · exact List.mem_append_right _ now
  · intro accessType entry member done
    rw [List.map_append]
    exact List.mem_append_left _ (tracked.accessed accessType entry member done)
  · intro access member
    rcases List.mem_append.mp member with earlier | now
    · exact List.mem_append_left _ (tracked.made access earlier)
    · exact List.mem_append_right _ now
  · intro access member w' member' same
    rcases List.mem_append.mp member with earlier | now
    · exact tracked.operand access earlier w' member' same
    · rw [only access now w' (List.mem_append_left _ member') same]
      exact (mine access now).2
  · intro access member w' member' same
    rcases List.mem_append.mp member with earlier | now
    · exact tracked.unfinished access earlier w' member' same
    · rw [only access now w' (List.mem_append_left _ member') same]
      exact going
  · rintro accessType entry member ⟨access,waits_,type,id,addr⟩
    rcases List.mem_append.mp waits_ with earlier | now
    · exact tracked.open_ accessType entry member ⟨access,earlier,type,id,addr⟩
    · refine Bool.eq_false_iff.mpr fun done => ?_
      obtain ⟨earlier,accessed,same⟩ := List.mem_map.mp (tracked.accessed accessType entry member done)
      exact fresh earlier accessed (same.trans (id.symm.trans (mine access now).1))

/-- An instruction is executed once, so that none of its operations is done before. -/
theorem Tracked.execute (tracked : l.Tracked waits) {before after : List Work} {w : Work} {made : List CacheAccess}
    {awaited : List Nat} (here : l.works = before ++ w :: after) (first : w.executed = false)
    (mine : ∀ access ∈ made, access.instrID = w.instrID ∧ access.addr ∈ w.operands access.accessType)
    (awaits : ∀ id ∈ awaited, id ∈ l.awaited ∨ id ∈ made.map CacheAccess.instrID) :
    { l with works := before ++ { w with executed := true } :: after
             accesses := l.accesses ++ made
             awaited }.Tracked (waits ++ made) := by
  have inside : w ∈ l.works := here ▸ List.mem_append_right _ List.mem_cons_self
  have going : w.completed = false := by
    refine Bool.eq_false_iff.mpr fun done => ?_
    rw [tracked.ran w inside done] at first
    cases first
  have fresh := tracked.not_accessed (List.mem_append_left _ inside) first
  have replaced : { l with works := before ++ { w with executed := true } :: after }.Tracked waits :=
    tracked.replace here rfl rfl rfl rfl (tracked.finished w inside) fun _ _ _ => going
  exact replaced.access (List.mem_append_right _ List.mem_cons_self) rfl going fresh mine awaits

/-- The oldest instruction to come is the youngest of those at work. -/
theorem Tracked.arrive (tracked : l.Tracked waits) {w : Work} {rest : List Work} (queue : l.coming = w :: rest) :
    { l with works := l.works ++ [w], coming := rest }.Tracked waits := by
  have first : w ∈ l.coming := queue ▸ List.mem_cons_self
  obtain ⟨unexecuted,uncompleted,none_done⟩ := tracked.untouched w first
  have same : l.works ++ [w] ++ rest = l.works ++ l.coming := by
    rw [queue,List.append_assoc]
    rfl
  have fresh := tracked.not_accessed (List.mem_append_right _ first) unexecuted
  have old : ∀ w' ∈ l.works ++ [w], w' ∈ l.works ∨ w' = w := by simp
  refine { tracked with
    ordered := ?_, below := ?_, untouched := ?_, entered := ?_, executed := ?_, ran := ?_, placed := ?_, counted := ?_,
    finished := ?_, operand := ?_, unfinished := ?_ }
  · dsimp only
    rw [same]
    exact tracked.ordered
  · dsimp only
    rw [same]
    exact tracked.below
  · exact fun w' member => tracked.untouched w' (queue ▸ List.mem_cons_of_mem _ member)
  · intro accessType entry member
    obtain ⟨small,smaller⟩ := tracked.entered accessType entry member
    exact ⟨small,fun w' waiting => smaller w' (queue ▸ List.mem_cons_of_mem _ waiting)⟩
  · dsimp only
    rw [same]
    exact tracked.executed
  · intro w' member done
    rcases old w' member with early | rfl
    · exact tracked.ran w' early done
    · rw [uncompleted] at done
      cases done
  · intro w' member accessType
    rcases old w' member with early | rfl
    · exact tracked.placed w' early accessType
    · rw [tracked.none_entered first]
      exact List.nil_sublist _
  · intro w' member
    rcases old w' member with early | rfl
    · exact tracked.counted w' early
    · rw [none_done]
      exact Nat.zero_le _
  · intro w' member done
    rcases old w' member with early | rfl
    · exact tracked.finished w' early done
    · rw [uncompleted] at done
      cases done
  · intro access member w' member' same'
    rcases old w' member' with early | rfl
    · exact tracked.operand access member w' early same'
    · exact absurd same' (fresh access (tracked.made access member))
  · intro access member w' member' same'
    rcases old w' member' with early | rfl
    · exact tracked.unfinished access member w' early same'
    · exact uncompleted

/-- An instruction that has no entries gets them, none of them completed. -/
theorem Tracked.place (tracked : l.Tracked waits) {w : Work} {entries : AccessType → List LSQEntry} (inside : w ∈ l.works)
    (going : w.completed = false) (nothing : ∀ accessType, entriesOf w.instrID (l.entries accessType) = [])
    (youngest : ∀ w' ∈ l.coming, w.instrID < w'.instrID)
    (added : ∀ accessType, ∃ new, entries accessType = l.entries accessType ++ new ∧
      (∀ entry ∈ new, entry.instrID = w.instrID ∧ entry.completed = false) ∧
      (new.map LSQEntry.virtualAddr).Sublist (w.operands accessType)) : { l with entries }.Tracked waits := by
  have either : ∀ accessType, ∀ entry ∈ entries accessType,
      entry ∈ l.entries accessType ∨ entry.instrID = w.instrID ∧ entry.completed = false := by
    intro accessType entry member
    obtain ⟨new,grown,fresh,_⟩ := added accessType
    rw [grown] at member
    exact (List.mem_append.mp member).imp_right (fresh entry)
  have of_others : ∀ {id}, id ≠ w.instrID → ∀ accessType, entriesOf id (entries accessType) = entriesOf id (l.entries accessType) := by
    intro id other accessType
    obtain ⟨new,grown,fresh,_⟩ := added accessType
    rw [grown,entriesOf_append,List.append_right_eq_self,entriesOf,List.filter_eq_nil_iff]
    intro entry member
    rw [(fresh entry member).1,decide_eq_true_eq]
    exact other.symm
  have unique : ∀ w' ∈ l.works, w'.instrID = w.instrID → w' = w := fun w' member same =>
    tracked.same_work (List.mem_append_left _ member) (List.mem_append_left _ inside) same
  refine { tracked with entered := ?_, accessed := ?_, placed := ?_, counted := ?_, finished := ?_, open_ := ?_ }
  · intro accessType entry member
    rcases either accessType entry member with early | ⟨id,_⟩
    · exact tracked.entered accessType entry early
    · rw [id]
      exact ⟨tracked.below w (List.mem_append_left _ inside),youngest⟩
  · intro accessType entry member done
    rcases either accessType entry member with early | ⟨_,open_⟩
    · exact tracked.accessed accessType entry early done
    · rw [open_] at done
      cases done
  · intro w' member accessType
    by_cases mine : w'.instrID = w.instrID
    · obtain rfl := unique w' member mine
      obtain ⟨new,grown,_,placed⟩ := added accessType
      dsimp only
      rw [grown,entriesOf_append,nothing,List.nil_append]
      exact (List.filter_sublist.map _).trans placed
    · dsimp only
      rw [of_others mine]
      exact tracked.placed w' member accessType
  · intro w' member
    by_cases mine : w'.instrID = w.instrID
    · have counted := tracked.counted w' member
      rw [mine,doneOf,doneOf,nothing,nothing] at counted
      exact counted.trans (Nat.zero_le _)
    · rw [doneOf,doneOf,of_others mine,of_others mine]
      exact tracked.counted w' member
  · intro w' member done accessType entry entered id
    rcases either accessType entry entered with old | ⟨id',_⟩
    · exact tracked.finished w' member done accessType entry old id
    · rw [unique w' member (id.symm.trans id'),going] at done
      cases done
  · intro accessType entry member waiting
    rcases either accessType entry member with early | ⟨_,open_⟩
    · exact tracked.open_ accessType entry early waiting
    · exact open_

/-- An instruction enters with entries of its own, none of them completed. -/
theorem Tracked.enter (tracked : l.Tracked waits) {w : Work} {rest : List Work} {entries : AccessType → List LSQEntry}
    (queue : l.coming = w :: rest)
    (added : ∀ accessType, ∃ new, entries accessType = l.entries accessType ++ new ∧
      (∀ entry ∈ new, entry.instrID = w.instrID ∧ entry.completed = false) ∧
      (new.map LSQEntry.virtualAddr).Sublist (w.operands accessType)) :
    { l with works := l.works ++ [w], coming := rest, entries }.Tracked waits := by
  have first : w ∈ l.coming := queue ▸ List.mem_cons_self
  have ordered := tracked.ordered
  rw [queue,List.map_append,List.map_cons,List.pairwise_append,List.pairwise_cons] at ordered
  obtain ⟨_,⟨youngest,_⟩,_⟩ := ordered
  exact (tracked.arrive queue).place (List.mem_append_right _ (List.mem_singleton_self _)) (tracked.untouched w first).2.1
    (tracked.none_entered first) (fun w' waiting => youngest _ (List.mem_map_of_mem waiting)) added

theorem Tracked.fetch (tracked : l.Tracked waits) {w : Work}
    (untouched : w.executed = false ∧ w.completed = false ∧ w.completedMemOps = 0) (numbered : w.instrID = l.next) :
    { l with coming := l.coming ++ [w], next := l.next + 1 }.Tracked waits := by
  refine { tracked with ordered := ?_,below := ?_,untouched := ?_,entered := ?_,executed := ?_ }
  · dsimp only
    rw [← List.append_assoc,List.map_append,List.pairwise_append]
    refine ⟨tracked.ordered,List.pairwise_singleton ..,fun id member last => ?_⟩
    obtain ⟨w',inside,rfl⟩ := List.mem_map.mp member
    rintro new
    rw [List.map_singleton,List.mem_singleton] at new
    rw [new,numbered]
    exact tracked.below w' inside
  · intro w' member
    rw [← List.append_assoc] at member
    rcases List.mem_append.mp member with early | late
    · exact Nat.lt_succ_of_lt (tracked.below w' early)
    · obtain rfl := List.mem_singleton.mp late
      rw [numbered]
      exact Nat.lt_succ_self _
  · intro w' member
    rcases List.mem_append.mp member with early | late
    · exact tracked.untouched w' early
    · obtain rfl := List.mem_singleton.mp late
      exact untouched
  · intro accessType entry member
    obtain ⟨small,smaller⟩ := tracked.entered accessType entry member
    refine ⟨Nat.lt_succ_of_lt small,fun w' member' => ?_⟩
    rcases List.mem_append.mp member' with early | late
    · exact smaller w' early
    · obtain rfl := List.mem_singleton.mp late
      rw [numbered]
      exact small
  · intro access member
    obtain ⟨small,ran⟩ := tracked.executed access member
    refine ⟨Nat.lt_succ_of_lt small,fun w' member' same => ?_⟩
    rw [← List.append_assoc] at member'
    rcases List.mem_append.mp member' with early | late
    · exact ran w' early same
    · obtain rfl := List.mem_singleton.mp late
      omega

/-- A move keeps the ledger sound, with the new accesses among those that may wait. -/
theorem Tracked.move {l l' : Ledger} (tracked : l.Tracked waits) (moved : Move l l') :
    ∃ made, l'.accesses = l.accesses ++ made ∧ l'.Tracked (waits ++ made) := by
  cases moved with
  | finish here ran all => exact ⟨[],(List.append_nil _).symm,(List.append_nil waits).symm ▸ tracked.finish here ran all⟩
  | execute here first mine awaits => exact ⟨_,rfl,tracked.execute here first mine awaits⟩
  | enter queue added => exact ⟨[],(List.append_nil _).symm,(List.append_nil waits).symm ▸ tracked.enter queue added⟩
  | fetch untouched numbered => exact ⟨[],(List.append_nil _).symm,(List.append_nil waits).symm ▸ tracked.fetch untouched numbered⟩

theorem Tracked.moves {l l' : Ledger} (tracked : l.Tracked waits) (moved : Relation.ReflTransGen Move l l') :
    ∃ made, l'.accesses = l.accesses ++ made ∧ l'.Tracked (waits ++ made) := by
  induction moved with
  | refl => exact ⟨[],(List.append_nil _).symm,(List.append_nil waits).symm ▸ tracked⟩
  | tail _ last ih =>
    obtain ⟨made,accesses,kept⟩ := ih
    obtain ⟨more,accesses',kept'⟩ := kept.move last
    refine ⟨made ++ more,?_,?_⟩
    · rw [accesses',accesses,List.append_assoc]
    · rw [← List.append_assoc]
      exact kept'

/-- Moves take no entry away. -/
theorem Move.entries {l l' : Ledger} (moved : Move l l') (accessType : AccessType) {entry : LSQEntry}
    (member : entry ∈ l.entries accessType) : entry ∈ l'.entries accessType := by
  cases moved with
  | finish => exact member
  | execute => exact member
  | enter queue added =>
    obtain ⟨new,grown,_⟩ := added accessType
    dsimp only
    rw [grown]
    exact List.mem_append_left _ member
  | fetch => exact member

theorem entries_of_moves {l l' : Ledger} (moved : Relation.ReflTransGen Move l l') {accessType : AccessType} {entry : LSQEntry}
    (member : entry ∈ l.entries accessType) : entry ∈ l'.entries accessType := by
  induction moved with
  | refl => exact member
  | tail _ last ih => exact last.entries accessType ih

end
end Ledger
end FlowSim.Cpu
