import FlowSim.Cpu.Bookkeeping

/-!
The count of done memory operations. Whoever answers an operation, the instruction counts
exactly its completed entries; so an instruction that counts as many as it has operations,
and no other retires, has a completed entry for each.
-/
namespace FlowSim.Cpu
open FlowSim.Lib
set_option linter.unusedSimpArgs false

namespace Ledger

/-- Every instruction counts its completed entries, and these are of its operands. -/
structure Accounts (l : Ledger) : Prop where
  ordered : ((l.works ++ l.coming).map Work.instrID).Pairwise (· < ·)
  below : ∀ w ∈ l.works ++ l.coming, w.instrID < l.next
  untouched : ∀ w ∈ l.coming, w.completed = false ∧ w.completedMemOps = 0
  entered : ∀ accessType, ∀ entry ∈ l.entries accessType, entry.instrID < l.next ∧ ∀ w ∈ l.coming, entry.instrID < w.instrID
  placed : ∀ w ∈ l.works, ∀ accessType,
    ((entriesOf w.instrID (l.entries accessType)).map LSQEntry.virtualAddr).Sublist (w.operands accessType)
  counted : ∀ w ∈ l.works, w.completedMemOps = l.doneCount w.instrID
  finished : ∀ w ∈ l.works, w.completed = true → w.numMemOps ≤ w.completedMemOps

section
variable {l l' : Ledger}

/-- No more entries are completed than an instruction has operations. -/
theorem Accounts.counted_le (accounts : l.Accounts) {w : Work} (member : w ∈ l.works) : w.completedMemOps ≤ w.numMemOps := by
  have size : ∀ accessType, doneOf w.instrID (l.entries accessType) ≤ (w.operands accessType).length := by
    intro accessType
    have few := (accounts.placed w member accessType).length_le
    rw [List.length_map] at few
    exact List.countP_le_length.trans few
  have loads := size .load
  have stores := size .store
  rw [accounts.counted w member,doneCount,Work.numMemOps]
  omega

/-- A completed instruction has a completed entry for each operand, and no other entries. -/
theorem Accounts.all_done (accounts : l.Accounts) {w : Work} (member : w ∈ l.works) (completed : w.completed = true)
    (accessType : AccessType) : (entriesOf w.instrID (l.entries accessType)).map LSQEntry.virtualAddr = w.operands accessType ∧
      ∀ entry ∈ entriesOf w.instrID (l.entries accessType), entry.completed = true := by
  have all := accounts.finished w member completed
  rw [accounts.counted w member] at all
  exact entries_all_done (accounts.placed w member) all accessType

/-! ### Completing -/

/-- With different ids, just the works with the id count one more. -/
theorem mem_countWork_eq {instrID : Nat} {w' : Work} : ∀ {works : List Work}, (works.map Work.instrID).Nodup →
    w' ∈ countWork instrID works →
    ∃ w ∈ works, w' = { w with completedMemOps := w.completedMemOps + if w.instrID = instrID then 1 else 0 }
  | w :: rest, nodup, member => by
    rw [List.map_cons,List.nodup_cons] at nodup
    rw [countWork] at member
    by_cases same : w.instrID = instrID
    · rw [if_pos same] at member
      rcases List.mem_cons.mp member with rfl | later
      · exact ⟨w,List.mem_cons_self,by simp [same]⟩
      · have different : w'.instrID ≠ instrID := by
          intro same'
          apply nodup.1
          rw [same,← same']
          exact List.mem_map_of_mem later
        exact ⟨w',List.mem_cons_of_mem _ later,by simp [different]⟩
    · rw [if_neg same] at member
      rcases List.mem_cons.mp member with rfl | later
      · exact ⟨w',List.mem_cons_self,by simp [same]⟩
      · obtain ⟨x,inside,changed⟩ := mem_countWork_eq nodup.2 later
        exact ⟨x,List.mem_cons_of_mem _ inside,changed⟩

theorem Accounts.nodup (accounts : l.Accounts) : (l.works.map Work.instrID).Nodup := by
  have ordered := accounts.ordered
  rw [List.map_append] at ordered
  exact (List.pairwise_append.mp ordered).1.imp Nat.ne_of_lt

/-- An answer is counted by its instruction. -/
theorem Accounts.complete (accounts : l.Accounts) (accessType : AccessType) (instrID cycle : Nat) :
    (l.complete accessType instrID cycle).Accounts := by
  rcases complete_cases l accessType instrID cycle with ⟨_,same⟩ | ⟨before,entry,after,split,nothing,mine,open_,changed⟩
  · rw [same]
    exact accounts
  have inside : entry ∈ l.entries accessType := split ▸ List.mem_append_right _ List.mem_cons_self
  have some_left : left instrID (l.entries accessType) ≠ [] := by
    rw [split,left_split nothing mine open_]
    exact List.cons_ne_nil _ _
  have works : (l.complete accessType instrID cycle).works = countWork instrID l.works := by rw [changed]
  have rest : (l.complete accessType instrID cycle).coming = l.coming ∧ (l.complete accessType instrID cycle).next = l.next := by
    rw [changed]
    exact ⟨rfl,rfl⟩
  have old_entry : ∀ other, ∀ entry' ∈ (l.complete accessType instrID cycle).entries other, ∃ e ∈ l.entries other,
      entry'.instrID = e.instrID := by
    intro other entry' member
    rcases mem_complete member with same | ⟨rfl,e,taken,rfl⟩
    · exact ⟨entry',same,rfl⟩
    · rw [split,left_split nothing mine open_] at taken
      obtain rfl := Option.some.inj taken
      exact ⟨entry,inside,rfl⟩
  refine ⟨?_,?_,?_,?_,?_,?_,?_⟩
  · rw [works,rest.1,List.map_append,ids_countWork,← List.map_append]
    exact accounts.ordered
  · rw [works,rest.1,rest.2]
    intro w' member
    rcases List.mem_append.mp member with working | waiting
    · obtain ⟨w,here,rfl⟩ := mem_countWork_eq accounts.nodup working
      exact accounts.below w (List.mem_append_left _ here)
    · exact accounts.below w' (List.mem_append_right _ waiting)
  · rw [rest.1]
    exact accounts.untouched
  · rw [rest.1,rest.2]
    intro other entry' member
    obtain ⟨e,here,id⟩ := old_entry other entry' member
    rw [id]
    exact accounts.entered other e here
  · rw [works]
    intro w' member other
    obtain ⟨w,here,rfl⟩ := mem_countWork_eq accounts.nodup member
    rw [operands_complete]
    exact accounts.placed w here other
  · rw [works]
    intro w' member
    obtain ⟨w,here,rfl⟩ := mem_countWork_eq accounts.nodup member
    dsimp only
    rw [done_complete some_left,accounts.counted w here]
  · rw [works]
    intro w' member completed
    obtain ⟨w,here,rfl⟩ := mem_countWork_eq accounts.nodup member
    exact (accounts.finished w here completed).trans (Nat.le_add_right _ _)

theorem Accounts.completeAll (accessType : AccessType) (cycle : Nat) : ∀ (ids : List Nat) {l : Ledger}, l.Accounts →
    (l.completeAll accessType cycle ids).Accounts
  | [], _, accounts => accounts
  | id :: rest, _, accounts => (accounts.complete accessType id cycle).completeAll accessType cycle rest

/-! ### Leaving and moving -/

theorem Accounts.leave {l l' : Ledger} (accounts : l.Accounts) (left_ : Leave l l') : l'.Accounts := by
  have others := fun w' member => @Leave.others l l' left_ accounts.ordered w' member
  obtain ⟨works_sub,later,fewer⟩ := left_.subset
  have inside := works_sub.append later
  have next : l'.next = l.next := by
    cases left_
    rfl
  refine ⟨accounts.ordered.sublist (inside.map _),?_,fun w' member => accounts.untouched w' (later.subset member),?_,?_,?_,
    fun w' member => accounts.finished w' (works_sub.subset member)⟩
  · rw [next]
    exact fun w' member => accounts.below w' (inside.subset member)
  · rw [next]
    intro accessType entry member
    obtain ⟨small,smaller⟩ := accounts.entered accessType entry (fewer accessType entry member)
    exact ⟨small,fun w' waiting => smaller w' (later.subset waiting)⟩
  · intro w' member accessType
    rw [others w' member]
    exact accounts.placed w' (works_sub.subset member) accessType
  · intro w' member
    rw [doneCount,doneOf,doneOf,others w' member,others w' member]
    exact accounts.counted w' (works_sub.subset member)

theorem Accounts.leaves {l l' : Ledger} (accounts : l.Accounts) (left_ : Relation.ReflTransGen Leave l l') : l'.Accounts := by
  induction left_ with
  | refl => exact accounts
  | tail _ leave ih => exact ih.leave leave

/-- An instruction in another state of work, its count as before. -/
theorem Accounts.replace (accounts : l.Accounts) {before after : List Work} {w v : Work} (here : l.works = before ++ w :: after)
    (same : v.instrID = w.instrID ∧ v.operands = w.operands ∧ v.completedMemOps = w.completedMemOps)
    (finished : v.completed = true → v.numMemOps ≤ v.completedMemOps) :
    { l with works := before ++ v :: after }.Accounts := by
  obtain ⟨id,operands,count⟩ := same
  have inside : w ∈ l.works := here ▸ List.mem_append_right _ List.mem_cons_self
  have old : ∀ w' ∈ before ++ v :: after, w' = v ∨ w' ∈ l.works := by
    intro w' member
    rw [here]
    exact mem_replaced member
  refine ⟨?_,?_,accounts.untouched,accounts.entered,?_,?_,?_⟩
  · have ordered := accounts.ordered
    rw [here] at ordered
    simpa [id] using ordered
  · intro w' member
    rcases List.mem_append.mp member with working | waiting
    · rcases old w' working with rfl | same
      · rw [id]
        exact accounts.below w (List.mem_append_left _ inside)
      · exact accounts.below w' (List.mem_append_left _ same)
    · exact accounts.below w' (List.mem_append_right _ waiting)
  · intro w' member accessType
    rcases old w' member with rfl | same
    · rw [id,operands]
      exact accounts.placed w inside accessType
    · exact accounts.placed w' same accessType
  · intro w' member
    rcases old w' member with rfl | same
    · rw [id,count]
      exact accounts.counted w inside
    · exact accounts.counted w' same
  · intro w' member
    rcases old w' member with rfl | same
    · exact finished
    · exact accounts.finished w' same

/-- An instruction enters with entries of its operands, none completed. -/
theorem Accounts.enter (accounts : l.Accounts) {w : Work} {rest : List Work} {entries : AccessType → List LSQEntry}
    (queue : l.coming = w :: rest) (added : ∀ accessType, ∃ new, entries accessType = l.entries accessType ++ new ∧
      (∀ entry ∈ new, entry.instrID = w.instrID ∧ entry.completed = false) ∧
      (new.map LSQEntry.virtualAddr).Sublist (w.operands accessType)) :
    { l with works := l.works ++ [w], coming := rest, entries }.Accounts := by
  have waiting : w ∈ l.coming := queue ▸ List.mem_cons_self
  have ordered := accounts.ordered
  rw [queue] at ordered
  have reordered : ((l.works ++ [w] ++ rest).map Work.instrID).Pairwise (· < ·) := by simpa using ordered
  have older : ∀ w' ∈ l.works, w'.instrID < w.instrID := by
    intro w' member
    rw [List.map_append] at ordered
    exact (List.pairwise_append.mp ordered).2.2 _ (List.mem_map_of_mem member) _ (by simp)
  have younger : ∀ w' ∈ rest, w.instrID < w'.instrID := by
    intro w' member
    rw [List.map_append] at ordered
    have tail := (List.pairwise_append.mp ordered).2.1
    rw [List.map_cons,List.pairwise_cons] at tail
    exact tail.1 _ (List.mem_map_of_mem member)
  have apart : ∀ w' ∈ l.works, ∀ accessType, entriesOf w'.instrID (entries accessType) = entriesOf w'.instrID (l.entries accessType) := by
    intro w' member accessType
    obtain ⟨new,grown,mine,_⟩ := added accessType
    have none_mine : entriesOf w'.instrID new = [] := by
      refine List.filter_eq_nil_iff.mpr fun entry here => ?_
      have id := (mine entry here).1
      have smaller := older w' member
      simp only [decide_eq_true_eq]
      omega
    rw [grown,entriesOf_append,none_mine,List.append_nil]
  have own : ∀ accessType, ∃ new, entriesOf w.instrID (entries accessType) = new ∧ (∀ entry ∈ new, entry.completed = false) ∧
      (new.map LSQEntry.virtualAddr).Sublist (w.operands accessType) := by
    intro accessType
    obtain ⟨new,grown,mine,sub⟩ := added accessType
    have none_before : entriesOf w.instrID (l.entries accessType) = [] := by
      refine List.filter_eq_nil_iff.mpr fun entry here => ?_
      have smaller := (accounts.entered accessType entry here).2 w waiting
      simp only [decide_eq_true_eq]
      omega
    have all_mine : entriesOf w.instrID new = new :=
      List.filter_eq_self.mpr fun entry here => decide_eq_true (mine entry here).1
    refine ⟨new,?_,fun entry here => (mine entry here).2,sub⟩
    rw [grown,entriesOf_append,none_before,all_mine,List.nil_append]
  refine ⟨reordered,?_,?_,?_,?_,?_,?_⟩
  · intro w' member
    apply accounts.below w'
    rw [queue]
    simpa using member
  · exact fun w' member => accounts.untouched w' (queue ▸ List.mem_cons_of_mem _ member)
  · intro accessType entry member
    obtain ⟨new,grown,mine,_⟩ := added accessType
    dsimp only at member
    rw [grown] at member
    rcases List.mem_append.mp member with before | now
    · obtain ⟨small,smaller⟩ := accounts.entered accessType entry before
      exact ⟨small,fun w' later => smaller w' (queue ▸ List.mem_cons_of_mem _ later)⟩
    · rw [(mine entry now).1]
      exact ⟨accounts.below w (List.mem_append_right _ waiting),younger⟩
  · intro w' member accessType
    rcases List.mem_append.mp member with before | now
    · rw [apart w' before]
      exact accounts.placed w' before accessType
    · obtain rfl := List.mem_singleton.mp now
      obtain ⟨new,same,_,sub⟩ := own accessType
      rw [same]
      exact sub
  · intro w' member
    rcases List.mem_append.mp member with before | now
    · rw [doneCount,doneOf,doneOf,apart w' before,apart w' before]
      exact accounts.counted w' before
    · obtain rfl := List.mem_singleton.mp now
      have none_done : ∀ accessType, doneOf w'.instrID (entries accessType) = 0 := by
        intro accessType
        obtain ⟨new,same,open_,_⟩ := own accessType
        rw [doneOf,same,List.countP_eq_zero]
        exact fun entry here => by simp [open_ entry here]
      rw [doneCount,none_done,none_done]
      exact (accounts.untouched w' waiting).2
  · intro w' member completed
    rcases List.mem_append.mp member with before | now
    · exact accounts.finished w' before completed
    · obtain rfl := List.mem_singleton.mp now
      rw [(accounts.untouched w' waiting).1] at completed
      cases completed

theorem Accounts.move {l l' : Ledger} (accounts : l.Accounts) (moved : Move l l') : l'.Accounts := by
  cases moved with
  | finish here ran all => exact accounts.replace here ⟨rfl,rfl,rfl⟩ fun _ => all
  | @execute before after w made awaited here first mine awaits =>
    have inside : w ∈ l.works := here ▸ List.mem_append_right _ List.mem_cons_self
    have executed := @Accounts.replace l accounts before after w { w with executed := true } here ⟨rfl,rfl,rfl⟩
      (accounts.finished w inside)
    exact { executed with }
  | enter queue added => exact accounts.enter queue added
  | @fetch w untouched numbered =>
    refine ⟨?_,?_,?_,?_,accounts.placed,accounts.counted,accounts.finished⟩
    · have ordered := accounts.ordered
      dsimp only
      rw [← List.append_assoc,List.map_append,List.map_singleton]
      refine List.pairwise_append.mpr ⟨ordered,List.pairwise_singleton ..,fun id member id' last => ?_⟩
      obtain ⟨w',inside,rfl⟩ := List.mem_map.mp member
      rw [List.mem_singleton.mp last,numbered]
      exact accounts.below w' inside
    · intro w' member
      dsimp only at member
      rw [← List.append_assoc] at member
      rcases List.mem_append.mp member with before | now
      · exact (accounts.below w' before).trans (Nat.lt_succ_self _)
      · rw [List.mem_singleton.mp now,numbered]
        exact Nat.lt_succ_self _
    · intro w' member
      rcases List.mem_append.mp member with before | now
      · exact accounts.untouched w' before
      · rw [List.mem_singleton.mp now]
        exact untouched.2
    · intro accessType entry member
      obtain ⟨small,smaller⟩ := accounts.entered accessType entry member
      refine ⟨small.trans (Nat.lt_succ_self _),fun w' coming => ?_⟩
      rcases List.mem_append.mp coming with before | now
      · exact smaller w' before
      · rw [List.mem_singleton.mp now,numbered]
        exact small

theorem Accounts.moves {l l' : Ledger} (accounts : l.Accounts) (moved : Relation.ReflTransGen Move l l') : l'.Accounts := by
  induction moved with
  | refl => exact accounts
  | tail _ move ih => exact ih.move move

end

end Ledger
open Ledger

/-! ### The stages of a cycle -/

section
variable {cpu cpu' : O3CPU}

theorem accounts_foldl {α : Type} {f : O3CPU → α → O3CPU} (each : ∀ cpu item, cpu.ledger.Accounts → (f cpu item).ledger.Accounts) :
    ∀ (items : List α) {cpu : O3CPU}, cpu.ledger.Accounts → (items.foldl f cpu).ledger.Accounts
  | [], _, accounts => accounts
  | item :: rest, _, accounts => accounts_foldl each rest (each _ item accounts)

theorem accounts_handleLoadResponse (instrID cycle : Nat) (accounts : cpu.ledger.Accounts) :
    (cpu.handleLoadResponse instrID cycle).1.ledger.Accounts := by
  rw [(ledger_handleLoadResponse cpu instrID cycle).2]
  exact accounts.complete .load instrID cycle

theorem accounts_handleStoreResponse (instrID cycle : Nat) (accounts : cpu.ledger.Accounts) :
    (cpu.handleStoreResponse instrID cycle).1.ledger.Accounts := by
  rw [(ledger_handleStoreResponse cpu instrID cycle).2]
  exact accounts.complete .store instrID cycle

theorem accounts_respondAll (instr : OOOModelInstr) (accounts : cpu.ledger.Accounts) : (cpu.respondAll instr).ledger.Accounts :=
  accounts_foldl (fun _ _ => accounts_handleStoreResponse _ _) _
    (accounts_foldl (fun _ _ => accounts_handleLoadResponse _ _) _ accounts)

theorem accounts_accessLoad (cache : Nat → Nat) (instrID : Nat) (cpu : O3CPU) (addr : UInt64) (accounts : cpu.ledger.Accounts) :
    (O3CPU.accessLoad cache instrID cpu addr).ledger.Accounts := by
  unfold O3CPU.accessLoad O3CPU.access
  split
  · exact accounts
  · dsimp only
    split <;> exact { accounts with }

theorem accounts_accessStore (cache : Nat → Nat) (instrID : Nat) (cpu : O3CPU) (addr : UInt64) (accounts : cpu.ledger.Accounts) :
    (O3CPU.accessStore cache instrID cpu addr).ledger.Accounts := by
  unfold O3CPU.accessStore O3CPU.access
  split
  · exact accounts
  · dsimp only
    split <;> exact { accounts with }

/-- Accesses are counted when they are answered, now or later. -/
theorem accounts_executeMemoryOperation (instr : OOOModelInstr) (accounts : cpu.ledger.Accounts) :
    (cpu.executeMemoryOperation instr).ledger.Accounts := by
  unfold O3CPU.executeMemoryOperation
  split
  · next cache _ =>
    have accessed := accounts_foldl (accounts_accessStore cache instr.instrID) instr.destMemory
      (accounts_foldl (accounts_accessLoad cache instr.instrID) instr.srcMemory accounts)
    dsimp only
    split
    · exact accounts_respondAll instr accessed
    · exact accessed
  · split
    · exact accounts_respondAll instr accounts
    · exact accounts

theorem accounts_executeInstr {i : Nat} {instr : OOOModelInstr} (found : cpu.rob.peekAt i = some instr)
    (accounts : cpu.ledger.Accounts) : (cpu.executeInstr i instr).ledger.Accounts := by
  obtain ⟨before,after,works,changed⟩ := works_at found
  let ran := { instr with executed := true, readyTime := cpu.currentCycle + cpu.config.executeLatency }
  have inside : instr.work ∈ cpu.ledger.works := works ▸ List.mem_append_right _ List.mem_cons_self
  have executed : ({ cpu with rob := cpu.rob.set i ran } : O3CPU).ledger.Accounts := by
    have replaced := @Accounts.replace cpu.ledger accounts _ _ _ ran.work works ⟨rfl,rfl,rfl⟩
      (fun completed => accounts.finished instr.work inside completed)
    rw [← changed ran] at replaced
    exact replaced
  unfold O3CPU.executeInstr
  dsimp only
  split
  · exact accounts_executeMemoryOperation ran executed
  · exact executed

theorem accounts_execute (accounts : cpu.ledger.Accounts) : cpu.execute.ledger.Accounts :=
  O3CPU.executeLoop_rule (P := fun cpu => cpu.ledger.Accounts)
    (fun _ _ _ accounts found _ _ => accounts_executeInstr found accounts) cpu.rob.size 0 0 accounts

theorem accounts_retire (accounts : cpu.ledger.Accounts) : cpu.retire.ledger.Accounts :=
  accounts.leaves (leaves_retireLoop _ cpu).ledger

/-- The cycle up to scheduling. -/
theorem accounts_scheduled {mid : O3CPU} (accounts : cpu.ledger.Accounts) (scheduled : cpu.beforeSchedule.schedule = .ok mid) :
    mid.ledger.Accounts := by
  have retired : { cpu with currentCycle := cpu.currentCycle + 1 }.retire.ledger.Accounts :=
    @accounts_retire { cpu with currentCycle := cpu.currentCycle + 1 } accounts
  have answered : { cpu with currentCycle := cpu.currentCycle + 1 }.retire.processPendingMemOps.ledger.Accounts := by
    obtain ⟨awaited,_,_,same⟩ := ledger_processPendingMemOps { cpu with currentCycle := cpu.currentCycle + 1 }.retire
    rw [same]
    exact { (retired.completeAll .load _ _).completeAll .store _ _ with }
  have completed : { cpu with currentCycle := cpu.currentCycle + 1 }.retire.processPendingMemOps.completeInflightInstruction.ledger.Accounts :=
    answered.moves (moves_completeLoop _ 0 0 _).1
  have executed : cpu.beforeSchedule.ledger.Accounts := accounts_execute completed
  exact executed.moves (moves_schedule scheduled).1

theorem accounts_tick (accounts : cpu.ledger.Accounts) (ticked : cpu.tick = .ok cpu') : cpu'.ledger.Accounts := by
  obtain ⟨mid,scheduled,rfl⟩ := tick_ok ticked
  exact (accounts_scheduled accounts scheduled).moves (moves_incoming mid).1

theorem accounts_step {action : O3CPU.Action} (accounts : cpu.ledger.Accounts) (stepped : cpu.step action = some cpu') :
    cpu'.ledger.Accounts := by
  cases action with
  | tick =>
    exact accounts_tick accounts (O3CPU.tick_of_step stepped)
  | fetch =>
    cases stepped
    exact accounts.moves (moves_fetch cpu).1
  | handleLoadResponse instrID cycle =>
    cases stepped
    exact accounts_handleLoadResponse instrID cycle accounts
  | handleStoreResponse instrID cycle =>
    cases stepped
    exact accounts_handleStoreResponse instrID cycle accounts
  | setStandaloneMode standalone =>
    cases stepped
    exact accounts
  | setL1DCache cache =>
    cases stepped
    exact accounts

theorem accounts_new (traceReader : Nat → Option TraceInstr) (config : O3CPUConfig) :
    (O3CPU.newO3CPU traceReader config).ledger.Accounts where
  ordered := .nil
  below _ member := absurd member List.not_mem_nil
  untouched _ member := absurd member List.not_mem_nil
  entered accessType _ member := by cases accessType <;> exact absurd member List.not_mem_nil
  placed _ member := absurd member List.not_mem_nil
  counted _ member := absurd member List.not_mem_nil
  finished _ member := absurd member List.not_mem_nil

theorem accounts_reachable {traceReader : Nat → Option TraceInstr} {config : O3CPUConfig}
    (reached : Reachable O3CPU.step (.newO3CPU traceReader config) cpu) : cpu.ledger.Accounts :=
  reached.invariant (P := fun cpu => cpu.ledger.Accounts) (accounts_new traceReader config)
    (fun _ accounts _ stepped => accounts_step accounts stepped)

/-! ### Runs -/

namespace O3CPU

/-- The retirements of a cycle: the core before each, the instruction that retires, and the
    core after it. -/
def retireSteps : Nat → O3CPU → List (O3CPU × OOOModelInstr × O3CPU)
  | 0, _ => []
  | width + 1, cpu =>
    match cpu.rob.retire with
    | none => []
    | some (instr,rob) =>
      (cpu,instr,{ cpu with rob }.retireInstr instr) :: retireSteps width ({ cpu with rob }.retireInstr instr)

/-- The retirements that the next tick of the core makes. -/
def nextRetireSteps (cpu : O3CPU) : List (O3CPU × OOOModelInstr × O3CPU) :=
  retireSteps cpu.config.retireWidth { cpu with currentCycle := cpu.currentCycle + 1 }

end O3CPU

theorem retireSteps_retirements : ∀ (width : Nat) (cpu : O3CPU),
    (O3CPU.retireSteps width cpu).map (fun step => step.2.1) = O3CPU.retirements width cpu
  | 0, _ => rfl
  | width + 1, cpu => by
    rw [O3CPU.retireSteps,O3CPU.retirements]
    cases cpu.rob.retire with
    | none => rfl
    | some taken =>
      rw [List.map_cons,retireSteps_retirements width]

/-- What every retirement keeps holds before each retirement of a cycle. -/
theorem retireSteps_rule {P : O3CPU → Prop} (each : ∀ cpu instr rob, P cpu → cpu.rob.retire = some (instr,rob) →
      P ({ cpu with rob }.retireInstr instr)) {before after : O3CPU} {instr : OOOModelInstr} :
    ∀ {width : Nat} {cpu : O3CPU}, P cpu → (before,instr,after) ∈ O3CPU.retireSteps width cpu →
      P before ∧ ∃ rob, before.rob.retire = some (instr,rob) ∧ after = { before with rob }.retireInstr instr
  | 0, _, _, member => absurd member List.not_mem_nil
  | width + 1, cpu, holds, member => by
    rw [O3CPU.retireSteps] at member
    rcases taken : cpu.rob.retire with _ | ⟨first,rob⟩
    · rw [taken] at member
      exact absurd member List.not_mem_nil
    rw [taken] at member
    rcases List.mem_cons.mp member with here | later
    · cases here
      exact ⟨holds,rob,taken,rfl⟩
    · exact retireSteps_rule each (each cpu first rob holds taken) later

/-- How many entries of the instruction the queues have that are completed. -/
def LoadStoreQueue.completedOf (lsq : LoadStoreQueue) (instrID : Nat) : Nat :=
  doneOf instrID lsq.storeQueue + doneOf instrID lsq.loadQueue

/-- In every state that runs reach, whoever answers and whatever the ids, an instruction of
    the reorder buffer counts its completed entries, no more than it has operations; and
    when one retires each of its operands has an entry, and all its entries are completed. -/
theorem counts_completed {traceReader : Nat → Option TraceInstr} {config : O3CPUConfig}
    (reached : Reachable O3CPU.step (.newO3CPU traceReader config) cpu) :
    (∀ instr ∈ cpu.rob.buffer, instr.completedMemOps = cpu.lsq.completedOf instr.instrID ∧
      instr.completedMemOps ≤ instr.numMemOps) ∧
    ∀ before instr after, (before,instr,after) ∈ cpu.nextRetireSteps → ∀ accessType,
      (entriesOf instr.instrID (before.lsq.queue accessType)).map LSQEntry.virtualAddr = instr.operands accessType ∧
        ∀ entry ∈ entriesOf instr.instrID (before.lsq.queue accessType), entry.completed = true := by
  have accounts := accounts_reachable reached
  constructor
  · intro instr member
    have listed : instr.work ∈ cpu.ledger.works := List.mem_map_of_mem member
    exact ⟨accounts.counted _ listed,accounts.counted_le listed⟩
  · intro before instr after member accessType
    have begun : ({ cpu with currentCycle := cpu.currentCycle + 1 } : O3CPU).ledger.Accounts := accounts
    obtain ⟨accounts',rob,taken,_⟩ := retireSteps_rule (P := fun cpu => cpu.ledger.Accounts)
      (fun _ _ _ accounts taken => accounts.leaves (leaves_retireInstr taken).ledger) begun member
    obtain ⟨buffer,_,completed⟩ := retire_some taken
    have inside : instr ∈ before.rob.buffer := by simp [buffer]
    have listed : instr.work ∈ before.ledger.works := List.mem_map_of_mem inside
    exact accounts'.all_done listed completed accessType

/-- The load and the store, whose instruction retires in the next cycle. -/
def completedRun : Option O3CPU :=
  runActions O3CPU.step (fun _ _ => True) (List.replicate 6 .tick) (.newO3CPU loadAndStore defaultO3CPUConfig)

theorem completedRun_isSome : completedRun.isSome = true := by decide +kernel

theorem counts_completed_loadAndStore :
    (completedRun.get completedRun_isSome).nextRetireSteps.map (fun step => step.2.1.operands .store) = [[128]] ∧
    (∀ instr ∈ (completedRun.get completedRun_isSome).rob.buffer,
      instr.completedMemOps = (completedRun.get completedRun_isSome).lsq.completedOf instr.instrID ∧
        instr.completedMemOps ≤ instr.numMemOps) ∧
    ∀ before instr after, (before,instr,after) ∈ (completedRun.get completedRun_isSome).nextRetireSteps → ∀ accessType,
      (entriesOf instr.instrID (before.lsq.queue accessType)).map LSQEntry.virtualAddr = instr.operands accessType ∧
        ∀ entry ∈ entriesOf instr.instrID (before.lsq.queue accessType), entry.completed = true :=
  ⟨by decide +kernel,counts_completed (reaches_runActions _ (Option.some_get completedRun_isSome).symm)⟩

end
end FlowSim.Cpu
