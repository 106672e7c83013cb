import FlowSim.Cpu.Retirement

/-!
Who owns the entries of the load and store queues. Dispatching tests a queue for one free
place and drops the entries that find none, and retiring removes one entry from each
queue, so only instructions with at most one load and one store are sure to own their
entries as long as they are in the reorder buffer, and no longer.
-/
namespace FlowSim.Cpu
open FlowSim.Lib
set_option linter.unusedSimpArgs false

/-- Every instruction has as many entries as memory operands, and every entry belongs to
    one of the instructions. -/
structure Owns (operands : Card → List UInt64) (cards : List Card) (ids : List Nat) : Prop where
  owned : ∀ card ∈ cards, ids.count card.instrID = (operands card).length
  live : ∀ id ∈ ids, ∃ card ∈ cards, card.instrID = id

/-- The instructions of the reorder buffer own the entries of the two queues. -/
structure LSQConserved (cpu : O3CPU) : Prop where
  loads : Owns Card.srcMemory (cpu.rob.buffer.map OOOModelInstr.card) (cpu.lsq.loadQueue.map LSQEntry.instrID)
  stores : Owns Card.destMemory (cpu.rob.buffer.map OOOModelInstr.card) (cpu.lsq.storeQueue.map LSQEntry.instrID)

/-! ### Entries come and go -/

section
variable {operands : Card → List UInt64} {cards : List Card} {card : Card} {ids : List Nat}

/-- One entry is removed for an instruction that has some. -/
theorem Owns.retire (owns : Owns operands (card :: cards) ids) (older : ∀ other ∈ cards, card.instrID < other.instrID)
    (few : (operands card).length ≤ 1) :
    Owns operands cards (if 0 < (operands card).length then ids.erase card.instrID else ids) := by
  have mine := owns.owned card List.mem_cons_self
  have gone : ∀ id ∈ (if 0 < (operands card).length then ids.erase card.instrID else ids), id ≠ card.instrID := by
    rintro id member rfl
    have some_left := List.count_pos_iff.mpr member
    split at some_left
    · rw [List.count_erase_self] at some_left
      omega
    · omega
  have subset : ∀ id ∈ (if 0 < (operands card).length then ids.erase card.instrID else ids), id ∈ ids := by
    intro id member
    split at member
    · exact List.mem_of_mem_erase member
    · exact member
  constructor
  · intro other member
    have different := older other member
    rw [← owns.owned other (List.mem_cons_of_mem _ member)]
    split
    · exact List.count_erase_of_ne (by omega)
    · rfl
  · intro id member
    obtain ⟨other,inside,same⟩ := owns.live id (subset id member)
    rcases List.mem_cons.mp inside with rfl | later
    · exact absurd same.symm (gone id member)
    · exact ⟨other,later,same⟩

/-- An instruction enters with all its entries. -/
theorem Owns.dispatch (owns : Owns operands cards ids) (younger : ∀ other ∈ cards, other.instrID < card.instrID) :
    Owns operands (cards ++ [card]) (ids ++ List.replicate (operands card).length card.instrID) := by
  have fresh : ids.count card.instrID = 0 := by
    refine List.count_eq_zero.mpr fun member => ?_
    obtain ⟨other,inside,same⟩ := owns.live _ member
    have := younger other inside
    omega
  constructor
  · intro other member
    rw [List.count_append]
    rcases List.mem_append.mp member with old | new
    · have different := younger other old
      rw [owns.owned other old,List.count_replicate,if_neg (by simp; omega),Nat.add_zero]
    · obtain rfl := List.mem_singleton.mp new
      rw [fresh,List.count_replicate_self,Nat.zero_add]
  · intro id member
    rcases List.mem_append.mp member with old | new
    · obtain ⟨other,inside,same⟩ := owns.live id old
      exact ⟨other,List.mem_append_left _ inside,same⟩
    · exact ⟨card,List.mem_append_right _ (List.mem_singleton.mpr rfl),(List.eq_of_mem_replicate new).symm⟩

end

theorem map_eraseP_instrID (id : Nat) : ∀ entries : List LSQEntry,
    (entries.eraseP (fun entry => entry.instrID = id)).map LSQEntry.instrID = (entries.map LSQEntry.instrID).erase id
  | [] => rfl
  | entry :: rest => by
    by_cases same : entry.instrID = id
    · simp [same]
    · simp [same,map_eraseP_instrID id rest]

/-- Adding entries to a queue one after the other, when there is room for all. -/
theorem addAll_fits {queue : LoadStoreQueue → List LSQEntry} {limit : LoadStoreQueue → Nat}
    {give : LoadStoreQueue → List LSQEntry → LoadStoreQueue} {add : LoadStoreQueue → LSQEntry → LoadStoreQueue}
    (each : ∀ lsq entry, (queue lsq).length < limit lsq → add lsq entry = give lsq (queue lsq ++ [entry]))
    (given : ∀ lsq entries, queue (give lsq entries) = entries ∧ limit (give lsq entries) = limit lsq ∧
      ∀ entries', give (give lsq entries) entries' = give lsq entries') (same : ∀ lsq, give lsq (queue lsq) = lsq)
    (entry : UInt64 → LSQEntry) : ∀ (addrs : List UInt64) (lsq : LoadStoreQueue),
      addrs.length ≤ limit lsq - (queue lsq).length →
      addrs.foldl (fun lsq addr => add lsq (entry addr)) lsq = give lsq (queue lsq ++ addrs.map entry)
  | [], lsq, _ => by rw [List.foldl_nil,List.map_nil,List.append_nil,same]
  | addr :: rest, lsq, room => by
    rw [List.length_cons] at room
    obtain ⟨grown,bound,again⟩ := given lsq (queue lsq ++ [entry addr])
    have fits : rest.length ≤ limit (give lsq (queue lsq ++ [entry addr])) - (queue (give lsq (queue lsq ++ [entry addr]))).length := by
      rw [grown,bound,List.length_append,List.length_singleton]
      omega
    rw [List.foldl_cons,each lsq _ (by omega),addAll_fits each given same entry rest _ fits,grown,again,List.append_assoc,List.map_cons,
      List.singleton_append]

theorem addLoads_fit (entry : UInt64 → LSQEntry) (addrs : List UInt64) (lsq : LoadStoreQueue)
    (room : addrs.length ≤ lsq.maxLQSize - lsq.loadQueue.length) :
    addrs.foldl (fun lsq addr => lsq.addLoad (entry addr)) lsq = { lsq with loadQueue := lsq.loadQueue ++ addrs.map entry } := by
  refine @addAll_fits LoadStoreQueue.loadQueue LoadStoreQueue.maxLQSize (fun lsq loadQueue => { lsq with loadQueue })
    LoadStoreQueue.addLoad ?_ (fun _ _ => ⟨rfl,rfl,fun _ => rfl⟩) (fun _ => rfl) entry addrs lsq room
  intro lsq entry space
  exact if_neg (by simp [LoadStoreQueue.isLoadQueueFull,space])

theorem addStores_fit (entry : UInt64 → LSQEntry) (addrs : List UInt64) (lsq : LoadStoreQueue)
    (room : addrs.length ≤ lsq.maxSQSize - lsq.storeQueue.length) :
    addrs.foldl (fun lsq addr => lsq.addStore (entry addr)) lsq = { lsq with storeQueue := lsq.storeQueue ++ addrs.map entry } := by
  refine @addAll_fits LoadStoreQueue.storeQueue LoadStoreQueue.maxSQSize (fun lsq storeQueue => { lsq with storeQueue })
    LoadStoreQueue.addStore ?_ (fun _ _ => ⟨rfl,rfl,fun _ => rfl⟩) (fun _ => rfl) entry addrs lsq room
  intro lsq entry space
  exact if_neg (by simp [LoadStoreQueue.isStoreQueueFull,space])

/-! ### The condition on a step -/

/-- Instructions that are let in have places for all their loads and stores: `room`,
    `loadRoom` and `storeRoom` are the free places left in the reorder buffer and the two
    queues, and the instructions are those waiting to be dispatched. -/
def AllFit (cycle : Nat) : (width room loadRoom storeRoom : Nat) → List OOOModelInstr → Prop
  | 0, _, _, _, _ => True
  | _ + 1, _, _, _, [] => True
  | width + 1, room, loadRoom, storeRoom, instr :: rest =>
    instr.readyTime ≤ cycle → 0 < room → (instr.isLoad = true → 0 < loadRoom) → (instr.isStore = true → 0 < storeRoom) →
      instr.srcMemory.length ≤ loadRoom ∧ instr.destMemory.length ≤ storeRoom ∧
        AllFit cycle width (room - 1) (loadRoom - instr.srcMemory.length) (storeRoom - instr.destMemory.length) rest

instance decidableAllFit (cycle : Nat) : ∀ (width room loadRoom storeRoom : Nat) (instrs : List OOOModelInstr),
    Decidable (AllFit cycle width room loadRoom storeRoom instrs)
  | 0, _, _, _, _ => .isTrue trivial
  | _ + 1, _, _, _, [] => .isTrue trivial
  | width + 1, room, loadRoom, storeRoom, instr :: rest =>
    have := decidableAllFit cycle width (room - 1) (loadRoom - instr.srcMemory.length) (storeRoom - instr.destMemory.length) rest
    inferInstanceAs (Decidable (_ → _ → _ → _ → _ ∧ _ ∧ _))

namespace O3CPU

/-- The completed instructions at the head of the reorder buffer that the next cycle
    retires. -/
def leaving (width : Nat) (cpu : O3CPU) : List OOOModelInstr := (cpu.rob.buffer.takeWhile OOOModelInstr.completed).take width

/-- The instructions that wait for dispatch once those have left. -/
def waitingAfter (cpu : O3CPU) (gone : List OOOModelInstr) : List OOOModelInstr :=
  if gone.any (fun instr => instr.isBranch && instr.branchMispredicted) then [] else cpu.decodeQueue

/-- What retires in a cycle has at most one load and one store, and what is dispatched has
    room for all its loads and stores. -/
def Conserving (cpu : O3CPU) : Action → Prop
  | .tick =>
    let gone := cpu.leaving cpu.config.retireWidth
    (∀ instr ∈ gone, instr.srcMemory.length ≤ 1 ∧ instr.destMemory.length ≤ 1) ∧
      AllFit (cpu.currentCycle + 1) cpu.config.dispatchWidth (cpu.rob.maxSize - (cpu.rob.size - gone.length))
        (cpu.lsq.maxLQSize - (cpu.lsq.loadQueue.length - gone.countP OOOModelInstr.isLoad))
        (cpu.lsq.maxSQSize - (cpu.lsq.storeQueue.length - gone.countP OOOModelInstr.isStore)) (cpu.waitingAfter gone)
  | _ => True

instance decidableConserving (cpu : O3CPU) : (action : Action) → Decidable (cpu.Conserving action)
  | .tick => inferInstanceAs (Decidable (_ ∧ AllFit ..))
  | .fetch => .isTrue trivial
  | .handleLoadResponse _ _ => .isTrue trivial
  | .handleStoreResponse _ _ => .isTrue trivial
  | .setStandaloneMode _ => .isTrue trivial
  | .setL1DCache _ => .isTrue trivial

end O3CPU

/-! ### Retiring -/

/-- The ids are given in order, and the queues are owned. -/
structure LSQSound (cpu : O3CPU) : Prop where
  ordered : (cpu.inside.map OOOModelInstr.instrID).Pairwise (· < ·)
  below : ∀ instr ∈ cpu.inside, instr.instrID < cpu.instrCounter
  conserved : LSQConserved cpu

section
variable {cpu cpu' : O3CPU}

/-- The core after the instructions `gone` have retired. -/
structure Retired (cpu : O3CPU) (gone : List OOOModelInstr) (cpu' : O3CPU) : Prop where
  sound : LSQSound cpu'
  rob : cpu.rob.buffer = gone ++ cpu'.rob.buffer ∧ cpu'.rob.maxSize = cpu.rob.maxSize
  loads : cpu'.lsq.loadQueue.length = cpu.lsq.loadQueue.length - gone.countP OOOModelInstr.isLoad
  stores : cpu'.lsq.storeQueue.length = cpu.lsq.storeQueue.length - gone.countP OOOModelInstr.isStore
  sizes : cpu'.lsq.maxLQSize = cpu.lsq.maxLQSize ∧ cpu'.lsq.maxSQSize = cpu.lsq.maxSQSize
  waiting : cpu'.decodeQueue = cpu.waitingAfter gone
  time : cpu'.config = cpu.config ∧ cpu'.currentCycle = cpu.currentCycle

/-- The queues without one entry each of a load or store that retires. -/
def releaseLsq (lsq : LoadStoreQueue) (instr : OOOModelInstr) : LoadStoreQueue :=
  let lsq := if instr.isLoad then lsq.removeLoad instr.instrID else lsq
  if instr.isStore then lsq.removeStore instr.instrID else lsq

theorem releaseLsq_spec (lsq : LoadStoreQueue) (instr : OOOModelInstr) :
    (releaseLsq lsq instr).loadQueue.map LSQEntry.instrID = (if 0 < instr.srcMemory.length then
      (lsq.loadQueue.map LSQEntry.instrID).erase instr.instrID else lsq.loadQueue.map LSQEntry.instrID) ∧
    (releaseLsq lsq instr).storeQueue.map LSQEntry.instrID = (if 0 < instr.destMemory.length then
      (lsq.storeQueue.map LSQEntry.instrID).erase instr.instrID else lsq.storeQueue.map LSQEntry.instrID) ∧
    (releaseLsq lsq instr).maxLQSize = lsq.maxLQSize ∧ (releaseLsq lsq instr).maxSQSize = lsq.maxSQSize := by
  unfold releaseLsq OOOModelInstr.isLoad OOOModelInstr.isStore
  simp only [decide_eq_true_eq]
  split <;> split <;> exact ⟨by first | exact map_eraseP_instrID .. | rfl,by first | exact map_eraseP_instrID .. | rfl,rfl,rfl⟩

/-- The queue loses an entry exactly when the instruction has some. -/
theorem Owns.length_retire {operands : Card → List UInt64} {cards : List Card} {card : Card} {ids : List Nat}
    (owns : Owns operands (card :: cards) ids) :
    (if 0 < (operands card).length then ids.erase card.instrID else ids).length =
      ids.length - (if 0 < (operands card).length then 1 else 0) := by
  have mine := owns.owned card List.mem_cons_self
  split
  · next some_left => exact List.length_erase_of_mem (List.count_pos_iff.mp (by omega))
  · rfl

/-- What the code does to the core for an instruction that has left the reorder buffer in
    order. -/
theorem retireInstr_eq {cpu : O3CPU} {instr : OOOModelInstr} {rob : ReorderBuffer}
    (older : ∀ other ∈ rob.buffer, instr.instrID < other.instrID) :
    ∃ regAlloc fetchQueue, fetchQueue <:+ cpu.fetchQueue ∧ { cpu with rob }.retireInstr instr =
      { cpu with rob, regAlloc, lsq := releaseLsq cpu.lsq instr, decodeQueue := cpu.waitingAfter [instr], fetchQueue } := by
  unfold O3CPU.retireInstr O3CPU.waitingAfter
  simp only [List.any_cons,List.any_nil,Bool.or_false]
  refine ⟨(instr.destRegisters.filter PhysicalRegisterID.isValid).foldl (fun ra reg => ra.retireDestRegister reg) cpu.regAlloc,?_⟩
  split
  · refine ⟨[],List.nil_suffix,?_⟩
    rw [O3CPU.handleBranchMisprediction,flush_absent fun other member => by have := older other member; omega]
    rfl
  · exact ⟨cpu.fetchQueue,List.suffix_rfl,rfl⟩

theorem LSQSound.retireInstr (sound : LSQSound cpu) {instr : OOOModelInstr} {rob : ReorderBuffer}
    (taken : cpu.rob.retire = some (instr,rob)) (few : instr.srcMemory.length ≤ 1 ∧ instr.destMemory.length ≤ 1) :
    Retired cpu [instr] ({ cpu with rob }.retireInstr instr) := by
  obtain ⟨buffer,maxSize,completed⟩ := retire_some taken
  have inside : cpu.inside = instr :: (rob.buffer ++ (cpu.decodeQueue ++ cpu.fetchQueue)) := by
    rw [O3CPU.inside,buffer]
    rfl
  have ordered := sound.ordered
  rw [inside,List.map_cons,List.pairwise_cons] at ordered
  have older : ∀ other ∈ rob.buffer, instr.instrID < other.instrID := fun other member =>
    ordered.1 _ (List.mem_map_of_mem (List.mem_append_left _ member))
  have older_card : ∀ other ∈ rob.buffer.map OOOModelInstr.card, instr.card.instrID < other.instrID := by
    intro other member
    obtain ⟨x,here,rfl⟩ := List.mem_map.mp member
    exact older x here
  have loads := sound.conserved.loads
  have stores := sound.conserved.stores
  rw [buffer,List.map_cons] at loads stores
  obtain ⟨load_ids,store_ids,sizes⟩ := releaseLsq_spec cpu.lsq instr
  obtain ⟨regAlloc,fetchQueue,suffix,eq⟩ := @retireInstr_eq cpu _ _ older
  have waiting : (cpu.waitingAfter [instr]).Sublist cpu.decodeQueue := by
    unfold O3CPU.waitingAfter
    split
    · exact List.nil_sublist _
    · exact List.Sublist.refl _
  have rest : (rob.buffer ++ (cpu.waitingAfter [instr] ++ fetchQueue)).Sublist cpu.inside := by
    rw [inside]
    exact ((List.Sublist.refl _).append (waiting.append suffix.sublist)).cons _
  rw [eq]
  constructor
  case sound =>
    refine ⟨sound.ordered.sublist (rest.map _),fun x member => sound.below x (rest.subset member),?_,?_⟩
    · show Owns _ _ ((releaseLsq cpu.lsq instr).loadQueue.map _)
      rw [load_ids]
      exact loads.retire older_card few.1
    · show Owns _ _ ((releaseLsq cpu.lsq instr).storeQueue.map _)
      rw [store_ids]
      exact stores.retire older_card few.2
  case rob => exact ⟨buffer,maxSize⟩
  case loads =>
    have lengths := loads.length_retire
    have same := congrArg List.length load_ids
    rw [List.length_map] at same
    simp only [List.countP_singleton,OOOModelInstr.isLoad,decide_eq_true_eq]
    exact same.trans (lengths.trans (by rw [List.length_map]; rfl))
  case stores =>
    have lengths := stores.length_retire
    have same := congrArg List.length store_ids
    rw [List.length_map] at same
    simp only [List.countP_singleton,OOOModelInstr.isStore,decide_eq_true_eq]
    exact same.trans (lengths.trans (by rw [List.length_map]; rfl))
  case sizes => exact sizes
  case waiting => rfl
  case time => exact ⟨rfl,rfl⟩

theorem waitingAfter_append (before after : List OOOModelInstr) (same : cpu'.decodeQueue = cpu.waitingAfter before) :
    cpu'.waitingAfter after = cpu.waitingAfter (before ++ after) := by
  unfold O3CPU.waitingAfter at *
  rw [List.any_append,same]
  cases before.any fun instr => instr.isBranch && instr.branchMispredicted <;>
    cases after.any fun instr => instr.isBranch && instr.branchMispredicted <;> rfl

theorem Retired.trans {cpu'' : O3CPU} {before after : List OOOModelInstr} (first : Retired cpu before cpu')
    (second : Retired cpu' after cpu'') : Retired cpu (before ++ after) cpu'' where
  sound := second.sound
  rob := ⟨by rw [first.rob.1,second.rob.1,List.append_assoc],second.rob.2.trans first.rob.2⟩
  loads := by rw [second.loads,first.loads,List.countP_append,Nat.sub_sub]
  stores := by rw [second.stores,first.stores,List.countP_append,Nat.sub_sub]
  sizes := ⟨second.sizes.1.trans first.sizes.1,second.sizes.2.trans first.sizes.2⟩
  waiting := second.waiting.trans (waitingAfter_append _ _ first.waiting)
  time := ⟨second.time.1.trans first.time.1,second.time.2.trans first.time.2⟩

theorem LSQSound.retireLoop (width : Nat) : ∀ {cpu : O3CPU}, LSQSound cpu →
    (∀ instr ∈ cpu.leaving width, instr.srcMemory.length ≤ 1 ∧ instr.destMemory.length ≤ 1) →
    Retired cpu (cpu.leaving width) (O3CPU.retireLoop width cpu) := by
  induction width with
  | zero =>
    intro cpu sound few
    rw [O3CPU.leaving,List.take_zero,O3CPU.retireLoop]
    exact ⟨sound,⟨rfl,rfl⟩,rfl,rfl,⟨rfl,rfl⟩,rfl,⟨rfl,rfl⟩⟩
  | succ width ih =>
    intro cpu sound few
    rw [O3CPU.retireLoop]
    rcases taken : cpu.rob.retire with _ | ⟨instr,rob⟩
    · have none_leave : cpu.leaving (width + 1) = [] := by
        unfold O3CPU.leaving
        rcases buffer : cpu.rob.buffer with _ | ⟨first,rest⟩
        · rfl
        · have unfinished : ¬ first.completed = true := by
            simpa [ReorderBuffer.retire,buffer] using taken
          rw [List.takeWhile_cons_of_neg unfinished,List.take_nil]
      rw [none_leave]
      exact ⟨sound,⟨rfl,rfl⟩,rfl,rfl,⟨rfl,rfl⟩,rfl,⟨rfl,rfl⟩⟩
    · obtain ⟨buffer,_,completed⟩ := retire_some taken
      have leave : cpu.leaving (width + 1) = instr :: (rob.buffer.takeWhile OOOModelInstr.completed).take width := by
        rw [O3CPU.leaving,buffer,List.takeWhile_cons_of_pos completed,List.take_succ_cons]
      rw [leave] at few ⊢
      have first := sound.retireInstr taken (few instr List.mem_cons_self)
      have same : ({ cpu with rob }.retireInstr instr).leaving width = (rob.buffer.takeWhile OOOModelInstr.completed).take width := by
        have left := first.rob.1
        rw [buffer] at left
        have tail : rob.buffer = ({ cpu with rob }.retireInstr instr).rob.buffer := (List.cons.inj left).2
        rw [O3CPU.leaving,← tail]
      have rest := ih first.sound (by rw [same]; exact fun other member => few other (List.mem_cons_of_mem _ member))
      rw [same] at rest
      exact first.trans rest

/-! ### The other stages -/

theorem LSQSound.kept (sound : LSQSound cpu) (kept : Kept cpu cpu') : LSQSound cpu' := by
  have ids : cpu'.inside.map OOOModelInstr.instrID = cpu.inside.map OOOModelInstr.instrID := by
    have robbed := congrArg (List.map Card.instrID) kept.rob
    rw [List.map_map,List.map_map] at robbed
    have same : cpu'.rob.buffer.map OOOModelInstr.instrID = cpu.rob.buffer.map OOOModelInstr.instrID := robbed
    simp only [O3CPU.inside,kept.queues.1,kept.queues.2,List.map_append,same]
  refine ⟨by rw [ids]; exact sound.ordered,?_,?_,?_⟩
  · intro instr member
    have id := List.mem_map_of_mem (f := OOOModelInstr.instrID) member
    rw [ids] at id
    obtain ⟨other,inside,same⟩ := List.mem_map.mp id
    rw [kept.trace.2.2.2,← same]
    exact sound.below other inside
  · rw [kept.rob,kept.loads]
    exact sound.conserved.loads
  · rw [kept.rob,kept.stores]
    exact sound.conserved.stores

theorem foldl_of_some {α β : Type} (f : β → α → β) (start : β) (items : List α) :
    (if decide (0 < items.length) = true then items.foldl f start else start) = items.foldl f start := by
  cases items <;> simp

/-- The entries of an instruction, when there is room for all. -/
theorem doMemoryScheduling_spec (cpu : O3CPU) (instr : OOOModelInstr)
    (loads_fit : instr.srcMemory.length ≤ cpu.lsq.maxLQSize - cpu.lsq.loadQueue.length)
    (stores_fit : instr.destMemory.length ≤ cpu.lsq.maxSQSize - cpu.lsq.storeQueue.length) :
    ∃ lsq, cpu.doMemoryScheduling instr = { cpu with lsq } ∧
      lsq.loadQueue.map LSQEntry.instrID =
        cpu.lsq.loadQueue.map LSQEntry.instrID ++ List.replicate instr.srcMemory.length instr.instrID ∧
      lsq.storeQueue.map LSQEntry.instrID =
        cpu.lsq.storeQueue.map LSQEntry.instrID ++ List.replicate instr.destMemory.length instr.instrID ∧
      lsq.maxLQSize = cpu.lsq.maxLQSize ∧ lsq.maxSQSize = cpu.lsq.maxSQSize := by
  let entry (addr : UInt64) := newLSQEntry instr.instrID addr (cpu.currentCycle + cpu.config.dispatchLatency)
  have mine : ∀ addrs : List UInt64, (addrs.map entry).map LSQEntry.instrID = List.replicate addrs.length instr.instrID := by
    intro addrs
    rw [List.map_map]
    exact List.map_const'
  refine ⟨{ cpu.lsq with
    loadQueue := cpu.lsq.loadQueue ++ instr.srcMemory.map entry
    storeQueue := cpu.lsq.storeQueue ++ instr.destMemory.map entry },?_,?_,?_,rfl,rfl⟩
  · unfold O3CPU.doMemoryScheduling OOOModelInstr.isLoad OOOModelInstr.isStore
    dsimp only
    rw [foldl_of_some,foldl_of_some,addLoads_fit entry _ _ loads_fit,
      addStores_fit entry _ { cpu.lsq with loadQueue := cpu.lsq.loadQueue ++ instr.srcMemory.map entry } stores_fit]
  · rw [List.map_append,mine]
  · rw [List.map_append,mine]

/-- An instruction enters the reorder buffer with all its entries. -/
theorem LSQSound.enter (sound : LSQSound cpu) {instr : OOOModelInstr} {rest : List OOOModelInstr} {readyTime : Nat}
    {lsq : LoadStoreQueue} (queue : cpu.decodeQueue = instr :: rest)
    (load_ids : lsq.loadQueue.map LSQEntry.instrID =
      cpu.lsq.loadQueue.map LSQEntry.instrID ++ List.replicate instr.srcMemory.length instr.instrID)
    (store_ids : lsq.storeQueue.map LSQEntry.instrID =
      cpu.lsq.storeQueue.map LSQEntry.instrID ++ List.replicate instr.destMemory.length instr.instrID) :
    LSQSound { cpu with rob := { cpu.rob with buffer := cpu.rob.buffer ++ [{ instr with readyTime }] }, lsq, decodeQueue := rest } := by
  have inside : cpu.inside = cpu.rob.buffer ++ (instr :: rest ++ cpu.fetchQueue) := by rw [O3CPU.inside,queue]
  have ordered := sound.ordered
  have below := sound.below
  rw [inside] at ordered below
  have ids : (cpu.rob.buffer ++ [{ instr with readyTime }] ++ (rest ++ cpu.fetchQueue)).map OOOModelInstr.instrID =
      (cpu.rob.buffer ++ (instr :: rest ++ cpu.fetchQueue)).map OOOModelInstr.instrID := by simp
  have younger : ∀ other ∈ cpu.rob.buffer.map OOOModelInstr.card, other.instrID < instr.card.instrID := by
    intro other member
    obtain ⟨x,here,rfl⟩ := List.mem_map.mp member
    rw [List.map_append] at ordered
    exact (List.pairwise_append.mp ordered).2.2 _ (List.mem_map_of_mem here) _ (by simp [OOOModelInstr.card])
  refine ⟨?_,?_,?_,?_⟩
  · show ((cpu.rob.buffer ++ [{ instr with readyTime }] ++ (rest ++ cpu.fetchQueue)).map _).Pairwise _
    rw [ids]
    exact ordered
  · intro x member
    have id := List.mem_map_of_mem (f := OOOModelInstr.instrID) member
    have id' : x.instrID ∈ (cpu.rob.buffer ++ [{ instr with readyTime }] ++ (rest ++ cpu.fetchQueue)).map
      OOOModelInstr.instrID := id
    rw [ids] at id'
    obtain ⟨other,here,same⟩ := List.mem_map.mp id'
    rw [← same]
    exact below other here
  · show Owns _ ((cpu.rob.buffer ++ [_]).map _) (lsq.loadQueue.map _)
    rw [List.map_append,load_ids]
    exact @Owns.dispatch _ _ instr.card _ sound.conserved.loads younger
  · show Owns _ ((cpu.rob.buffer ++ [_]).map _) (lsq.storeQueue.map _)
    rw [List.map_append,store_ids]
    exact @Owns.dispatch _ _ instr.card _ sound.conserved.stores younger

/-- Dispatching keeps the queues owned when what is let in fits. -/
theorem LSQSound.dispatchLoop (width : Nat) : ∀ {cpu : O3CPU}, LSQSound cpu →
    AllFit cpu.currentCycle width (cpu.rob.maxSize - cpu.rob.size) (cpu.lsq.maxLQSize - cpu.lsq.loadQueue.length)
      (cpu.lsq.maxSQSize - cpu.lsq.storeQueue.length) cpu.decodeQueue →
    LSQSound (O3CPU.dispatchLoop width cpu) := by
  induction width with
  | zero => exact fun sound _ => sound
  | succ width ih =>
    intro cpu sound fit
    rw [O3CPU.dispatchLoop]
    split
    · exact sound
    · next instr rest queue =>
      split
      · exact sound
      · next ready =>
        split
        · exact sound
        · next roomy =>
          split
          · exact sound
          · next loads_open =>
            split
            · exact sound
            · next stores_open =>
              split
              · exact sound
              · next rob added =>
                obtain rfl := ReorderBuffer.eq_of_add added
                simp only [ReorderBuffer.isFull,LoadStoreQueue.isLoadQueueFull,LoadStoreQueue.isStoreQueueFull,Bool.and_eq_true,
                  decide_eq_true_eq,not_and,Nat.not_le] at roomy loads_open stores_open
                rw [queue,AllFit] at fit
                obtain ⟨loads_fit,stores_fit,rest_fit⟩ := fit (Nat.not_lt.mp ready) (by omega)
                  (fun some_load => by have := loads_open some_load; omega)
                  (fun some_store => by have := stores_open some_store; omega)
                have entered := doMemoryScheduling_spec { cpu with rob := { cpu.rob with buffer := cpu.rob.buffer ++
                  [{ instr with readyTime := cpu.currentCycle + cpu.config.dispatchLatency }] } } instr
                  loads_fit stores_fit
                obtain ⟨lsq,eq,load_ids,store_ids,sizes⟩ := entered
                rw [eq]
                exact ih (sound.enter queue load_ids store_ids) (by
                  have load_count := congrArg List.length load_ids
                  have store_count := congrArg List.length store_ids
                  simp only [List.length_map,List.length_append,List.length_replicate] at load_count store_count
                  simp only [ReorderBuffer.size,List.length_append,List.length_singleton,load_count,store_count,sizes.1,sizes.2,
                    ← Nat.sub_sub] at rest_fit ⊢
                  exact rest_fit)

/-- What moves in the queues before dispatch does not matter to the entries. -/
theorem LSQSound.moved (sound : LSQSound cpu) (same : cpu'.rob = cpu.rob ∧ cpu'.lsq = cpu.lsq)
    (ordered : (cpu'.inside.map OOOModelInstr.instrID).Pairwise (· < ·))
    (below : ∀ instr ∈ cpu'.inside, instr.instrID < cpu'.instrCounter) : LSQSound cpu' where
  ordered := ordered
  below := below
  conserved := by
    constructor
    · rw [same.1,same.2]
      exact sound.conserved.loads
    · rw [same.1,same.2]
      exact sound.conserved.stores

theorem LSQSound.decode (sound : LSQSound cpu) : LSQSound cpu.decode := by
  refine O3CPU.decode_rule (fun cpu instr rest sound queue => ?_) sound
  have ordered := sound.ordered
  have below := sound.below
  rw [O3CPU.inside,queue] at ordered below
  refine sound.moved ⟨rfl,rfl⟩ ?_ ?_
  · simpa [O3CPU.inside,O3CPU.decodedFirst] using ordered
  · intro x member
    have here : x ∈ cpu.rob.buffer ++ (cpu.decodeQueue ++ [_] ++ rest) := member
    simp only [List.mem_append,List.mem_cons,List.not_mem_nil,or_false] at here below
    rcases here with old | (queued | rfl) | young
    · exact below x (.inl old)
    · exact below x (.inr (.inl queued))
    · exact below instr (.inr (.inr (.inl rfl)))
    · exact below x (.inr (.inr (.inr young)))

theorem LSQSound.fetched (sound : LSQSound cpu) (read : TraceInstr) : LSQSound (cpu.fetched read) := by
  let instr := { OOOModelInstr.ofTrace read with
    instrID := cpu.instrCounter
    readyTime := cpu.currentCycle + cpu.config.fetchLatency
    fetchIssued := true }
  have same : (cpu.fetched read).inside = cpu.inside ++ [instr] := by simp [O3CPU.inside,O3CPU.fetched,instr]
  refine sound.moved ⟨rfl,rfl⟩ ?_ ?_
  · rw [same,List.map_append,List.map_singleton]
    refine List.pairwise_append.mpr ⟨sound.ordered,List.pairwise_singleton ..,fun id member id' last => ?_⟩
    obtain ⟨x,inside,rfl⟩ := List.mem_map.mp member
    obtain rfl := List.mem_singleton.mp last
    exact sound.below x inside
  · intro x member
    rw [same] at member
    rcases List.mem_append.mp member with old | new
    · exact Nat.lt_succ_of_lt (sound.below x old)
    · obtain rfl := List.mem_singleton.mp new
      exact Nat.lt_succ_self _

theorem LSQSound.fetch (sound : LSQSound cpu) : LSQSound cpu.fetch :=
  O3CPU.fetch_rule (fun _ sound _ => sound.moved ⟨rfl,rfl⟩ sound.ordered sound.below) (fun _ read sound _ => sound.fetched read) sound

/-! ### Runs -/

theorem LSQSound.tick (sound : LSQSound cpu) (conserving : cpu.Conserving .tick) (ticked : cpu.tick = .ok cpu') : LSQSound cpu' := by
  obtain ⟨mid,kept,rfl⟩ := tick_stages ticked
  obtain ⟨few,fit⟩ := conserving
  have begun : LSQSound { cpu with currentCycle := cpu.currentCycle + 1 } := sound.moved ⟨rfl,rfl⟩ sound.ordered sound.below
  have retired : Retired { cpu with currentCycle := cpu.currentCycle + 1 } (cpu.leaving cpu.config.retireWidth)
    { cpu with currentCycle := cpu.currentCycle + 1 }.retire := begun.retireLoop cpu.config.retireWidth few
  have loads := congrArg List.length kept.loads
  have stores := congrArg List.length kept.stores
  have size := congrArg List.length kept.rob
  simp only [List.length_map] at loads stores size
  have left := congrArg List.length retired.rob.1
  rw [List.length_append] at left
  refine (LSQSound.dispatchLoop _ (retired.sound.kept kept) ?_).decode.fetch
  have room : mid.rob.size = cpu.rob.size - (cpu.leaving cpu.config.retireWidth).length := by
    show mid.rob.buffer.length = cpu.rob.buffer.length - _
    rw [size]
    exact (Nat.sub_eq_of_eq_add' left).symm
  rw [kept.time.1,kept.time.2,kept.robSize,kept.lsqSizes.1,kept.lsqSizes.2,kept.queues.1,loads,stores,room,retired.time.1,
    retired.time.2,retired.rob.2,retired.sizes.1,retired.sizes.2,retired.waiting,retired.loads,retired.stores]
  exact fit

theorem LSQSound.step (sound : LSQSound cpu) {action : O3CPU.Action} (conserving : cpu.Conserving action)
    (stepped : cpu.step action = some cpu') : LSQSound cpu' := by
  cases action with
  | tick =>
    exact sound.tick conserving (O3CPU.tick_of_step stepped)
  | fetch =>
    cases stepped
    exact sound.fetch
  | handleLoadResponse instrID cycle =>
    cases stepped
    exact sound.kept (kept_handleLoadResponse ..)
  | handleStoreResponse instrID cycle =>
    cases stepped
    exact sound.kept (kept_handleStoreResponse ..)
  | setStandaloneMode standalone =>
    cases stepped
    exact sound.moved ⟨rfl,rfl⟩ sound.ordered sound.below
  | setL1DCache cache =>
    cases stepped
    exact sound.moved ⟨rfl,rfl⟩ sound.ordered sound.below

theorem lsqSound_new (traceReader : Nat → Option TraceInstr) (config : O3CPUConfig) :
    LSQSound (.newO3CPU traceReader config) where
  ordered := .nil
  below _ member := absurd member List.not_mem_nil
  conserved := ⟨⟨fun _ member => absurd member List.not_mem_nil,fun _ member => absurd member List.not_mem_nil⟩,
    ⟨fun _ member => absurd member List.not_mem_nil,fun _ member => absurd member List.not_mem_nil⟩⟩

/-- In every run in which only instructions with at most one load and one store retire, and
    what is dispatched has room for all its entries, the instructions of the reorder buffer
    own the entries. -/
theorem lsq_conserved {traceReader : Nat → Option TraceInstr} {config : O3CPUConfig}
    (reached : Reaches O3CPU.step O3CPU.Conserving (.newO3CPU traceReader config) cpu) : LSQConserved cpu :=
  (reached.invariant (P := LSQSound) (lsqSound_new traceReader config)
    fun _ sound conserving stepped => sound.step conserving stepped).conserved

/-- One load and one store. -/
def loadAndStore : Nat → Option TraceInstr
  | 0 => some { isBranch := false, branchMispredicted := false, destRegisters := [], srcRegisters := [],
                destMemory := [128], srcMemory := [64] }
  | _ => none

def loadAndStoreRun : Option O3CPU :=
  runActions O3CPU.step O3CPU.Conserving (List.replicate 4 .tick) (.newO3CPU loadAndStore defaultO3CPUConfig)

theorem loadAndStoreRun_isSome : loadAndStoreRun.isSome = true := by decide +kernel

theorem lsq_conserved_loadAndStore : (loadAndStoreRun.get loadAndStoreRun_isSome).lsq.loadQueue.length = 1 ∧
    LSQConserved (loadAndStoreRun.get loadAndStoreRun_isSome) :=
  ⟨by decide +kernel,lsq_conserved (reaches_runActions _ (Option.some_get loadAndStoreRun_isSome).symm)⟩

/-! ### An instruction with two loads -/

def twoLoads : Nat → Option TraceInstr
  | 0 => some { isBranch := false, branchMispredicted := false, destRegisters := [], srcRegisters := [],
                destMemory := [], srcMemory := [64,128] }
  | _ => none

def twoLoadsRun : Option O3CPU :=
  runActions O3CPU.step (fun _ _ => True) (List.replicate 10 .tick) (.newO3CPU twoLoads defaultO3CPUConfig)

theorem twoLoadsRun_isSome : twoLoadsRun.isSome = true := by decide +kernel

/-- The second entry stays behind when the instruction has retired. -/
theorem entry_left_behind : ∃ cpu, Reachable O3CPU.step (.newO3CPU twoLoads defaultO3CPUConfig) cpu ∧ ¬ LSQConserved cpu := by
  refine ⟨twoLoadsRun.get twoLoadsRun_isSome,reaches_runActions _ (Option.some_get twoLoadsRun_isSome).symm,fun conserved => ?_⟩
  have entry : 0 ∈ (twoLoadsRun.get twoLoadsRun_isSome).lsq.loadQueue.map LSQEntry.instrID := by decide +kernel
  have empty : (twoLoadsRun.get twoLoadsRun_isSome).rob.buffer.map OOOModelInstr.card = [] := by decide +kernel
  obtain ⟨card,member,_⟩ := conserved.loads.live 0 entry
  rw [empty] at member
  exact absurd member List.not_mem_nil

end
end FlowSim.Cpu
