import FlowSim.Cache.SetAssociativeCache

/-!
What an access and a fill do to the registers of a cache, told once for all that is shown
of their sessions.
-/
namespace FlowSim.Cache
set_option linter.unusedSimpArgs false

/-! ### The registers -/

namespace MSHRQueue
variable {mq mq' : MSHRQueue} {addr : UInt64}

/-- The blocks that have an entry. -/
def blocks (mq : MSHRQueue) : List UInt64 := mq.entries.map MSHREntry.address

theorem find_eq_none_iff : mq.find addr = none ↔ addr ∉ mq.blocks := by
  unfold find blocks
  rw [List.findIdx?_eq_none_iff,List.mem_map]
  constructor
  · rintro none_has ⟨entry,member,same⟩
    have := none_has entry member
    exact absurd same (by simpa using this)
  · intro without entry member
    simp only [decide_eq_false_iff_not]
    exact fun same => without ⟨entry,member,same⟩

@[simp] theorem blocks_merge (index instrID : Nat) : (mq.merge index instrID).blocks = mq.blocks := by
  unfold merge blocks
  apply List.ext_getElem?
  intro i
  rw [List.getElem?_map,List.getElem?_map,List.getElem?_modify]
  cases mq.entries[i]? with
  | none => rfl
  | some entry =>
    simp only [Option.map_eq_map,Option.map_some,Option.some.injEq]
    split_ifs <;> rfl

@[simp] theorem maxSize_merge (index instrID : Nat) : (mq.merge index instrID).maxSize = mq.maxSize := rfl

theorem blocks_removeByAddress : (mq.removeByAddress addr).blocks = mq.blocks.erase addr := by
  unfold removeByAddress blocks
  induction mq.entries with
  | nil => rfl
  | cons entry rest ih =>
    by_cases same : entry.address = addr
    · simp [List.eraseP_cons,List.erase_cons,same]
    · simpa [List.eraseP_cons,List.erase_cons,same] using ih

@[simp] theorem maxSize_removeByAddress : (mq.removeByAddress addr).maxSize = mq.maxSize := rfl

theorem allocate_cases {entry : MSHREntry} :
    (mq.maxSize ≤ mq.blocks.length ∧ mq.allocate entry = none) ∨
    (mq.blocks.length < mq.maxSize ∧ ∃ mq', mq.allocate entry = some (mq.entries.length,mq') ∧
      mq'.blocks = mq.blocks ++ [entry.address] ∧ mq'.maxSize = mq.maxSize) := by
  have length : mq.blocks.length = mq.entries.length := List.length_map _
  unfold allocate isFull
  by_cases full : mq.maxSize ≤ mq.entries.length
  · refine .inl ⟨by omega,?_⟩
    rw [decide_eq_true full]
    rfl
  · refine .inr ⟨by omega,{ mq with entries := mq.entries ++ [entry] },?_,?_,rfl⟩
    · rw [decide_eq_false full]
      rfl
    · rw [blocks,List.map_append]
      rfl

end MSHRQueue

namespace SetAssociativeCache

@[simp] theorem blockAddr_blockAddr (c : SetAssociativeCache) (addr : UInt64) : c.blockAddr (c.blockAddr addr) = c.blockAddr addr :=
  div_mul_div_mul ..

/-! ### What a miss comes to -/

/-- What a miss on the block does to the cache, and the request it makes. -/
inductive Missed (c : SetAssociativeCache) (block : UInt64) : Option MemoryRequest → SetAssociativeCache → Prop where
  | merged (entry : block ∈ c.mshr.blocks) (mshr : MSHRQueue) (blocks : mshr.blocks = c.mshr.blocks)
      (maxSize : mshr.maxSize = c.mshr.maxSize) : Missed c block none { c with mshr }
  | uncovered (no_entry : block ∉ c.mshr.blocks) (full : c.mshr.maxSize ≤ c.mshr.blocks.length) : Missed c block none c
  | requested (no_entry : block ∉ c.mshr.blocks) (room : c.mshr.blocks.length < c.mshr.maxSize) (lower : c.lowerLevel = true)
      (mshr : MSHRQueue) (blocks : mshr.blocks = c.mshr.blocks ++ [block]) (maxSize : mshr.maxSize = c.mshr.maxSize)
      (request : MemoryRequest) (address : request.address = block) : Missed c block (some request) { c with mshr }
  | filled (no_entry : block ∉ c.mshr.blocks) (room : c.mshr.blocks.length < c.mshr.maxSize) (alone : c.lowerLevel = false)
      (standalone : c.standaloneMode = true) (mshr : MSHRQueue) (blocks : mshr.blocks = c.mshr.blocks ++ [block])
      (maxSize : mshr.maxSize = c.mshr.maxSize) (cycle : Nat) : Missed c block none ({ c with mshr }.handleFill block cycle)
  | waiting (no_entry : block ∉ c.mshr.blocks) (room : c.mshr.blocks.length < c.mshr.maxSize) (alone : c.lowerLevel = false)
      (standalone : c.standaloneMode = false) (mshr : MSHRQueue) (blocks : mshr.blocks = c.mshr.blocks ++ [block])
      (maxSize : mshr.maxSize = c.mshr.maxSize) : Missed c block none { c with mshr }

theorem missed_handleMiss (c : SetAssociativeCache) (addr vaddr : UInt64) (instrID : Nat) (accessType : AccessType)
    (cycle : Nat) : let made := c.handleMiss addr vaddr instrID accessType cycle
      Missed c (c.blockAddr addr) made.2.1 made.2.2 := by
  intro made
  show Missed c (c.blockAddr addr) (c.handleMiss addr vaddr instrID accessType cycle).2.1
    (c.handleMiss addr vaddr instrID accessType cycle).2.2
  unfold handleMiss
  dsimp only
  cases found : c.mshr.find (c.blockAddr addr) with
  | some index =>
    have entry : c.blockAddr addr ∈ c.mshr.blocks := by
      by_contra no_entry
      rw [MSHRQueue.find_eq_none_iff.mpr no_entry] at found
      cases found
    exact .merged entry _ (MSHRQueue.blocks_merge ..) rfl
  | none =>
    have no_entry := MSHRQueue.find_eq_none_iff.mp found
    dsimp only
    rcases MSHRQueue.allocate_cases with ⟨full,refused⟩ | ⟨room,mshr,allocated,blocks,maxSize⟩
    · rw [refused]
      exact .uncovered no_entry full
    · rw [allocated]
      dsimp only
      split_ifs with lower standalone
      · exact .requested no_entry room lower mshr blocks maxSize _ rfl
      · exact .filled no_entry room (by simpa using lower) standalone mshr blocks maxSize _
      · exact .waiting no_entry room (by simpa using lower) (by simpa using standalone) mshr blocks maxSize

/-- An access hits and leaves the registers as they are, or misses. -/
theorem access_cases (c : SetAssociativeCache) (addr vaddr : UInt64) (instrID : Nat) (accessType : AccessType) (cycle : Nat) :
    let found := c.core.access addr (decide (accessType = .store))
    let made := c.access addr vaddr instrID accessType cycle
    made.1.hit = found.1.hit ∧
    if found.1.hit then made.2 = (none,{ c with currentCycle := cycle, core := found.2 })
    else Missed { c with currentCycle := cycle, core := found.2 } (c.blockAddr addr) made.2.1 made.2.2 := by
  intro found made
  by_cases hit : found.1.hit = true
  · have same : made = (⟨true,cycle + c.config.hitLatency,-1⟩,none,{ c with currentCycle := cycle, core := found.2 }) := if_pos hit
    rw [same,if_pos hit,hit]
    exact ⟨rfl,rfl⟩
  · have same : made = handleMiss { c with currentCycle := cycle, core := found.2 } addr vaddr instrID accessType cycle := if_neg hit
    rw [same,if_neg hit]
    exact ⟨(hit_handleMiss ..).trans (by simpa using hit),missed_handleMiss ..⟩

end SetAssociativeCache
end FlowSim.Cache
