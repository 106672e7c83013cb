import FlowSim.Trace.SharedReader

/-!
What the readers of a trace share. However the readers and the prefetcher take turns, the
shared data are the first blocks of the trace, as many as `nextBlock` says, and what is left
of the stream; no block is ever dropped, since the slowest reader is never said to advance.
-/
namespace FlowSim.Trace
open FlowSim.Lib
set_option linter.unusedSimpArgs false

theorem instrsPerBlock_pos : 0 < instrsPerBlock := by decide

/-! ### The blocks of a trace -/

/-- The instructions of the complete records, as blocks have them. -/
def sharedInstrs (file : List UInt8) : List OOOModelInstr :=
  (records 64 file).map fun raw => .newFromInput 0 (.ofBytes raw)

/-- The block at an index. -/
def blockAt (file : List UInt8) (blockID : Nat) : TraceBlock where
  blockID := blockID
  startOffset := blockID * instrsPerBlock
  instructions := ((sharedInstrs file).drop (blockID * instrsPerBlock)).take instrsPerBlock

/-- The number of blocks. The last one may have fewer instructions, but is dropped where
    the stream ends inside a record. -/
def blockCount (file : List UInt8) : Nat :=
  if file.length % 64 = 0 then (file.length / 64 + instrsPerBlock - 1) / instrsPerBlock
  else file.length / 64 / instrsPerBlock

/-- How the end of a stream shows. -/
def EndError (file : List UInt8) (err : ReadError) : Prop :=
  err = .eof ∨ (err = .unexpectedEOF ∧ file.length % 64 ≠ 0)

section
variable {file : List UInt8} {j : Nat}

theorem sharedInstrs_length : (sharedInstrs file).length = file.length / 64 := by
  rw [sharedInstrs,List.length_map,records_length]

theorem start_lt (within : j < blockCount file) : j * instrsPerBlock < file.length / 64 := by
  have positive := instrsPerBlock_pos
  unfold blockCount at within
  split at within
  · have below := (Nat.le_div_iff_mul_le positive).mp within
    rw [Nat.succ_mul] at below
    omega
  · have below := (Nat.le_div_iff_mul_le positive).mp within
    rw [Nat.succ_mul] at below
    omega

theorem whole_le (whole : file.length % 64 = 0) (past : blockCount file ≤ j) : file.length / 64 ≤ j * instrsPerBlock := by
  have positive := instrsPerBlock_pos
  unfold blockCount at past
  rw [if_pos whole] at past
  have below := Nat.lt_succ_of_le past
  rw [Nat.div_lt_iff_lt_mul positive,Nat.succ_mul] at below
  omega

theorem cut_le (cut : file.length % 64 ≠ 0) (within : j < blockCount file) : (j + 1) * instrsPerBlock ≤ file.length / 64 := by
  unfold blockCount at within
  rw [if_neg cut] at within
  exact (Nat.le_div_iff_mul_le instrsPerBlock_pos).mp within

theorem cut_lt (cut : file.length % 64 ≠ 0) (past : blockCount file ≤ j) : file.length / 64 < (j + 1) * instrsPerBlock := by
  unfold blockCount at past
  rw [if_neg cut] at past
  exact (Nat.div_lt_iff_lt_mul instrsPerBlock_pos).mp (Nat.lt_succ_of_le past)

/-- What is left of the stream where a block begins. -/
def streamAt (file : List UInt8) (j : Nat) : List UInt8 := file.drop (64 * (j * instrsPerBlock))

theorem streamAt_instrs (within : j * instrsPerBlock ≤ file.length / 64) :
    (records 64 (streamAt file j)).map (fun raw => OOOModelInstr.newFromInput 0 (.ofBytes raw)) =
      (sharedInstrs file).drop (j * instrsPerBlock) := by
  rw [streamAt,← records_drop (by decide) within,sharedInstrs,List.map_drop]

theorem streamAt_count (j : Nat) : (streamAt file j).length / 64 = file.length / 64 - j * instrsPerBlock := by
  rw [streamAt,List.length_drop,Nat.sub_mul_div]

theorem streamAt_cut (within : j * instrsPerBlock ≤ file.length / 64) : (streamAt file j).length % 64 = file.length % 64 := by
  rw [streamAt,List.length_drop,Nat.sub_mul_mod (Nat.le_trans (Nat.mul_le_mul_left 64 within) (Nat.mul_div_le ..))]

/-! ### The shared data -/

/-- The shared data are the first blocks of the file and the rest of the stream. -/
structure Loads (file : List UInt8) (s : SharedTraceData) : Prop where
  next_le : s.nextBlock ≤ blockCount file
  blocks : s.blocks = (List.range s.nextBlock).map (blockAt file)
  stream : s.reader = streamAt file s.nextBlock ∨ (s.reader = [] ∧ s.nextBlock = blockCount file)
  ended : s.eof = true → s.nextBlock = blockCount file ∧ s.reader = []
  slowest : s.minBlockID = 0
  cleanups : s.cleanups = 0

theorem loads_new (file : List UInt8) : Loads file (.newSharedTrace file) where
  next_le := Nat.zero_le _
  blocks := rfl
  stream := by
    refine .inl ?_
    rw [streamAt,show (SharedTraceData.newSharedTrace file).nextBlock = 0 from rfl,Nat.zero_mul]
    rfl
  ended := by simp [SharedTraceData.newSharedTrace]
  slowest := rfl
  cleanups := rfl

theorem find_blocks (file : List UInt8) (blockID : Nat) : ∀ next : Nat,
    ((List.range next).map (blockAt file)).find? (fun block => block.blockID == blockID) =
      if blockID < next then some (blockAt file blockID) else none
  | 0 => by simp
  | next + 1 => by
    rw [List.range_succ,List.map_append,List.find?_append,find_blocks file blockID next]
    by_cases before : blockID < next
    · rw [if_pos before,if_pos (Nat.lt_succ_of_lt before)]
      rfl
    · by_cases here : blockID = next
      · subst here
        simp [blockAt]
      · have after : ¬ blockID < next + 1 := by omega
        rw [if_neg before,if_neg after]
        simp [blockAt,Ne.symm here]

section
variable {s : SharedTraceData} (loads : Loads file s)
include loads

theorem Loads.findBlock (blockID : Nat) :
    s.findBlock blockID = if blockID < s.nextBlock then some (blockAt file blockID) else none := by
  rw [SharedTraceData.findBlock,loads.blocks,find_blocks]

theorem Loads.findBlock_next : s.findBlock s.nextBlock = none := by
  rw [loads.findBlock,if_neg (Nat.lt_irrefl _)]

/-- As long as there is a block left, it is loaded. -/
theorem Loads.loadBlock_next (more : s.nextBlock < blockCount file) : ∃ s',
    s.loadBlock s.nextBlock = (.ok (blockAt file s.nextBlock),s') ∧ Loads file s' ∧ s'.nextBlock = s.nextBlock + 1 := by
  have goes_on : s.eof = false := by
    by_contra ended
    exact absurd (loads.ended (by simpa using ended)).1 (Nat.ne_of_lt more)
  have stream : s.reader = streamAt file s.nextBlock := loads.stream.resolve_right fun ⟨_,all⟩ => Nat.ne_of_lt more all
  have within := start_lt more
  have count : (streamAt file s.nextBlock).length / 64 = file.length / 64 - s.nextBlock * instrsPerBlock := streamAt_count _
  have some_instr : ((sharedInstrs file).drop (s.nextBlock * instrsPerBlock)).length ≠ 0 := by
    rw [List.length_drop,sharedInstrs_length]
    omega
  have some_taken : (((sharedInstrs file).drop (s.nextBlock * instrsPerBlock)).take instrsPerBlock).length ≠ 0 := by
    have := instrsPerBlock_pos
    rw [List.length_take]
    omega
  unfold SharedTraceData.loadBlock
  rw [if_neg (by simp [goes_on]),loads.findBlock_next]
  simp only [ne_eq,not_true_eq_false,if_false,goes_on,Bool.false_eq_true,stream]
  by_cases enough : instrsPerBlock ≤ (streamAt file s.nextBlock).length / 64
  · rw [readBulk_enough (by decide) enough,streamAt_instrs within.le]
    simp only [Option.isSome_none,Bool.false_eq_true,false_and,if_false,if_neg some_taken]
    refine ⟨_,rfl,⟨more,?_,.inl ?_,by simp,loads.slowest,loads.cleanups⟩,rfl⟩
    · rw [loads.blocks,List.range_succ,List.map_append]
      rfl
    · show (streamAt file s.nextBlock).drop _ = streamAt file (s.nextBlock + 1)
      have further : 64 * (s.nextBlock * instrsPerBlock) + 64 * instrsPerBlock = 64 * ((s.nextBlock + 1) * instrsPerBlock) := by
        ring
      rw [streamAt,streamAt,List.drop_drop,further]
  · have short := Nat.lt_of_not_le enough
    have whole : file.length % 64 = 0 := by
      by_contra cut
      have := cut_le cut more
      rw [Nat.succ_mul] at this
      omega
    have last : s.nextBlock + 1 = blockCount file := by
      rcases Nat.lt_or_ge (s.nextBlock + 1) (blockCount file) with another | all
      · have := start_lt another
        rw [Nat.succ_mul] at this
        omega
      · exact Nat.le_antisymm more all
    have all_taken : ((sharedInstrs file).drop (s.nextBlock * instrsPerBlock)).length ≤ instrsPerBlock := by
      rw [List.length_drop,sharedInstrs_length]
      omega
    have block : blockAt file s.nextBlock =
        ⟨s.nextBlock,s.nextBlock * instrsPerBlock,(sharedInstrs file).drop (s.nextBlock * instrsPerBlock)⟩ := by
      rw [blockAt,List.take_of_length_le all_taken]
    rw [readBulk_short (by decide) short,streamAt_instrs within.le,streamAt_cut within.le,if_pos whole]
    simp only [Option.isSome_some,ne_eq,not_true_eq_false,and_false,if_false,if_neg some_instr]
    rw [block]
    refine ⟨_,rfl,⟨more,?_,.inr ⟨rfl,last⟩,fun _ => ⟨last,rfl⟩,loads.slowest,loads.cleanups⟩,rfl⟩
    rw [loads.blocks,List.range_succ,List.map_append,List.map_singleton,block]

/-- When all blocks are loaded, the end of the stream shows. -/
theorem Loads.loadBlock_end (all : s.nextBlock = blockCount file) : ∃ err s',
    s.loadBlock s.nextBlock = (.error err,s') ∧ EndError file err ∧ Loads file s' ∧ s'.nextBlock = s.nextBlock := by
  by_cases goes_on : s.eof = false
  · unfold SharedTraceData.loadBlock
    rw [if_neg (by simp [goes_on]),loads.findBlock_next]
    simp only [ne_eq,not_true_eq_false,if_false,goes_on,Bool.false_eq_true]
    by_cases empty : s.reader.length = 0
    · have nothing := List.length_eq_zero_iff.mp empty
      have short : s.reader.length / 64 < instrsPerBlock := by
        rw [empty]
        exact instrsPerBlock_pos
      rw [readBulk_short (by decide) short,nothing,records_short (by decide)]
      refine ⟨.eof,_,rfl,.inl rfl,⟨loads.next_le,loads.blocks,.inr ⟨rfl,all⟩,fun _ => ⟨all,rfl⟩,loads.slowest,loads.cleanups⟩,rfl⟩
    · have stream : s.reader = streamAt file s.nextBlock := loads.stream.resolve_right fun ⟨nothing,_⟩ => empty (by rw [nothing]; rfl)
      have cut : file.length % 64 ≠ 0 := by
        intro whole
        have past := whole_le whole all.ge
        have := Nat.div_add_mod file.length 64
        rw [stream,streamAt,List.length_drop] at empty
        omega
      have within : s.nextBlock * instrsPerBlock ≤ file.length / 64 := by
        rw [all,blockCount,if_neg cut]
        exact Nat.div_mul_le_self ..
      have short : (streamAt file s.nextBlock).length / 64 < instrsPerBlock := by
        have past := cut_lt cut all.ge
        rw [Nat.succ_mul] at past
        rw [streamAt_count]
        omega
      rw [stream,readBulk_short (by decide) short,streamAt_cut within,if_neg cut]
      refine ⟨.unexpectedEOF,_,rfl,.inr ⟨rfl,cut⟩,⟨loads.next_le,loads.blocks,.inr ⟨rfl,all⟩,?_,loads.slowest,loads.cleanups⟩,rfl⟩
      simp [goes_on]
  · have ended : s.eof = true := by simpa using goes_on
    refine ⟨.eof,s,?_,.inl rfl,loads,rfl⟩
    unfold SharedTraceData.loadBlock
    rw [if_pos ⟨ended,le_rfl⟩]

end

/-! ### The operations -/

/-- What loading some blocks from one on leaves. -/
structure Ensured (file : List UInt8) (s : SharedTraceData) (blockID count : Nat) (err : Option ReadError) (s' : SharedTraceData) :
    Prop where
  loads : Loads file s'
  grown : s.nextBlock ≤ s'.nextBlock
  loaded : err = none → blockID + count ≤ s'.nextBlock
  ended : ∀ e, err = some e → EndError file e ∧ s'.nextBlock = blockCount file ∧ blockCount file < blockID + count

theorem Ensured.from_before {s s' : SharedTraceData} {blockID count : Nat} {err : Option ReadError}
    (ensured : Ensured file s (blockID + 1) count err s') : Ensured file s blockID (count + 1) err s' where
  loads := ensured.loads
  grown := ensured.grown
  loaded no_error := Nat.succ_add_eq_add_succ blockID count ▸ ensured.loaded no_error
  ended e some_error := Nat.succ_add_eq_add_succ blockID count ▸ ensured.ended e some_error

theorem ensureFrom_ensured : ∀ (count blockID : Nat) {s : SharedTraceData}, Loads file s → blockID ≤ s.nextBlock →
    Ensured file s blockID count (SharedTraceData.ensureFrom count blockID s).1 (SharedTraceData.ensureFrom count blockID s).2
  | 0, _, s, loads, known => ⟨loads,le_rfl,fun _ => known,fun e no_error => by cases no_error⟩
  | count + 1, blockID, s, loads, known => by
    rw [SharedTraceData.ensureFrom,loads.findBlock]
    by_cases loaded : blockID < s.nextBlock
    · rw [if_pos loaded]
      exact (ensureFrom_ensured count (blockID + 1) loads loaded).from_before
    · obtain rfl := Nat.le_antisymm known (Nat.le_of_not_lt loaded)
      rw [if_neg loaded]
      dsimp only
      rcases Nat.lt_or_eq_of_le loads.next_le with more | all
      · obtain ⟨s',loaded,loads',grown⟩ := loads.loadBlock_next more
        simp only [loaded]
        have rest := (ensureFrom_ensured count (s.nextBlock + 1) loads' grown.ge).from_before
        exact ⟨rest.loads,Nat.le_trans (Nat.le_of_lt (grown ▸ Nat.lt_succ_self _)) rest.grown,rest.loaded,rest.ended⟩
      · obtain ⟨err,s',failed,is_end,loads',same⟩ := loads.loadBlock_end all
        simp only [failed]
        refine ⟨loads',same.ge,by simp,fun e some_error => ?_⟩
        cases some_error
        exact ⟨is_end,same.trans all,by omega⟩

theorem Loads.prefetchFrom : ∀ (count : Nat) {s : SharedTraceData}, Loads file s →
    Loads file (.prefetchFrom count s.nextBlock s) ∧ s.nextBlock ≤ (SharedTraceData.prefetchFrom count s.nextBlock s).nextBlock
  | 0, _, loads => ⟨loads,le_rfl⟩
  | count + 1, s, loads => by
    rw [SharedTraceData.prefetchFrom]
    by_cases ended : s.eof = true
    · rw [if_pos ended]
      exact ⟨loads,le_rfl⟩
    · rw [if_neg ended]
      rcases Nat.lt_or_eq_of_le loads.next_le with more | all
      · obtain ⟨s',loaded,loads',grown⟩ := loads.loadBlock_next more
        simp only [loaded]
        rw [← grown]
        obtain ⟨kept,further⟩ := loads'.prefetchFrom count
        exact ⟨kept,Nat.le_trans (Nat.le_of_lt (grown ▸ Nat.lt_succ_self _)) further⟩
      · obtain ⟨err,s',failed,-,loads',same⟩ := loads.loadBlock_end all
        simp only [failed]
        exact ⟨loads',same.ge⟩

theorem Loads.updateGlobalPointers {s : SharedTraceData} (loads : Loads file s) (currentBlock : Nat) :
    Loads file (s.updateGlobalPointers currentBlock) := by
  have slowest : (s.updateGlobalPointers currentBlock).minBlockID = 0 := by
    simp only [SharedTraceData.updateGlobalPointers,loads.slowest,Nat.not_lt_zero,if_false]
  refine ⟨loads.next_le,loads.blocks,loads.stream,loads.ended,slowest,?_⟩
  simp only [SharedTraceData.updateGlobalPointers,loads.slowest,Nat.not_lt_zero,if_false,Nat.lt_irrefl,false_and,loads.cleanups]

theorem Loads.cleanupOldBlocks {s : SharedTraceData} (loads : Loads file s) : s.cleanupOldBlocks = s := by
  unfold SharedTraceData.cleanupOldBlocks
  rw [if_pos loads.cleanups]

end
end FlowSim.Trace
