import FlowSim.Trace.SharedBlocks

/-!
Whether a shared reader returns. In any interleaving, a read returns the next instruction or
the end of the stream, except at the end of a trace whose last block is not full: there the
cache is filled with that block again and again, and the reader calls itself for ever
(`read_returns_iff`).
-/
namespace FlowSim.Trace
open FlowSim.Lib
set_option linter.unusedSimpArgs false

/-! ### What a worker knows -/

/-- A worker knows of a number of blocks that they are loaded. -/
def blockDiscipline (file : List UInt8) : Discipline traceInterface Nat where
  pre known op :=
    match op with
    | .ensureBlocksLoaded startBlock _ => startBlock ≤ known
    | _ => True
  post known op :=
    match op with
    | .nextBlock => fun next : Nat => known ≤ next ∧ next ≤ blockCount file
    | .ensureBlocksLoaded _ endBlock => fun err : Option ReadError =>
      (err = none → endBlock < blockCount file) ∧ ∀ e, err = some e → EndError file e ∧ blockCount file ≤ endBlock
    | .getBlock blockID => fun found : Option TraceBlock =>
      (blockID < known → found = some (blockAt file blockID)) ∧
        ∀ block, found = some block → blockID < blockCount file ∧ block = blockAt file blockID
    | _ => fun _ => True
  grow known op :=
    match op with
    | .nextBlock => fun next : Nat => next
    | .ensureBlocksLoaded _ endBlock => fun err : Option ReadError =>
      if err = none then max known (endBlock + 1) else blockCount file
    | .getBlock blockID => fun found : Option TraceBlock => if found.isSome then max known (blockID + 1) else known
    | _ => fun _ => known

section
variable {file : List UInt8} {W : Type} [DecidableEq W]

/-- The shared data are sound, and what the workers know is so. -/
def Known (file : List UInt8) (s : SharedTraceData) (known : W → Nat) : Prop :=
  Loads file s ∧ ∀ w, known w ≤ s.nextBlock

theorem Known.grow {s s' : SharedTraceData} {known : W → Nat} {w : W} {n : Nat} (before : Known file s known)
    (loads : Loads file s') (grown : s.nextBlock ≤ s'.nextBlock) (own : n ≤ s'.nextBlock) :
    Known file s' (Function.update known w n) := by
  refine ⟨loads,fun v => ?_⟩
  by_cases same : v = w
  · subst same
    rwa [Function.update_self]
  · rw [Function.update_of_ne same]
    exact Nat.le_trans (before.2 v) grown

theorem Known.same {s s' : SharedTraceData} {known : W → Nat} {w : W} (before : Known file s known)
    (loads : Loads file s') (grown : s.nextBlock ≤ s'.nextBlock) : Known file s' (Function.update known w (known w)) :=
  before.grow loads grown (Nat.le_trans (before.2 w) grown)

theorem supports_known (file : List UInt8) :
    Supports traceMachine (fun _ : W => blockDiscipline file) (Known file) where
  again := fun _ op _ _ _ outcome => by cases outcome
  done := by
    intro s known w op answer s' before allowed outcome
    obtain ⟨loads,upTo⟩ := before
    cases op with
    | nextBlock =>
      cases outcome
      exact ⟨⟨upTo w,loads.next_le⟩,Known.grow ⟨loads,upTo⟩ loads le_rfl le_rfl⟩
    | ensureBlocksLoaded startBlock endBlock =>
      cases outcome
      have ensured := ensureFrom_ensured (endBlock + 1 - startBlock) startBlock loads (Nat.le_trans allowed (upTo w))
      have known_le := Nat.le_trans allowed (Nat.le_trans (upTo w) loads.next_le)
      have next_le := ensured.loads.next_le
      refine ⟨⟨fun none => ?_,fun e some => ?_⟩,?_⟩
      · have := ensured.loaded none
        omega
      · obtain ⟨is_end,-,beyond⟩ := ensured.ended e some
        exact ⟨is_end,by omega⟩
      · refine Known.grow ⟨loads,upTo⟩ ensured.loads ensured.grown ?_
        show (if (s.ensureBlocksLoaded startBlock endBlock).1 = none then _ else _) ≤
          (s.ensureBlocksLoaded startBlock endBlock).2.nextBlock
        cases failed : (s.ensureBlocksLoaded startBlock endBlock).1 with
        | none =>
          have := ensured.loaded failed
          have grown : s.nextBlock ≤ (s.ensureBlocksLoaded startBlock endBlock).2.nextBlock := ensured.grown
          rw [if_pos rfl]
          refine Nat.max_le.mpr ⟨Nat.le_trans (upTo w) grown,?_⟩
          show endBlock + 1 ≤ (SharedTraceData.ensureFrom _ _ _).2.nextBlock
          omega
        | some err =>
          rw [if_neg (by simp)]
          exact (ensured.ended err failed).2.1.ge
    | getBlock blockID =>
      cases outcome
      rw [show (s.exec (.getBlock blockID)).1 = s.findBlock blockID from rfl,loads.findBlock]
      refine ⟨⟨fun below => if_pos (Nat.lt_of_lt_of_le below (upTo w)),fun block found => ?_⟩,?_⟩
      · obtain ⟨below,same⟩ := Option.ite_none_right_eq_some.mp found
        exact ⟨Nat.lt_of_lt_of_le below loads.next_le,(Option.some.inj same).symm⟩
      · refine Known.grow ⟨loads,upTo⟩ loads le_rfl ?_
        by_cases below : blockID < s.nextBlock
        · rw [if_pos below]
          exact Nat.max_le.mpr ⟨upTo w,below⟩
        · rw [if_neg below]
          exact upTo w
    | updateGlobalPointers currentBlock =>
      cases outcome
      exact ⟨trivial,Known.same ⟨loads,upTo⟩ (loads.updateGlobalPointers currentBlock) le_rfl⟩
    | cleanupOldBlocks =>
      cases outcome
      refine ⟨trivial,?_⟩
      rw [show (s.exec .cleanupOldBlocks).2 = s from loads.cleanupOldBlocks]
      exact Known.same ⟨loads,upTo⟩ loads le_rfl
    | prefetch targetBlock =>
      cases outcome
      obtain ⟨kept,grown⟩ := loads.prefetchFrom (targetBlock + 1 - s.nextBlock)
      exact ⟨trivial,Known.same ⟨loads,upTo⟩ kept grown⟩
    | setPrefetchDist dist =>
      cases outcome
      exact ⟨trivial,Known.same ⟨loads,upTo⟩ ⟨loads.next_le,loads.blocks,loads.stream,loads.ended,loads.slowest,loads.cleanups⟩ le_rfl⟩
    | _ =>
      cases outcome
      exact ⟨trivial,Known.same ⟨loads,upTo⟩ loads le_rfl⟩

end

/-! ### Readers -/

section
variable {file : List UInt8} {known : Nat} {r : SharedTraceReader}

theorem blockAt_length (file : List UInt8) (j : Nat) :
    (blockAt file j).instructions.length = min instrsPerBlock (file.length / 64 - j * instrsPerBlock) := by
  rw [blockAt,List.length_take,List.length_drop,sharedInstrs_length]

theorem blockAt_full {j : Nat} (more : j + 1 < blockCount file) : (blockAt file j).instructions.length = instrsPerBlock := by
  have := start_lt more
  rw [Nat.succ_mul] at this
  rw [blockAt_length]
  omega

theorem blockAt_getElem? {j i : Nat} (inside : i < (blockAt file j).instructions.length) :
    (blockAt file j).instructions[i]? = (sharedInstrs file)[j * instrsPerBlock + i]? := by
  rw [blockAt_length] at inside
  rw [blockAt,List.getElem?_take_of_lt (Nat.lt_of_lt_of_le inside (Nat.min_le_left ..)),List.getElem?_drop]

/-- The cache holds blocks that follow each other, and the reader is in one of them. -/
structure InBlock (file : List UInt8) (known : Nat) (r : SharedTraceReader) (block : TraceBlock) : Prop where
  cache : ∃ base count, r.cachedBlocks = (List.range count).map (fun i => blockAt file (base + i)) ∧ base + count ≤ known ∧
    r.currentBlockIndex < count ∧ block = blockAt file (base + r.currentBlockIndex) ∧
    r.readPosition = (base + r.currentBlockIndex) * instrsPerBlock + r.currentInstrIndex
  inside : r.currentInstrIndex ≤ block.instructions.length

/-- What holds of a reader between two operations. -/
structure Sound (file : List UInt8) (known : Nat) (r : SharedTraceReader) : Prop where
  known_le : known ≤ blockCount file
  upTo : r.readPosition ≤ file.length / 64
  loaded : r.readPosition ≤ known * instrsPerBlock
  counted : r.instrCounter = UInt64.ofNat r.readPosition
  block : ∀ block, r.currentBlock = some block → InBlock file known r block

theorem sound_new (file : List UInt8) (cpuID : UInt8) : Sound file 0 (.newSharedTraceReader cpuID) where
  known_le := Nat.zero_le _
  upTo := Nat.zero_le _
  loaded := Nat.zero_le _
  counted := rfl
  block := by simp [SharedTraceReader.newSharedTraceReader]

theorem Sound.mono {more : Nat} (sound : Sound file known r) (grown : known ≤ more) (known_le : more ≤ blockCount file) :
    Sound file more r where
  known_le := known_le
  upTo := sound.upTo
  loaded := Nat.le_trans sound.loaded (Nat.mul_le_mul_right _ grown)
  counted := sound.counted
  block block is_block := by
    obtain ⟨⟨base,count,cached,below,rest⟩,inside⟩ := sound.block block is_block
    exact ⟨⟨base,count,cached,Nat.le_trans below grown,rest⟩,inside⟩

/-- The reader's block number, as it counts them. -/
def blockOf (r : SharedTraceReader) : Nat := r.readPosition / instrsPerBlock

theorem Sound.blockOf_le (sound : Sound file known r) : blockOf r ≤ known :=
  Nat.div_le_of_le_mul (Nat.mul_comm known _ ▸ sound.loaded)

/-- The next instruction of the block is that of the trace. -/
theorem Sound.current (sound : Sound file known r) {block : TraceBlock} {instr : OOOModelInstr}
    (here : r.current = some (block,instr)) : r.currentBlock = some block ∧ InBlock file known r block ∧
      r.currentInstrIndex < block.instructions.length ∧ (sharedInstrs file)[r.readPosition]? = some instr := by
  obtain ⟨block',is_block,found⟩ := Option.bind_eq_some_iff.mp here
  obtain ⟨instr',is_instr,same⟩ := Option.map_eq_some_iff.mp found
  cases same
  have inBlock := sound.block block is_block
  obtain ⟨index_lt,-⟩ := List.getElem?_eq_some_iff.mp is_instr
  refine ⟨is_block,inBlock,index_lt,?_⟩
  obtain ⟨base,count,-,-,-,rfl,position⟩ := inBlock.cache
  rw [position,← blockAt_getElem? index_lt]
  exact is_instr

/-! ### Filling the cache -/

/-- The reader at the same place, with the same counters. -/
structure SamePlace (r r' : SharedTraceReader) : Prop where
  position : r'.readPosition = r.readPosition
  counter : r'.instrCounter = r.instrCounter
  cpuID : r'.cpuID = r.cpuID

/-- The cache holds the `k` blocks from `base` on. -/
def CachedFrom (file : List UInt8) (base k : Nat) (r : SharedTraceReader) : Prop :=
  r.cachedBlocks = (List.range k).map fun i => blockAt file (base + i)

/-- A program that can only add to what is known. -/
def Grows (file : List UInt8) (known known' : Nat) : Prop := known ≤ known' ∧ known' ≤ blockCount file

theorem keeps_cacheBlocks (base : Nat) : ∀ (count k : Nat) {known : Nat} {r : SharedTraceReader}, known ≤ blockCount file →
    CachedFrom file base k r → base + k ≤ known →
    Keeps (blockDiscipline file) (SharedTraceReader.cacheBlocks count (base + k) r) (fun known' r' =>
      Grows file known known' ∧ SamePlace r r' ∧
        ∃ k', k ≤ k' ∧ CachedFrom file base k' r' ∧ base + k' ≤ known' ∧ (0 < count → base + k < known → k < k')) known
  | 0, k, known, r, known_le, cached, below =>
    ⟨⟨le_rfl,known_le⟩,⟨rfl,rfl,rfl⟩,k,le_rfl,cached,below,fun positive => absurd positive (Nat.lt_irrefl 0)⟩
  | count + 1, k, known, r, known_le, cached, below => by
    rw [SharedTraceReader.cacheBlocks]
    refine ⟨trivial,fun (found : Option TraceBlock) learned => ?_⟩
    obtain ⟨sure,known_block⟩ := learned
    cases found with
    | none =>
      refine ⟨⟨le_rfl,known_le⟩,⟨rfl,rfl,rfl⟩,k,le_rfl,cached,below,fun _ loaded => ?_⟩
      cases sure loaded
    | some block =>
      obtain ⟨within,rfl⟩ := known_block block rfl
      have more : max known (base + k + 1) ≤ blockCount file := Nat.max_le.mpr ⟨known_le,within⟩
      have cached' : CachedFrom file base (k + 1)
          { r with cachedBlocks := r.cachedBlocks ++ [blockAt file (base + k)]
                   cachedEndOffset := (blockAt file (base + k)).startOffset + (blockAt file (base + k)).instructions.length } := by
        show r.cachedBlocks ++ _ = _
        rw [show r.cachedBlocks = _ from cached,List.range_succ,List.map_append]
        rfl
      refine (keeps_cacheBlocks base count (k + 1) more cached' (Nat.le_max_right ..)).mono ?_
      rintro known' r' ⟨⟨grown,upTo⟩,same,k',longer,filled,inside,-⟩
      exact ⟨⟨Nat.le_trans (Nat.le_max_left ..) grown,upTo⟩,⟨same.position,same.counter,same.cpuID⟩,k',
        Nat.le_of_succ_le longer,filled,inside,fun _ _ => longer⟩

/-- After a refill, the reader is in the block of its position. -/
structure Refilled (file : List UInt8) (known : Nat) (r r' : SharedTraceReader) : Prop where
  sound : Sound file known r'
  same : SamePlace r r'
  block : r'.currentBlock = some (blockAt file (blockOf r))
  index : r'.currentInstrIndex = r.readPosition - blockOf r * instrsPerBlock

/-- The position in its block. -/
theorem position_split (r : SharedTraceReader) :
    r.readPosition = blockOf r * instrsPerBlock + (r.readPosition - blockOf r * instrsPerBlock) :=
  (Nat.add_sub_cancel' (Nat.div_mul_le_self ..)).symm

theorem position_lt (r : SharedTraceReader) : r.readPosition - blockOf r * instrsPerBlock < instrsPerBlock := by
  have := Nat.lt_div_mul_add (a := r.readPosition) instrsPerBlock_pos
  exact Nat.sub_lt_left_of_lt_add (Nat.div_mul_le_self ..) this

theorem keeps_fillCache (sound : Sound file known r) {endBlock : Nat} (ahead : blockOf r ≤ endBlock)
    (loaded : blockOf r < known) :
    Keeps (blockDiscipline file) (r.fillCache (blockOf r) endBlock)
      (fun known' (err,r') => Grows file known known' ∧ err = none ∧ Refilled file known' r r') known := by
  unfold SharedTraceReader.fillCache
  refine Keeps.bind (keeps_cacheBlocks (blockOf r) (endBlock + 1 - blockOf r) 0 sound.known_le rfl loaded.le) ?_
  rintro known' r' ⟨grows,same,k,-,cached,inside,some_block⟩
  have positive : 0 < k := some_block (by omega) loaded
  obtain ⟨k,rfl⟩ : ∃ n, k = n + 1 := ⟨k - 1,(Nat.sub_add_cancel positive).symm⟩
  have first : r'.cachedBlocks = blockAt file (blockOf r) :: (List.range k).map (fun i => blockAt file (blockOf r + (i + 1))) := by
    rw [show r'.cachedBlocks = _ from cached,List.range_succ_eq_map,List.map_cons,List.map_map]
    rfl
  have position : r'.readPosition = r.readPosition := same.position
  simp only [first]
  refine ⟨grows,rfl,⟨⟨grows.2,?_,?_,?_,?_⟩,⟨same.position,same.counter,same.cpuID⟩,rfl,?_⟩⟩
  · exact position ▸ sound.upTo
  · exact position ▸ Nat.le_trans sound.loaded (Nat.mul_le_mul_right _ grows.1)
  · show r'.instrCounter = UInt64.ofNat r'.readPosition
    rw [position,← sound.counted]
    exact same.counter
  · rintro block is_block
    cases is_block
    refine ⟨⟨blockOf r,k + 1,first.symm.trans cached,inside,positive,rfl,?_⟩,?_⟩
    · show r'.readPosition = blockOf r * instrsPerBlock + (r'.readPosition - blockOf r * instrsPerBlock)
      rw [position]
      exact position_split r
    · show r'.readPosition - blockOf r * instrsPerBlock ≤ _
      have := sound.upTo
      rw [position,blockAt_length]
      exact Nat.le_min.mpr ⟨(position_lt r).le,Nat.sub_le_sub_right sound.upTo _⟩
  · show r'.readPosition - blockOf r * instrsPerBlock = _
    rw [position]

/-! ### A read -/

theorem Refilled.of_sound {known' : Nat} {r' : SharedTraceReader} (refilled : Refilled file known' r r') :
    blockOf r' = blockOf r := by
  rw [blockOf,refilled.same.position]
  rfl

/-- How a refill may end. -/
def RefillResult (file : List UInt8) (known : Nat) (r : SharedTraceReader) (known' : Nat) :
    Option ReadError × SharedTraceReader → Prop
  | (none,r') => Grows file known known' ∧ Refilled file known' r r' ∧ blockOf r < blockCount file
  | (some e,r') => Grows file known known' ∧ r' = r ∧ EndError file e ∧ (e = .eof → blockCount file ≤ blockOf r)

theorem keeps_filled (sound : Sound file known r) {known' : Nat} (grows : Grows file known known') (loaded : blockOf r < known') :
    Keeps (blockDiscipline file) (r.fillCache (blockOf r) (blockOf r + loadAhead)) (RefillResult file known r) known' := by
  refine (keeps_fillCache (sound.mono grows.1 grows.2) (Nat.le_add_right ..) loaded).mono ?_
  rintro known'' ⟨err,r'⟩ ⟨grows',rfl,refilled⟩
  exact ⟨⟨Nat.le_trans grows.1 grows'.1,grows'.2⟩,refilled,Nat.lt_of_lt_of_le loaded grows.2⟩

theorem keeps_loadCache (sound : Sound file known r) {known' : Nat} (grows : Grows file known known') :
    Keeps (blockDiscipline file) (r.loadCache (blockOf r) (blockOf r + loadAhead)) (RefillResult file known r) known' := by
  refine ⟨Nat.le_trans sound.blockOf_le grows.1,fun (err : Option ReadError) learned => ?_⟩
  obtain ⟨all_there,at_end⟩ := learned
  cases err with
  | none =>
    have within := all_there rfl
    refine keeps_filled sound ⟨?_,?_⟩ ?_
    · exact Nat.le_trans grows.1 (Nat.le_max_left ..)
    · exact Nat.max_le.mpr ⟨grows.2,within⟩
    · exact Nat.lt_of_lt_of_le (Nat.lt_succ_of_le (Nat.le_add_right ..)) (Nat.le_max_right ..)
  | some e =>
    have all : Grows file known (blockCount file) := ⟨Nat.le_trans grows.1 grows.2,le_rfl⟩
    obtain ⟨is_end,-⟩ := at_end e rfl
    cases e with
    | eof =>
      refine ⟨trivial,fun (next : Nat) sure => ?_⟩
      obtain rfl : next = blockCount file := Nat.le_antisymm sure.2 sure.1
      show Keeps _ (if blockOf r < blockCount file then r.fillCache (blockOf r) (blockOf r + loadAhead)
        else pure (some .eof,r)) _ (blockCount file)
      by_cases more : blockOf r < blockCount file
      · rw [if_pos more]
        exact keeps_filled sound all more
      · rw [if_neg more]
        exact ⟨all,rfl,is_end,fun _ => Nat.le_of_not_lt more⟩
    | unexpectedEOF => exact ⟨all,rfl,is_end,by simp⟩
    | other text => exact absurd is_end (by simp [EndError])

/-- A refill puts the reader into the block of its position, or returns the end of the stream. -/
theorem keeps_refillCache (sound : Sound file known r) : Keeps (blockDiscipline file) r.refillCache
    (RefillResult file known r) known := by
  refine ⟨trivial,fun (nextAvailable : Nat) grows => ?_⟩
  show Keeps _ (if nextAvailable ≤ blockOf r then _ else r.loadCache (blockOf r) (blockOf r + loadAhead)) _ nextAvailable
  by_cases missing : nextAvailable ≤ blockOf r
  · rw [if_pos missing]
    exact ⟨trivial,fun _ _ => ⟨trivial,fun _ _ => keeps_loadCache sound grows⟩⟩
  · rw [if_neg missing]
    exact keeps_loadCache sound grows

/-- At the end of a block that another one follows, the next block begins. -/
theorem InBlock.nextCached {block next : TraceBlock} (known_le : known ≤ blockCount file) (inBlock : InBlock file known r block)
    (read : r.currentInstrIndex = block.instructions.length) (goes_on : r.nextCached.currentBlock = some next) :
    InBlock file known r.nextCached next := by
  obtain ⟨base,count,cached,below,index,rfl,position⟩ := inBlock.cache
  unfold SharedTraceReader.nextCached at goes_on ⊢
  cases found : r.cachedBlocks[r.currentBlockIndex + 1]? with
  | none =>
    rw [found] at goes_on
    cases goes_on
  | some following =>
    rw [found] at goes_on
    cases goes_on
    have further : r.currentBlockIndex + 1 < count := by
      have inside := (List.getElem?_eq_some_iff.mp found).choose
      rwa [cached,List.length_map,List.length_range] at inside
    have following_eq : next = blockAt file (base + (r.currentBlockIndex + 1)) := by
      rw [cached,List.getElem?_map,List.getElem?_range further] at found
      exact (Option.some.inj found).symm
    have full : (blockAt file (base + r.currentBlockIndex)).instructions.length = instrsPerBlock := blockAt_full (by omega)
    refine ⟨⟨base,count,cached,below,further,following_eq,?_⟩,Nat.zero_le _⟩
    show r.readPosition = (base + (r.currentBlockIndex + 1)) * instrsPerBlock + 0
    rw [position,read,full]
    ring

/-- The reader one instruction further. -/
abbrev advanced (r : SharedTraceReader) : SharedTraceReader :=
  { r with currentInstrIndex := r.currentInstrIndex + 1, readPosition := r.readPosition + 1 }

theorem nextCached_place (r : SharedTraceReader) : SamePlace r r.nextCached := by
  unfold SharedTraceReader.nextCached
  split <;> exact ⟨rfl,rfl,rfl⟩

/-- Going on by an instruction keeps the reader in a block, if it is in one. -/
theorem keeps_passBlock (sound : Sound file known r) {block : TraceBlock} {instr : OOOModelInstr}
    (here : r.current = some (block,instr)) :
    Keeps (blockDiscipline file) ((advanced r).passBlock block)
      (fun known' r' => known' = known ∧ SamePlace (advanced r) r' ∧
        ∀ block, r'.currentBlock = some block → InBlock file known r' block) known := by
  obtain ⟨is_block,inBlock,index_lt,-⟩ := sound.current here
  have inBlock' : InBlock file known (advanced r) block := by
    obtain ⟨base,count,cached,below,index,same,position⟩ := inBlock.cache
    exact ⟨⟨base,count,cached,below,index,same,(congrArg (· + 1) position).trans (Nat.add_assoc ..)⟩,index_lt⟩
  unfold SharedTraceReader.passBlock
  by_cases read : block.instructions.length ≤ (advanced r).currentInstrIndex
  · rw [if_pos read]
    have next := fun block (is_next : (advanced r).nextCached.currentBlock = some block) =>
      inBlock'.nextCached sound.known_le (Nat.le_antisymm index_lt read) is_next
    have place := nextCached_place (advanced r)
    by_cases reported : (advanced r).nextCached.readPosition / instrsPerBlock ≠ (advanced r).nextCached.lastReportedBlock
    · simp only [if_pos reported]
      refine ⟨trivial,fun _ _ => ⟨rfl,⟨place.position,place.counter,place.cpuID⟩,fun block is_next => ?_⟩⟩
      obtain ⟨cache,inside⟩ := next block is_next
      exact ⟨cache,inside⟩
    · simp only [if_neg reported]
      exact ⟨rfl,place,next⟩
  · rw [if_neg read]
    refine ⟨rfl,⟨rfl,rfl,rfl⟩,fun block' same => ?_⟩
    cases is_block.symm.trans same
    exact inBlock'

/-- The next instruction is the last of a block that is not full. -/
def AtPartialEnd (file : List UInt8) (r : SharedTraceReader) : Prop :=
  64 * r.readPosition = file.length ∧ ¬ instrsPerBlock ∣ r.readPosition

/-- How a read may end, within a number of calls. -/
def ReadResult (file : List UInt8) (r : SharedTraceReader) (calls known' : Nat) :
    Option (Except ReadError OOOModelInstr) × SharedTraceReader → Prop
  | (out,r') => Sound file known' r' ∧ r'.cpuID = r.cpuID ∧
    match out with
    | some (.ok instr) => r'.readPosition = r.readPosition + 1 ∧ ∃ src, (sharedInstrs file)[r.readPosition]? = some src ∧
        instr = { src with instrID := UInt64.ofNat r.readPosition, cpuID := r.cpuID }
    | some (.error err) => r'.readPosition = r.readPosition ∧ EndError file err ∧ (err = .eof → blockCount file ≤ blockOf r)
    | none => r'.readPosition = r.readPosition ∧ (AtPartialEnd file r ∨ calls = 0 ∨ (calls = 1 ∧ r.current = none))

theorem keeps_read_here (sound : Sound file known r) {block : TraceBlock} {instr : OOOModelInstr}
    (here : r.current = some (block,instr)) (calls : Nat) :
    Keeps (blockDiscipline file) (r.readInstruction (calls + 1)) (ReadResult file r (calls + 1)) known := by
  obtain ⟨is_block,inBlock,index_lt,is_instr⟩ := sound.current here
  rw [SharedTraceReader.readInstruction,here]
  refine (keeps_passBlock sound here).bind ?_
  rintro known' r' ⟨rfl,place,inBlock'⟩
  have position : r'.readPosition = r.readPosition + 1 := place.position
  have counter : r'.instrCounter = UInt64.ofNat r.readPosition := place.counter.trans sound.counted
  have within : r.readPosition < file.length / 64 := by
    have inside := (List.getElem?_eq_some_iff.mp is_instr).choose
    rwa [sharedInstrs_length] at inside
  refine ⟨⟨sound.known_le,?_,?_,?_,?_⟩,place.cpuID,position,instr,is_instr,?_⟩
  · exact position ▸ within
  · obtain ⟨base,count,cached,below,index,rfl,at_position⟩ := inBlock.cache
    have := blockAt_length file (base + r.currentBlockIndex)
    have := Nat.mul_le_mul_right instrsPerBlock (show base + r.currentBlockIndex + 1 ≤ known' by omega)
    rw [Nat.succ_mul] at this
    show r'.readPosition ≤ _
    omega
  · show r'.instrCounter + 1 = UInt64.ofNat r'.readPosition
    rw [position,counter,UInt64.ofNat_add]
    rfl
  · intro block same
    obtain ⟨cache,inside⟩ := inBlock' block same
    exact ⟨cache,inside⟩
  · show { instr with instrID := r'.instrCounter, cpuID := r'.cpuID } = _
    rw [counter,place.cpuID]

/-- A refill that leaves nothing to read is at the end of a block that is not full. -/
theorem Refilled.atPartialEnd {known' : Nat} {r' : SharedTraceReader} (refilled : Refilled file known' r r')
    (within : blockOf r < blockCount file) (nothing : r'.current = none) : AtPartialEnd file r := by
  have past : (blockAt file (blockOf r)).instructions.length ≤ r.readPosition - blockOf r * instrsPerBlock := by
    rw [SharedTraceReader.current,refilled.block,Option.bind_some,Option.map_eq_none_iff,refilled.index] at nothing
    exact List.getElem?_eq_none_iff.mp nothing
  have before := start_lt within
  have upTo : r.readPosition ≤ file.length / 64 := refilled.same.position ▸ refilled.sound.upTo
  have inside := position_lt r
  have split := position_split r
  rw [blockAt_length] at past
  have all_read : r.readPosition = file.length / 64 := by omega
  have whole : file.length % 64 = 0 := by
    by_contra cut
    have := cut_le cut within
    rw [Nat.succ_mul] at this
    omega
  refine ⟨?_,fun divides => ?_⟩
  · rw [all_read]
    exact Nat.mul_div_cancel' (Nat.dvd_of_mod_eq_zero whole)
  · have := Nat.div_mul_cancel divides
    unfold blockOf at before
    omega

theorem keeps_readInstruction : ∀ (calls : Nat) {known : Nat} {r : SharedTraceReader}, Sound file known r →
    Keeps (blockDiscipline file) (r.readInstruction calls) (ReadResult file r calls) known
  | 0, _, _, sound => ⟨sound,rfl,rfl,.inr (.inl rfl)⟩
  | calls + 1, known, r, sound => by
    cases here : r.current with
    | some at_instr => exact keeps_read_here sound here calls
    | none =>
      rw [SharedTraceReader.readInstruction,here]
      refine (keeps_refillCache sound).bind ?_
      rintro known' ⟨err,r'⟩ result
      cases err with
      | some e =>
        obtain ⟨grows,rfl,is_end,at_end⟩ := result
        exact ⟨sound.mono grows.1 grows.2,rfl,rfl,is_end,at_end⟩
      | none =>
        obtain ⟨grows,refilled,within⟩ := result
        have position : r'.readPosition = r.readPosition := refilled.same.position
        refine (keeps_readInstruction calls refilled.sound).mono ?_
        rintro known'' ⟨out,r''⟩ ⟨sound',cpuID,result⟩
        refine ⟨sound',cpuID.trans refilled.same.cpuID,?_⟩
        rw [AtPartialEnd,position,refilled.of_sound,refilled.same.cpuID] at result
        match out, result with
        | some (.ok instr), result => exact result
        | some (.error err), result => exact result
        | none, ⟨same,ended⟩ =>
          refine ⟨same,?_⟩
          rcases ended with stuck | none_left | ⟨-,nothing⟩
          · exact .inl stuck
          · exact .inr (.inr ⟨congrArg (· + 1) none_left,here⟩)
          · exact .inl (refilled.atPartialEnd within nothing)

/-- A read has returned an instruction or the end of the stream. -/
def Returned (file : List UInt8) (out : Option (Except ReadError OOOModelInstr)) : Prop :=
  ∃ result, out = some result ∧ ∀ err, result = .error err → EndError file err

theorem ReadResult.returned {known' : Nat} {out : Option (Except ReadError OOOModelInstr)} {r' : SharedTraceReader}
    (result : ReadResult file r 2 known' (out,r')) (elsewhere : ¬ AtPartialEnd file r) : Returned file out := by
  obtain ⟨-,-,result⟩ := result
  match out, result with
  | some (.ok instr), _ => exact ⟨_,rfl,by simp⟩
  | some (.error err), ⟨_,is_end,_⟩ =>
    refine ⟨_,rfl,fun err' same => ?_⟩
    cases same
    exact is_end
  | none, ⟨_,ended⟩ =>
    rcases ended with stuck | none_left | ⟨one,-⟩
    · exact absurd stuck elsewhere
    · exact absurd none_left (by decide)
    · exact absurd one (by decide)

theorem ReadResult.stuck {calls known' : Nat} {out : Option (Except ReadError OOOModelInstr)} {r' : SharedTraceReader}
    (result : ReadResult file r calls known' (out,r')) (stuck : AtPartialEnd file r) : out = none := by
  obtain ⟨all_read,not_full⟩ := stuck
  have whole : file.length % 64 = 0 := by omega
  have count : file.length / 64 = r.readPosition := by omega
  obtain ⟨-,-,result⟩ := result
  match out, result with
  | none, _ => rfl
  | some (.ok instr), ⟨_,src,is_instr,_⟩ =>
    have inside := (List.getElem?_eq_some_iff.mp is_instr).choose
    rw [sharedInstrs_length,count] at inside
    exact absurd inside (Nat.lt_irrefl _)
  | some (.error err), ⟨_,is_end,at_end⟩ =>
    rcases is_end with rfl | ⟨-,cut⟩
    · have past := whole_le whole (at_end rfl)
      rw [count] at past
      have exact_position : r.readPosition / instrsPerBlock * instrsPerBlock = r.readPosition :=
        Nat.le_antisymm (Nat.div_mul_le_self ..) past
      exact absurd (Dvd.intro_left _ exact_position) not_full
    · exact absurd whole cut

/-! ### Runs -/

/-- What holds of the reader after some calls. -/
def AtRest (file : List UInt8) (cpuID : UInt8) (known : Nat) (result : TraceResult) : Prop :=
  Sound file known result.2 ∧ result.2.cpuID = cpuID

theorem keeps_warmup (sound : Sound file known r) : Keeps (blockDiscipline file) r.warmup
    (fun known' (_,r') => Sound file known' r' ∧ SamePlace r r') known := by
  unfold SharedTraceReader.warmup
  by_cases warm : r.currentBlock.isSome
  · rw [if_pos warm]
    exact ⟨sound,rfl,rfl,rfl⟩
  · rw [if_neg warm]
    refine (keeps_refillCache sound).mono ?_
    rintro known' ⟨err,r'⟩ result
    cases err with
    | none => exact ⟨result.2.1.sound,result.2.1.same⟩
    | some e =>
      obtain ⟨grows,rfl,-⟩ := result
      exact ⟨sound.mono grows.1 grows.2,rfl,rfl,rfl⟩

theorem keeps_runCalls : ∀ (calls : List TraceCall) {known : Nat} {r : SharedTraceReader}, Sound file known r →
    Keeps (blockDiscipline file) (runCalls calls r) (AtRest file r.cpuID) known
  | [], _, _, sound => ⟨sound,rfl⟩
  | .read n :: rest, _, r, sound => by
    refine (keeps_readInstruction n sound).bind ?_
    rintro known' ⟨out,r'⟩ ⟨sound',cpuID,-⟩
    exact (cpuID ▸ keeps_runCalls rest sound').bind fun _ _ rested => rested
  | .warmup :: rest, _, r, sound => by
    refine (keeps_warmup sound).bind ?_
    rintro known' ⟨err,r'⟩ ⟨sound',same⟩
    exact same.cpuID ▸ keeps_runCalls rest sound'
  | .prefetch :: rest, _, r, sound => by
    refine ⟨trivial,fun (target : Option Nat) _ => ?_⟩
    cases target with
    | none => exact keeps_runCalls rest sound
    | some targetBlock => exact ⟨trivial,fun _ _ => keeps_runCalls rest sound⟩
  | .cleanup :: rest, _, r, sound => ⟨trivial,fun _ _ => keeps_runCalls rest sound⟩

end

/-! ### Whether a read returns -/

section
variable {W : Type} [DecidableEq W]

/-- The worker `w`, at rest, makes one read. -/
def callRead (c : Config traceInterface SharedTraceData fun _ : W => TraceResult) (w : W) (r : SharedTraceReader) (calls : Nat) :
    Config traceInterface SharedTraceData fun _ : W => TraceResult :=
  { c with prog := Function.update c.prog w (runCalls [.read calls] r) }

/-- For some number of calls, the read is finished in every interleaving, with a result. -/
def ReadReturns (file : List UInt8) (c : Config traceInterface SharedTraceData fun _ : W => TraceResult) (w : W)
    (r : SharedTraceReader) : Prop :=
  ∃ calls, ∀ c', traceMachine.Reach (callRead c w r calls) c' →
    (∃ c'', traceMachine.Reach c' c'' ∧ c''.Finished w) ∧
      ∀ out r', c'.prog w = .done ([out],r') → Returned file out

omit [DecidableEq W] in
theorem governed_start (file : List UInt8) (cpuIDs : W → UInt8) (calls : W → List TraceCall) :
    Governed (fun _ : W => blockDiscipline file) (Known file) (fun _ => 0) (fun w => AtRest file (cpuIDs w))
      (startReading file cpuIDs calls) :=
  Governed.start _ _ ⟨loads_new file,fun _ => Nat.zero_le _⟩ fun w => keeps_runCalls (calls w) (sound_new file (cpuIDs w))

/-- The results of one read that is made next. -/
theorem read_results {file : List UInt8} {cpuIDs : W → UInt8} {calls : W → List TraceCall}
    {c c' : Config traceInterface SharedTraceData fun _ : W => TraceResult}
    (reach : traceMachine.Reach (startReading file cpuIDs calls) c) {w : W}
    {outs : List (Option (Except ReadError OOOModelInstr))} {r r' : SharedTraceReader} (rested : c.prog w = .done (outs,r))
    {n : Nat} (onwards : traceMachine.Reach (callRead c w r n) c') {outs' : List (Option (Except ReadError OOOModelInstr))}
    (finished : c'.prog w = .done (outs',r')) : ∃ known out, outs' = [out] ∧ ReadResult file r n known (out,r') := by
  have before := (governed_start file cpuIDs calls).reach (supports_known file) reach
  have sound := (before.result rested).1
  let Q (v : W) : Nat → TraceResult → Prop :=
    if v = w then fun known result => ∃ out, result.1 = [out] ∧ ReadResult file r n known (out,result.2) else AtRest file (cpuIDs v)
  have calling : Governed (fun _ : W => blockDiscipline file) (Known file) (fun _ => 0) Q (callRead c w r n) := by
    refine ⟨before.related,fun v => ?_⟩
    by_cases same : v = w
    · subst same
      simp only [callRead,Function.update_self,Q,if_pos]
      refine (keeps_readInstruction n sound).bind ?_
      rintro known ⟨out,r'⟩ result
      exact ⟨out,rfl,result⟩
    · simp only [callRead,Function.update_of_ne same,Q,if_neg same]
      exact before.keeps v
  have result := (calling.reach (supports_known file) onwards).result finished
  simp only [Q,if_pos] at result
  exact ⟨_,result⟩

/-- The machine never keeps a worker waiting. -/
theorem trace_finishes (w : W) (c : Config traceInterface SharedTraceData fun _ : W => TraceResult) :
    ∃ c', traceMachine.Reach c c' ∧ c'.Finished w :=
  Machine.reach_finished (fun _ _ => ⟨_,_,rfl⟩) w c

/-- At the end of a block that is not full, no bound on the calls is enough. -/
theorem stuck_never_returns {file : List UInt8} {cpuIDs : W → UInt8} {calls : W → List TraceCall}
    {c : Config traceInterface SharedTraceData fun _ : W => TraceResult}
    (reach : traceMachine.Reach (startReading file cpuIDs calls) c) {w : W}
    {outs : List (Option (Except ReadError OOOModelInstr))} {r : SharedTraceReader} (rested : c.prog w = .done (outs,r))
    (stuck : AtPartialEnd file r) : ¬ ReadReturns file c w r := by
  rintro ⟨n,returns⟩
  -- whatever the bound, the read can be run to its end, where it has not returned
  obtain ⟨c',onwards,⟨outs',r'⟩,finished⟩ := trace_finishes w (callRead c w r n)
  obtain ⟨known,out,rfl,result⟩ := read_results reach rested onwards finished
  obtain ⟨-,returned⟩ := returns c' onwards
  obtain ⟨_,some_result,-⟩ := returned out r' finished
  rw [result.stuck stuck] at some_result
  cases some_result

/-- A read by a worker at rest, in any state of the shared data that any workers have
    reached: it returns unless the reader is at the end of a trace of whole records whose
    last block is not full. -/
theorem read_returns_iff (file : List UInt8) (cpuIDs : W → UInt8) (calls : W → List TraceCall)
    {c : Config traceInterface SharedTraceData fun _ : W => TraceResult}
    (reach : traceMachine.Reach (startReading file cpuIDs calls) c) (w : W)
    {outs : List (Option (Except ReadError OOOModelInstr))} {r : SharedTraceReader} (rested : c.prog w = .done (outs,r)) :
    ReadReturns file c w r ↔ ¬ AtPartialEnd file r := by
  constructor
  · exact fun returns stuck => stuck_never_returns reach rested stuck returns
  · intro elsewhere
    refine ⟨2,fun c' onwards => ⟨trace_finishes w c',fun out r' finished => ?_⟩⟩
    obtain ⟨known,out',same,result⟩ := read_results reach rested onwards finished
    cases same
    exact result.returned elsewhere

end

/-- A trace of three records. -/
def threeRecords : List UInt8 := (List.range 3).flatMap fun i => UInt8.ofNat (i + 1) :: List.replicate 63 0

/-- Two readers, of which the first is to read two records and the second one. -/
def twoReaders : Config traceInterface SharedTraceData fun _ : Bool => TraceResult :=
  startReading threeRecords (fun _ => 0) fun reader => if reader then [.read 2] else [.read 2,.read 2]

/-- The second reader has read from the block that the first has loaded. -/
def oneBehind : Config traceInterface SharedTraceData fun _ : Bool => TraceResult :=
  traceMachine.run (List.replicate 20 false ++ List.replicate 20 true) twoReaders

/-- Where a reader at rest is. -/
def positionAt (c : Config traceInterface SharedTraceData fun _ : Bool => TraceResult) (reader : Bool) : Option Nat :=
  match c.prog reader with
  | .done (_,r) => some r.readPosition
  | _ => none

/-- The second reader, in the middle of a block that is not full, returns from its next read. -/
theorem read_returns_one_behind :
    positionAt oneBehind false = some 2 ∧ positionAt oneBehind true = some 1 ∧ oneBehind.shared.nextBlock = 1 ∧
    ∀ outs r, oneBehind.prog true = .done (outs,r) → ReadReturns threeRecords oneBehind true r := by
  have position : positionAt oneBehind true = some 1 := by decide +kernel
  refine ⟨by decide +kernel,position,by decide +kernel,fun outs r rested => ?_⟩
  have reach : traceMachine.Reach twoReaders oneBehind := Machine.reach_run ..
  refine (read_returns_iff threeRecords _ _ reach true rested).mpr fun stuck => ?_
  rw [positionAt,rested] at position
  have one : r.readPosition = 1 := Option.some.inj position
  have length : threeRecords.length = 192 := by decide +kernel
  have atEnd : 64 * r.readPosition = threeRecords.length := stuck.1
  omega

/-- In a trace of one record, the second read does not return. -/
theorem second_read_hangs : ¬ ∀ (file : List UInt8) (cpuIDs : Unit → UInt8) (calls : Unit → List TraceCall)
    (c : Config traceInterface SharedTraceData fun _ : Unit => TraceResult)
    (outs : List (Option (Except ReadError OOOModelInstr))) (r : SharedTraceReader), file.length % 64 = 0 →
    traceMachine.Reach (startReading file cpuIDs calls) c → c.prog () = .done (outs,r) → ReadReturns file c () r := by
  intro always
  have one_record : (List.replicate 64 (0 : UInt8)).length = 64 := List.length_replicate
  let start := startReading (List.replicate 64 0) (fun _ : Unit => 0) fun _ => []
  have first_call : callRead start () (.newSharedTraceReader 0) 2 =
      startReading (List.replicate 64 0) (fun _ : Unit => 0) fun _ => [.read 2] := by
    unfold callRead
    refine congrArg (Config.mk _ · _) (funext fun _ => ?_)
    exact Function.update_self ..
  obtain ⟨c,reach,⟨outs,r⟩,finished⟩ := trace_finishes () (callRead start () (.newSharedTraceReader 0) 2)
  obtain ⟨known,out,rfl,result⟩ := read_results (c := start) .refl rfl reach finished
  have position : r.readPosition = 1 := by
    obtain ⟨-,-,result⟩ := result
    match out, result with
    | some (.ok instr), ⟨position,_⟩ => exact position
    | some (.error err), ⟨_,is_end,at_end⟩ =>
      rcases is_end with rfl | ⟨-,cut⟩
      · have none_left : blockCount (List.replicate 64 0) ≤ 0 := at_end rfl
        rw [blockCount,one_record] at none_left
        exact absurd none_left (by decide)
      · rw [one_record] at cut
        exact absurd cut (by decide)
    | none, ⟨_,ended⟩ =>
      rcases ended with stuck | none_left | ⟨one,-⟩
      · exact absurd (dvd_zero _) stuck.2
      · exact absurd none_left (by decide)
      · exact absurd one (by decide)
  rw [first_call] at reach
  have stuck : AtPartialEnd (List.replicate 64 0) r := by
    rw [AtPartialEnd,position,one_record]
    exact ⟨rfl,by decide⟩
  exact stuck_never_returns reach finished stuck
    (always _ _ _ c [out] r (by rw [one_record]) reach finished)

end FlowSim.Trace
