import FlowSim.Lib.Conjunction
import FlowSim.Trace.BulkReader
import FlowSim.Trace.Returning

/-!
Whether shared readers yield what a reader of its own yields. They take every trace for one of
the standard format and of core 0, set no branch targets and do not come to an end where the
last block is not full. So they agree just where none of this shows
(`shared_agrees_iff`).
-/
namespace FlowSim.Trace
open FlowSim.Lib
set_option linter.unusedSimpArgs false

/-- The reads agree, but for the number of the core. -/
def SameRead : Except ReadError OOOModelInstr → Except ReadError OOOModelInstr → Prop
  | .ok shared, .ok bulk => { shared with cpuID := bulk.cpuID } = bulk
  | .error err, .error err' => err = err'
  | _, _ => False

/-- What a call of the worker may be where its reads have enough calls. -/
def TraceCall.Within (enough : Nat) : TraceCall → Prop
  | .read calls => enough ≤ calls
  | _ => True

/-- When its reads may call themselves often enough, every worker reads in every interleaving
    what the reader with a buffer reads from the same trace. -/
def SharedAgrees {W : Type} [DecidableEq W] (format : TraceFormat) (file : List UInt8) (cpuIDs : W → UInt8) : Prop :=
  ∃ enough, ∀ calls : W → List TraceCall, (∀ w, ∀ call ∈ calls w, call.Within enough) →
    ∀ c, traceMachine.Reach (startReading file cpuIDs calls) c → ∀ w outs r, c.prog w = .done (outs,r) →
      ∀ (i : Nat) (out : Option (Except ReadError OOOModelInstr)), outs[i]? = some out → ∃ result, out = some result ∧
        SameRead result (nthRead BulkTraceReader.readInstruction i (.newTraceReader file .eof (cpuIDs w) format))

/-! ### Records of the standard size -/

/-- What a shared reader reads at a position. -/
def expected (file : List UInt8) (cpuID : UInt8) (position : Nat) : Option (Except ReadError OOOModelInstr) :=
  match (sharedInstrs file)[position]? with
  | some src => some (.ok { src with instrID := UInt64.ofNat position, cpuID })
  | none => if instrsPerBlock ∣ file.length / 64 then some (.error .eof) else none

/-- The number of reads among some calls. -/
def readCount (calls : List TraceCall) : Nat := calls.countP fun call => match call with | .read _ => true | _ => false

section
variable {file : List UInt8} {known : Nat} {r : SharedTraceReader}

theorem expected_past (cpuID : UInt8) {position : Nat} (past : file.length / 64 ≤ position) :
    expected file cpuID position = if instrsPerBlock ∣ file.length / 64 then some (.error .eof) else none := by
  have none_left : (sharedInstrs file)[position]? = none := by
    rw [List.getElem?_eq_none_iff,sharedInstrs_length]
    exact past
  rw [expected,none_left]

/-- In a trace of whole records a read depends on the position only. -/
theorem ReadResult.as_expected {calls known' : Nat} {out : Option (Except ReadError OOOModelInstr)} {r' : SharedTraceReader}
    (sound : Sound file known r) (whole : file.length % 64 = 0) (enough : 2 ≤ calls)
    (result : ReadResult file r calls known' (out,r')) : out = expected file r.cpuID r.readPosition ∧
      ∀ i, expected file r.cpuID (r'.readPosition + i) = expected file r.cpuID (r.readPosition + (i + 1)) := by
  obtain ⟨-,-,result⟩ := result
  have past : file.length / 64 ≤ r.readPosition → r'.readPosition = r.readPosition →
      ∀ i, expected file r.cpuID (r'.readPosition + i) = expected file r.cpuID (r.readPosition + (i + 1)) := by
    intro past same i
    rw [expected_past _ (by omega),expected_past _ (by omega)]
  match out, result with
  | some (.ok instr), ⟨position,src,is_instr,same⟩ =>
    refine ⟨?_,fun i => by rw [position,Nat.add_right_comm,Nat.add_assoc]⟩
    rw [expected,is_instr,same]
  | some (.error err), ⟨position,is_end,at_end⟩ =>
    obtain rfl : err = .eof := is_end.resolve_right fun cut => cut.2 whole
    have all_read := whole_le whole (at_end rfl)
    have split := Nat.div_mul_le_self r.readPosition instrsPerBlock
    have upTo := sound.upTo
    have divides : instrsPerBlock ∣ file.length / 64 := by
      refine ⟨blockOf r,?_⟩
      unfold blockOf at all_read ⊢
      rw [Nat.mul_comm]
      omega
    have end_reached : file.length / 64 ≤ r.readPosition := Nat.le_trans all_read split
    refine ⟨?_,past end_reached position⟩
    rw [expected_past _ end_reached,if_pos divides]
  | none, ⟨position,ended⟩ =>
    rcases ended with ⟨all_read,not_full⟩ | none_left | ⟨one,-⟩
    · have end_reached : file.length / 64 = r.readPosition := by omega
      refine ⟨?_,past end_reached.le position⟩
      rw [expected_past _ end_reached.le,end_reached,if_neg not_full]
    · omega
    · omega

/-- The results of all reads, where every one may call itself. -/
theorem keeps_expected (whole : file.length % 64 = 0) : ∀ (calls : List TraceCall) {known : Nat} {r : SharedTraceReader},
    Sound file known r → (∀ call ∈ calls, call.Within 2) →
    Keeps (blockDiscipline file) (runCalls calls r)
      (fun _ result => result.1 = (List.range (readCount calls)).map fun i => expected file r.cpuID (r.readPosition + i)) known
  | [], _, _, _, _ => rfl
  | .read n :: rest, known, r, sound, enough => by
    refine (keeps_readInstruction n sound).bind ?_
    rintro known' ⟨out,r'⟩ result
    obtain ⟨here,later⟩ := result.as_expected sound whole (enough _ List.mem_cons_self)
    have cpuID : r'.cpuID = r.cpuID := result.2.1
    refine (keeps_expected whole rest result.1 fun call member => enough call (List.mem_cons_of_mem _ member)).bind ?_
    rintro known'' ⟨outs,r''⟩ same
    have same : outs = _ := same
    have count : readCount (.read n :: rest) = readCount rest + 1 := List.countP_cons_of_pos rfl
    show out :: outs = _
    rw [count,List.range_succ_eq_map,List.map_cons,List.map_map,here,same]
    refine congrArg (List.cons _) (List.map_congr_left fun i _ => ?_)
    rw [cpuID]
    exact later i
  | .warmup :: rest, known, r, sound, enough => by
    refine (keeps_warmup sound).bind ?_
    rintro known' ⟨err,r'⟩ ⟨sound',same⟩
    rw [← same.position,← same.cpuID]
    exact keeps_expected whole rest sound' fun call member => enough call (List.mem_cons_of_mem _ member)
  | .prefetch :: rest, known, r, sound, enough => by
    refine ⟨trivial,fun (target : Option Nat) _ => ?_⟩
    have later := fun call member => enough call (List.mem_cons_of_mem _ member)
    cases target with
    | none => exact keeps_expected whole rest sound later
    | some targetBlock => exact ⟨trivial,fun _ _ => keeps_expected whole rest sound later⟩
  | .cleanup :: rest, known, r, sound, enough =>
    ⟨trivial,fun _ _ => keeps_expected whole rest sound fun call member => enough call (List.mem_cons_of_mem _ member)⟩

end

section
variable {W : Type} [DecidableEq W] {format : TraceFormat} {file : List UInt8} {cpuIDs : W → UInt8}

/-- Some reads of one worker, and nothing else. -/
def readsAlone (w : W) (count calls : Nat) (v : W) : List TraceCall := if v = w then List.replicate count (.read calls) else []

theorem readsAlone_self (w : W) (count calls : Nat) : readsAlone w count calls w = List.replicate count (.read calls) := if_pos rfl

theorem readsAlone_within (w : W) (count : Nat) {calls enough : Nat} (within : enough ≤ calls) :
    ∀ v, ∀ call ∈ readsAlone w count calls v, call.Within enough := by
  intro v call member
  unfold readsAlone at member
  split_ifs at member
  · rw [List.eq_of_mem_replicate member]
    exact within
  · cases member

theorem readCount_replicate (count calls : Nat) : readCount (List.replicate count (.read calls)) = count := by
  rw [readCount,List.countP_replicate]
  rfl

/-- In every interleaving the workers read what is expected. -/
theorem reads_expected (whole : file.length % 64 = 0) {calls : W → List TraceCall} (enough : ∀ w, ∀ call ∈ calls w, call.Within 2)
    {c : Config traceInterface SharedTraceData fun _ : W => TraceResult}
    (reach : traceMachine.Reach (startReading file cpuIDs calls) c) {w : W}
    {outs : List (Option (Except ReadError OOOModelInstr))} {r : SharedTraceReader} (finished : c.prog w = .done (outs,r)) :
    outs = (List.range (readCount (calls w))).map (expected file (cpuIDs w)) := by
  have start : Governed (fun _ : W => blockDiscipline file) (Known file) (fun _ => 0)
      (fun w _ result => result.1 = (List.range (readCount (calls w))).map fun i => expected file (cpuIDs w) (0 + i))
      (startReading file cpuIDs calls) :=
    Governed.start _ _ ⟨loads_new file,fun _ => Nat.zero_le _⟩ fun w =>
      keeps_expected whole (calls w) (sound_new file (cpuIDs w)) (enough w)
  have result := (start.reach (supports_known file) reach).result finished
  simp only [Nat.zero_add] at result
  exact result

/-- In a trace of whole records of the standard size, what is expected has to be the same. -/
theorem shared_agrees_whole (whole : file.length % 64 = 0) : SharedAgrees format file cpuIDs ↔
    ∀ w i, ∃ result, expected file (cpuIDs w) i = some result ∧
      SameRead result (nthRead BulkTraceReader.readInstruction i (.newTraceReader file .eof (cpuIDs w) format)) := by
  constructor
  · rintro ⟨enough,agrees⟩ w i
    have within := readsAlone_within w (i + 1) (Nat.le_add_right enough 2)
    obtain ⟨c,reach,⟨outs,r⟩,finished⟩ := trace_finishes w (startReading file cpuIDs (readsAlone w (i + 1) (enough + 2)))
    have same := reads_expected whole (readsAlone_within w (i + 1) (Nat.le_add_left 2 enough)) reach finished
    rw [readsAlone_self,readCount_replicate] at same
    refine agrees _ within c reach w outs r finished i _ ?_
    rw [same,List.getElem?_map,List.getElem?_range (Nat.lt_succ_self i)]
    rfl
  · intro all
    refine ⟨2,fun calls enough c reach w outs r finished i out found => ?_⟩
    rw [reads_expected whole enough reach finished,List.getElem?_map] at found
    obtain ⟨j,isIndex,rfl⟩ := Option.map_eq_some_iff.mp found
    obtain ⟨inside,same⟩ := List.getElem?_eq_some_iff.mp isIndex
    rw [List.getElem_range] at same
    subst same
    exact all w i

end

/-! ### Two decoders -/

/-- An instruction is a branch that is taken. -/
def OOOModelInstr.taken (instr : OOOModelInstr) : Bool := instr.isBranch && instr.branchTaken

/-- Telling the kind of branch looks at neither the core nor the address space. -/
theorem identifyBranchType_set (instr : OOOModelInstr) (cpuID : UInt8) (asid : UInt8 × UInt8) :
    OOOModelInstr.identifyBranchType { instr with cpuID, asid } =
      { instr.identifyBranchType with cpuID, asid } := by
  have dest : ∀ reg, OOOModelInstr.hasDestReg { instr with cpuID, asid } reg = instr.hasDestReg reg := fun _ => rfl
  have src : ∀ reg, OOOModelInstr.hasSrcReg { instr with cpuID, asid } reg = instr.hasSrcReg reg := fun _ => rfl
  have other : ∀ regs, OOOModelInstr.hasSrcRegOtherThan { instr with cpuID, asid } regs =
      instr.hasSrcRegOtherThan regs := fun _ => rfl
  unfold OOOModelInstr.identifyBranchType
  simp only [dest,src,other]
  generalize instr.hasDestReg regStackPointer = writesSP
  generalize instr.hasDestReg regInstructionPointer = writesIP
  generalize instr.hasSrcReg regStackPointer = readsSP
  generalize instr.hasSrcReg regInstructionPointer = readsIP
  generalize instr.hasSrcReg regFlags = readsFlags
  generalize instr.hasSrcRegOtherThan _ = readsOther
  split_ifs <;> rfl

theorem newFromInput_core (cpuID : UInt8) (raw : InputInstr) : OOOModelInstr.newFromInput cpuID raw =
    { OOOModelInstr.newFromInput 0 raw with cpuID, asid := (cpuID,cpuID) } := by
  unfold OOOModelInstr.newFromInput
  exact identifyBranchType_set { instrID := 0
                                 ip := raw.ip
                                 cpuID := 0
                                 asid := (0,0)
                                 isBranch := raw.isBranch ≠ 0
                                 branchTaken := raw.branchTaken ≠ 0
                                 branchType := .notBranch
                                 branchTarget := 0
                                 destRegisters := OOOModelInstr.registers raw.destRegisters
                                 srcRegisters := OOOModelInstr.registers raw.srcRegisters
                                 destMemory := OOOModelInstr.addresses raw.destMemory
                                 srcMemory := OOOModelInstr.addresses raw.srcMemory } cpuID (cpuID,cpuID)

theorem newFromInput_fields (cpuID : UInt8) (raw : InputInstr) : (OOOModelInstr.newFromInput cpuID raw).asid = (cpuID,cpuID) ∧
    (OOOModelInstr.newFromInput cpuID raw).branchTarget = 0 ∧ (OOOModelInstr.newFromInput cpuID raw).ip = raw.ip := by
  unfold OOOModelInstr.newFromInput OOOModelInstr.identifyBranchType
  dsimp only
  split_ifs <;> exact ⟨rfl,rfl,rfl⟩

/-- The instruction of a record, as the shared readers of core `cpuID` have it, is that of the
    reader with a buffer just if the core is 0 and no target is to be set. -/
theorem sameRead_located (cpuID : UInt8) (position : Nat) (raw : InputInstr) (next : Option InputInstr) :
    SameRead (.ok { OOOModelInstr.newFromInput 0 raw with instrID := UInt64.ofNat position, cpuID })
        (.ok (located position (.newFromInput cpuID raw) (next.map (.newFromInput cpuID)))) ↔
      cpuID = 0 ∧ ((OOOModelInstr.newFromInput 0 raw).taken = true → ∀ after, next = some after → after.ip = 0) := by
  have ips := fun after => (newFromInput_fields cpuID after).2.2
  obtain ⟨asid,target,-⟩ := newFromInput_fields 0 raw
  rw [newFromInput_core cpuID raw]
  generalize OOOModelInstr.newFromInput 0 raw = src at asid target
  have core : (0 : UInt8) = cpuID ↔ cpuID = 0 := eq_comm
  cases next with
  | none => simp [SameRead,located,OOOModelInstr.mk.injEq,asid,target,core]
  | some after =>
    by_cases taken : src.taken = true
    · have taken' := taken
      simp only [OOOModelInstr.taken,Bool.and_eq_true] at taken'
      simp [SameRead,located,OOOModelInstr.mk.injEq,asid,target,ips,core,taken,taken',eq_comm]
    · have taken' := taken
      simp only [OOOModelInstr.taken] at taken'
      simp [SameRead,located,OOOModelInstr.mk.injEq,asid,target,ips,core,taken,taken']

/-! ### The standard format -/

section
variable {format : TraceFormat} {file : List UInt8} {cpuID : UInt8}

/-- What the reader with a buffer reads. -/
theorem bulk_read (supported : format.Supported) (whole : file.length % format.instrSize = 0) (cpuID : UInt8) (i : Nat) :
    nthRead BulkTraceReader.readInstruction i (.newTraceReader file .eof cpuID format) =
      match (records format.instrSize file)[i]? with
      | some raw => .ok (located i (convert format cpuID raw) ((records format.instrSize file)[i + 1]?.map (convert format cpuID)))
      | none => .error .eof := by
  have yields := bulk_yields format supported cpuID file whole BulkTraceReader.defaultBufferSize (by decide) i
  refine yields.trans ?_
  rw [decodeAll,locatedFrom_getElem?,List.getElem?_map,List.getElem?_map,Nat.zero_add]
  cases (records format.instrSize file)[i]? <;> rfl

/-- No branch that is taken is followed by a record with an address. -/
def BranchesStay (file : List UInt8) : Prop := ∀ (i : Nat) (raw next : List UInt8), (records 64 file)[i]? = some raw →
  (records 64 file)[i + 1]? = some next → (OOOModelInstr.newFromInput 0 (.ofBytes raw)).taken = true → (InputInstr.ofBytes next).ip = 0

theorem standard_read (whole : file.length % 64 = 0) (i : Nat) :
    (∃ result, expected file cpuID i = some result ∧
      SameRead result (nthRead BulkTraceReader.readInstruction i (.newTraceReader file .eof cpuID .standard))) ↔
    match (records 64 file)[i]? with
    | some raw => cpuID = 0 ∧ ((OOOModelInstr.newFromInput 0 (.ofBytes raw)).taken = true →
        ∀ next, (records 64 file)[i + 1]? = some next → (InputInstr.ofBytes next).ip = 0)
    | none => instrsPerBlock ∣ file.length / 64 := by
  have bulk := bulk_read (show TraceFormat.standard.Supported from trivial) whole cpuID i
  rw [show TraceFormat.standard.instrSize = 64 from rfl] at bulk
  rw [bulk,expected,sharedInstrs,List.getElem?_map]
  cases (records 64 file)[i]? with
  | none =>
    by_cases full : instrsPerBlock ∣ file.length / 64
    · simp [full,SameRead]
    · simp [full]
  | some raw =>
    have same := sameRead_located cpuID i (.ofBytes raw) ((records 64 file)[i + 1]?.map .ofBytes)
    rw [Option.map_map] at same
    simp only [Option.map_some,Option.some.injEq,exists_eq_left']
    refine same.trans (and_congr_right fun _ => ?_)
    simp

/-- The standard format. -/
theorem standard_agrees_iff (whole : file.length % 64 = 0) :
    (∀ i, ∃ result, expected file cpuID i = some result ∧
      SameRead result (nthRead BulkTraceReader.readInstruction i (.newTraceReader file .eof cpuID .standard))) ↔
    file = [] ∨ cpuID = 0 ∧ instrsPerBlock ∣ file.length / 64 ∧ BranchesStay file := by
  rw [forall_congr' (standard_read whole)]
  constructor
  · intro all
    by_cases empty : file = []
    · exact .inl empty
    · have positive := List.length_pos_iff.mpr empty
      obtain ⟨raw,first⟩ : ∃ raw, (records 64 file)[0]? = some raw := by
        refine ⟨_,List.getElem?_eq_getElem ?_⟩
        rw [records_length]
        omega
      have last : (records 64 file)[file.length / 64]? = none := by
        rw [List.getElem?_eq_none_iff,records_length]
      have here := all 0
      have ending := all (file.length / 64)
      rw [first] at here
      rw [last] at ending
      refine .inr ⟨here.1,ending,fun i raw next isRaw isNext taken => ?_⟩
      have stays := all i
      rw [isRaw] at stays
      exact stays.2 taken next isNext
  · rintro (rfl | ⟨core,full,stay⟩) i
    · exact dvd_zero _
    · cases isRaw : (records 64 file)[i]? with
      | none => exact full
      | some raw => exact ⟨core,fun taken next isNext => stay i raw next isRaw isNext taken⟩

end

/-! ### Streams that end inside a record -/

/-- Nothing of the stream is lost yet, and its end is inside a record. -/
def Intact (s : SharedTraceData) : Prop := s.eof = false ∧ s.reader.length % 64 ≠ 0

theorem Intact.loadBlock {s : SharedTraceData} (intact : Intact s) (blockID : Nat) :
    (s.loadBlock blockID).1 ≠ .error .eof ∧ ∀ block, (s.loadBlock blockID).1 = .ok block → Intact (s.loadBlock blockID).2 := by
  obtain ⟨goes_on,cut⟩ := intact
  unfold SharedTraceData.loadBlock
  rw [if_neg (by simp [goes_on])]
  cases s.findBlock blockID with
  | some block => exact ⟨by simp,fun _ _ => ⟨goes_on,cut⟩⟩
  | none =>
    dsimp only
    by_cases next : blockID ≠ s.nextBlock
    · rw [if_pos next]
      exact ⟨by simp,by simp⟩
    · simp only [if_neg next,goes_on,Bool.false_eq_true,if_false]
      by_cases enough : instrsPerBlock ≤ s.reader.length / 64
      · have some_taken : (((records 64 s.reader).map fun raw => OOOModelInstr.newFromInput 0 (.ofBytes raw)).take
            instrsPerBlock).length ≠ 0 := by
          have := instrsPerBlock_pos
          rw [List.length_take,List.length_map,records_length]
          omega
        rw [readBulk_enough (by decide) enough]
        simp only [Option.isSome_none,Bool.false_eq_true,false_and,if_false,if_neg some_taken]
        refine ⟨by simp,fun block _ => ⟨rfl,?_⟩⟩
        have within : 64 * instrsPerBlock ≤ s.reader.length := by omega
        rw [List.length_drop,Nat.sub_mul_mod within]
        exact cut
      · rw [readBulk_short (by decide) (Nat.lt_of_not_le enough),if_neg cut]
        exact ⟨by simp,by simp⟩

/-- Loading blocks from an intact stream fails otherwise than at its end. -/
theorem Intact.ensureFrom : ∀ (count blockID : Nat) {s : SharedTraceData}, Intact s →
    (SharedTraceData.ensureFrom count blockID s).1 ≠ some .eof ∧
      ((SharedTraceData.ensureFrom count blockID s).1 = none → Intact (SharedTraceData.ensureFrom count blockID s).2)
  | 0, _, s, intact => ⟨by simp [SharedTraceData.ensureFrom],fun _ => intact⟩
  | count + 1, blockID, s, intact => by
    rw [SharedTraceData.ensureFrom]
    cases s.findBlock blockID with
    | some block => exact intact.ensureFrom count (blockID + 1)
    | none =>
      obtain ⟨other,kept⟩ := intact.loadBlock blockID
      dsimp only
      rcases loaded : s.loadBlock blockID with ⟨err | block,s'⟩
      · rw [loaded] at other
        exact ⟨fun same => other (congrArg Except.error (Option.some.inj same)),by simp⟩
      · rw [loaded] at kept
        exact (kept block rfl).ensureFrom count (blockID + 1)

/-! ### A worker that reads alone -/

/-- A worker without a prefetcher knows whether a load has failed. Until then no load meets the
    end of the stream. -/
def failDiscipline : Discipline traceInterface Bool where
  pre _ op :=
    match op with
    | .prefetch _ => False
    | _ => True
  post failed op :=
    match op with
    | .ensureBlocksLoaded _ _ => fun err : Option ReadError => failed = false → err ≠ some .eof
    | _ => fun _ => True
  grow failed op :=
    match op with
    | .ensureBlocksLoaded _ _ => fun err : Option ReadError => failed || err.isSome
    | _ => fun _ => failed

section
variable {W : Type} [DecidableEq W]

/-- One worker reads, the others do nothing. -/
def aloneDiscipline (w v : W) : Discipline traceInterface Bool := if v = w then failDiscipline else .silent

theorem supports_alone (w : W) : Supports traceMachine (aloneDiscipline w) fun s failed => failed w = false → Intact s where
  again := fun _ op _ _ _ outcome => by cases outcome
  done := by
    intro s failed v op answer s' intact allowed outcome
    unfold aloneDiscipline at allowed ⊢
    by_cases here : v = w
    · subst here
      rw [if_pos rfl] at allowed ⊢
      rw [Function.update_self]
      cases op with
      | ensureBlocksLoaded startBlock endBlock =>
        cases outcome
        refine ⟨fun unfailed => ((intact unfailed).ensureFrom ..).1,fun unfailed => ?_⟩
        obtain ⟨before,none_failed⟩ := Bool.or_eq_false_iff.mp unfailed
        exact ((intact before).ensureFrom ..).2 (Option.isSome_eq_false_iff.mp none_failed |> Option.isNone_iff_eq_none.mp)
      | prefetch targetBlock => exact allowed.elim
      | cleanupOldBlocks =>
        cases outcome
        refine ⟨trivial,fun unfailed => ?_⟩
        show Intact s.cleanupOldBlocks
        unfold SharedTraceData.cleanupOldBlocks
        split_ifs
        · exact intact unfailed
        · exact intact unfailed
      | _ =>
        cases outcome
        exact ⟨trivial,intact⟩
    · rw [if_neg here] at allowed
      exact allowed.elim

end

theorem keeps_fail_cacheBlocks {failed : Bool} : ∀ (count blockID : Nat) (r : SharedTraceReader),
    Keeps failDiscipline (SharedTraceReader.cacheBlocks count blockID r) (fun failed' _ => failed' = failed) failed
  | 0, _, _ => rfl
  | count + 1, blockID, r => by
    rw [SharedTraceReader.cacheBlocks]
    refine ⟨trivial,fun (found : Option TraceBlock) _ => ?_⟩
    cases found with
    | none => exact rfl
    | some block => exact keeps_fail_cacheBlocks count (blockID + 1) _

theorem keeps_fail_fillCache {failed : Bool} (r : SharedTraceReader) (currentBlockID endBlock : Nat) :
    Keeps failDiscipline (r.fillCache currentBlockID endBlock) (fun failed' _ => failed' = failed) failed := by
  unfold SharedTraceReader.fillCache
  refine (keeps_fail_cacheBlocks ..).bind ?_
  rintro _ r' rfl
  cases r'.cachedBlocks <;> exact rfl

/-- A refill fails where a load does. -/
def FailsWith (failed failed' : Bool) (err : Option ReadError) : Prop := failed' = true → failed = true ∨ err.isSome = true

theorem keeps_fail_filled {failed : Bool} (r : SharedTraceReader) (currentBlockID endBlock : Nat) :
    Keeps failDiscipline (r.fillCache currentBlockID endBlock) (fun failed' (err,_) => FailsWith failed failed' err) failed := by
  refine (keeps_fail_fillCache r currentBlockID endBlock).mono ?_
  rintro _ ⟨err,r'⟩ rfl
  exact .inl

theorem keeps_fail_loadCache {failed : Bool} (r : SharedTraceReader) (currentBlockID endBlock : Nat) :
    Keeps failDiscipline (r.loadCache currentBlockID endBlock) (fun failed' (err,_) => FailsWith failed failed' err) failed := by
  refine ⟨trivial,fun (err : Option ReadError) (learned : failed = false → err ≠ some .eof) => ?_⟩
  cases err with
  | none =>
    show Keeps _ (r.fillCache currentBlockID endBlock) _ (failed || false)
    rw [Bool.or_false]
    exact keeps_fail_filled r currentBlockID endBlock
  | some e =>
    cases e with
    | eof =>
      cases failed with
      | false => exact absurd rfl (learned rfl)
      | true =>
        refine ⟨trivial,fun (next : Nat) _ => ?_⟩
        show Keeps _ (if currentBlockID < next then r.fillCache currentBlockID endBlock else pure (some .eof,r)) _ true
        by_cases more : currentBlockID < next
        · rw [if_pos more]
          exact keeps_fail_filled r currentBlockID endBlock
        · rw [if_neg more]
          exact fun _ => .inl rfl
    | unexpectedEOF => exact fun _ => .inr rfl
    | other text => exact fun _ => .inr rfl

theorem keeps_fail_refillCache {failed : Bool} (r : SharedTraceReader) :
    Keeps failDiscipline r.refillCache (fun failed' (err,_) => FailsWith failed failed' err) failed := by
  refine ⟨trivial,fun (nextAvailable : Nat) _ => ?_⟩
  show Keeps _ (if nextAvailable ≤ blockOf r then _ else r.loadCache (blockOf r) (blockOf r + loadAhead)) _ failed
  by_cases missing : nextAvailable ≤ blockOf r
  · rw [if_pos missing]
    exact ⟨trivial,fun _ _ => ⟨trivial,fun _ _ => keeps_fail_loadCache r _ _⟩⟩
  · rw [if_neg missing]
    exact keeps_fail_loadCache r _ _

theorem keeps_fail_passBlock (failed : Bool) (r : SharedTraceReader) (block : TraceBlock) :
    Keeps failDiscipline (r.passBlock block) (fun failed' _ => failed' = failed) failed := by
  unfold SharedTraceReader.passBlock
  by_cases read : block.instructions.length ≤ r.currentInstrIndex
  · rw [if_pos read]
    dsimp only
    split_ifs
    · exact ⟨trivial,fun _ _ => rfl⟩
    · exact rfl
  · rw [if_neg read]
    exact rfl

/-- A read returns an error where a load fails. -/
theorem keeps_fail_readInstruction : ∀ (calls : Nat) (failed : Bool) (r : SharedTraceReader),
    Keeps failDiscipline (r.readInstruction calls)
      (fun failed' (out,_) => failed' = true → failed = true ∨ ∃ e, out = some (.error e)) failed
  | 0, _, _ => .inl
  | calls + 1, failed, r => by
    cases here : r.current with
    | some at_instr =>
      rw [SharedTraceReader.readInstruction,here]
      refine (keeps_fail_passBlock ..).bind ?_
      rintro _ r' rfl
      exact .inl
    | none =>
      rw [SharedTraceReader.readInstruction,here]
      refine (keeps_fail_refillCache r).bind ?_
      rintro failed' ⟨err,r'⟩ fails
      cases err with
      | some e => exact fun lost => .inr ⟨e,rfl⟩
      | none =>
        refine (keeps_fail_readInstruction calls failed' r').mono ?_
        rintro failed'' ⟨out,r''⟩ later lost
        rcases later lost with before | error
        · exact .inl ((fails before).resolve_right (by simp))
        · exact .inr error

theorem keeps_fail_reads (calls : Nat) : ∀ (count : Nat) (failed : Bool) (r : SharedTraceReader),
    Keeps failDiscipline (runCalls (List.replicate count (.read calls)) r) (fun _ result => result.1.length = count) failed
  | 0, _, _ => rfl
  | count + 1, failed, r => by
    refine (keeps_fail_readInstruction calls failed r).bind ?_
    rintro failed' ⟨out,r'⟩ -
    refine (keeps_fail_reads calls count failed' r').bind ?_
    rintro _ ⟨outs,r''⟩ same
    exact congrArg (· + 1) same

/-! ### The end that a lone reader meets -/

section
variable {file : List UInt8} {known : Nat} {r : SharedTraceReader}

/-- Past the last block, a refill fails otherwise than at the end of the stream. -/
theorem keeps_both_refillCache (sound : Sound file known r) (past : blockCount file ≤ blockOf r) :
    Keeps ((blockDiscipline file).both failDiscipline) r.refillCache (fun _ (err,_) => ∃ e, err = some e ∧ e ≠ .eof)
      (known,false) := by
  have loads : ∀ {known'}, Grows file known known' → Keeps ((blockDiscipline file).both failDiscipline)
      (r.loadCache (blockOf r) (blockOf r + loadAhead)) (fun _ (err,_) => ∃ e, err = some e ∧ e ≠ .eof) (known',false) := by
    intro known' grows
    refine ⟨⟨Nat.le_trans sound.blockOf_le grows.1,trivial⟩,fun (err : Option ReadError) learned => ?_⟩
    obtain ⟨⟨all_there,-⟩,other⟩ := learned
    have other : err ≠ some .eof := other rfl
    cases err with
    | none =>
      have := all_there rfl
      omega
    | some e =>
      cases e with
      | eof => exact absurd rfl other
      | unexpectedEOF => exact ⟨_,rfl,by simp⟩
      | other text => exact ⟨_,rfl,by simp⟩
  refine ⟨⟨trivial,trivial⟩,fun (nextAvailable : Nat) learned => ?_⟩
  show Keeps _ (if nextAvailable ≤ blockOf r then _ else r.loadCache (blockOf r) (blockOf r + loadAhead)) _ (nextAvailable,false)
  by_cases missing : nextAvailable ≤ blockOf r
  · rw [if_pos missing]
    exact ⟨⟨trivial,trivial⟩,fun _ _ => ⟨⟨trivial,trivial⟩,fun _ _ => loads learned.1⟩⟩
  · rw [if_neg missing]
    exact loads learned.1

/-- A lone reader of a truncated stream does not read its end. -/
theorem keeps_both_readInstruction (sound : Sound file known r) (calls : Nat) :
    Keeps ((blockDiscipline file).both failDiscipline) (r.readInstruction (calls + 1)) (fun g (out,r') =>
      (ReadResult file r (calls + 1) g.1 (out,r') ∧ (g.2 = true → ∃ e, out = some (.error e))) ∧ out ≠ some (.error .eof))
      (known,false) := by
  have each := (keeps_readInstruction (calls + 1) sound).both (keeps_fail_readInstruction (calls + 1) false r)
  have results := each.mono (R := fun g result => ReadResult file r (calls + 1) g.1 result ∧
      (g.2 = true → ∃ e, result.1 = some (.error e))) (by
    rintro g ⟨out,r'⟩ ⟨result,fails⟩
    exact ⟨result,fun lost => (fails lost).resolve_left (by simp)⟩)
  by_cases past : blockCount file ≤ blockOf r
  · refine results.and ?_
    cases here : r.current with
    | some at_instr =>
      rw [SharedTraceReader.readInstruction,here]
      refine ((keeps_passBlock sound here).both (keeps_fail_passBlock false ..)).bind ?_
      rintro g r' - ⟨⟩
    | none =>
      rw [SharedTraceReader.readInstruction,here]
      refine (keeps_both_refillCache sound past).bind ?_
      rintro g ⟨_,r'⟩ ⟨e,rfl,other⟩
      exact fun same => other (Except.error.inj (Option.some.inj same))
  · refine results.mono ?_
    rintro g ⟨out,r'⟩ ⟨result,fails⟩
    refine ⟨⟨result,fails⟩,?_⟩
    rintro rfl
    exact past (result.2.2.2.2 rfl)

/-- The results say that some reads returned instructions, and the next one the end. -/
def EndsAfter (count : Nat) (outs : List (Option (Except ReadError OOOModelInstr))) : Prop :=
  (∀ i < count, ∃ instr, outs[i]? = some (some (.ok instr))) ∧ outs[count]? = some (some (.error .eof))

theorem keeps_both_reads (calls : Nat) : ∀ (count : Nat) {known : Nat} {r : SharedTraceReader},
    Sound file known r → Keeps ((blockDiscipline file).both failDiscipline)
      (runCalls (List.replicate (count + 1) (.read (calls + 1))) r)
      (fun _ result => result.1.length = count + 1 ∧ ¬ EndsAfter count result.1) (known,false)
  | 0, known, r, sound => by
    refine (keeps_both_readInstruction sound calls).bind ?_
    rintro g ⟨out,r'⟩ ⟨-,not_end⟩
    exact ⟨rfl,fun ends => not_end (Option.some.inj ends.2)⟩
  | count + 1, known, r, sound => by
    refine (keeps_both_readInstruction sound calls).bind ?_
    rintro ⟨known',failed⟩ ⟨out,r'⟩ ⟨⟨result,fails⟩,-⟩
    have sound' : Sound file known' r' := result.1
    by_cases read : ∃ instr, out = some (.ok instr)
    · obtain ⟨instr,rfl⟩ := read
      have unfailed : failed = false := by
        by_contra lost
        obtain ⟨e,error⟩ := fails (Bool.eq_true_of_not_eq_false lost)
        cases error
      subst unfailed
      refine (keeps_both_reads calls count sound').bind ?_
      rintro g ⟨outs,r''⟩ ⟨length,not_ends⟩
      refine ⟨congrArg (· + 1) length,fun ⟨reads,ended⟩ => not_ends ⟨fun i below => ?_,ended⟩⟩
      exact reads (i + 1) (Nat.succ_lt_succ below)
    · have rest := (keeps_runCalls (List.replicate (count + 1) (.read (calls + 1))) sound').both
        (keeps_fail_reads (calls + 1) (count + 1) failed r')
      refine rest.bind ?_
      rintro g ⟨outs,r''⟩ ⟨-,length⟩
      refine ⟨congrArg (· + 1) length,fun ⟨reads,_⟩ => ?_⟩
      obtain ⟨instr,first⟩ := reads 0 (Nat.succ_pos count)
      exact read ⟨instr,Option.some.inj first⟩

end

section
variable {W : Type} [DecidableEq W] {file : List UInt8} {cpuIDs : W → UInt8}

/-- What a lone reader of a truncated stream has read in the end. -/
theorem lone_reads (cut : file.length % 64 ≠ 0) (w : W) (count calls : Nat)
    {c : Config traceInterface SharedTraceData fun _ : W => TraceResult}
    (reach : traceMachine.Reach (startReading file cpuIDs (readsAlone w (count + 1) (calls + 1))) c)
    {outs : List (Option (Except ReadError OOOModelInstr))} {r : SharedTraceReader} (finished : c.prog w = .done (outs,r)) :
    outs.length = count + 1 ∧ ¬ EndsAfter count outs := by
  let Q (v : W) : Nat × Bool → TraceResult → Prop :=
    if v = w then fun _ result => result.1.length = count + 1 ∧ ¬ EndsAfter count result.1 else fun _ _ => True
  have start : Governed (fun v : W => (blockDiscipline file).both (aloneDiscipline w v))
      (fun s g => Known file s (fun v => (g v).1) ∧ ((g w).2 = false → Intact s)) (fun _ => (0,false)) Q
      (startReading file cpuIDs (readsAlone w (count + 1) (calls + 1))) := by
    refine Governed.start _ _ ⟨⟨loads_new file,fun _ => Nat.zero_le _⟩,fun _ => ⟨rfl,cut⟩⟩ fun v => ?_
    by_cases same : v = w
    · subst same
      simp only [Q,if_pos,aloneDiscipline,readsAlone]
      exact keeps_both_reads calls count (sound_new file (cpuIDs v))
    · simp only [Q,if_neg same,aloneDiscipline,readsAlone]
      exact trivial
  have result := (start.reach ((supports_known file).both (supports_alone w)) reach).result finished
  simp only [Q,if_pos] at result
  exact result

/-- A trace of the other format is never read as it should. -/
theorem cloudsuite_disagrees (w : W) (whole : file.length % 84 = 0) (some_record : file ≠ []) :
    ¬ SharedAgrees .cloudsuite file cpuIDs := by
  have positive := List.length_pos_iff.mpr some_record
  have bulk := bulk_read (show TraceFormat.cloudsuite.Supported from trivial) whole (cpuIDs w)
  rw [show TraceFormat.cloudsuite.instrSize = 84 from rfl] at bulk
  have read_ok : ∀ i < file.length / 84, ∃ instr,
      nthRead BulkTraceReader.readInstruction i (.newTraceReader file .eof (cpuIDs w) .cloudsuite) = .ok instr := by
    intro i below
    rw [bulk,List.getElem?_eq_getElem (by rwa [records_length])]
    exact ⟨_,rfl⟩
  have read_end : nthRead BulkTraceReader.readInstruction (file.length / 84) (.newTraceReader file .eof (cpuIDs w) .cloudsuite) =
      .error .eof := by
    rw [bulk,List.getElem?_eq_none_iff.mpr (by rw [records_length])]
  by_cases standard : file.length % 64 = 0
  · -- there are more records of the standard size
    rw [shared_agrees_whole standard]
    intro all
    obtain ⟨result,isExpected,same⟩ := all w (file.length / 84)
    have more : file.length / 84 < (sharedInstrs file).length := by
      rw [sharedInstrs_length]
      omega
    rw [expected,List.getElem?_eq_getElem more] at isExpected
    obtain rfl := Option.some.inj isExpected
    rw [read_end] at same
    exact same
  · -- a lone reader meets the cut end before the end of the stream
    rintro ⟨enough,agrees⟩
    obtain ⟨c,reach,⟨outs,r⟩,finished⟩ :=
      trace_finishes w (startReading file cpuIDs (readsAlone w (file.length / 84 + 1) (enough + 1)))
    obtain ⟨length,not_ends⟩ := lone_reads standard w (file.length / 84) enough reach finished
    have within := readsAlone_within w (file.length / 84 + 1) (Nat.le_succ enough)
    have each : ∀ i ≤ file.length / 84, ∃ result, outs[i]? = some (some result) ∧
        SameRead result (nthRead BulkTraceReader.readInstruction i (.newTraceReader file .eof (cpuIDs w) .cloudsuite)) := by
      intro i upTo
      have found := List.getElem?_eq_getElem (show i < outs.length by omega)
      obtain ⟨result,returned,same⟩ := agrees _ within c reach w outs r finished i _ found
      exact ⟨result,by rw [found,returned],same⟩
    refine not_ends ⟨fun i below => ?_,?_⟩
    · obtain ⟨result,found,same⟩ := each i below.le
      obtain ⟨instr,read⟩ := read_ok i below
      rw [read] at same
      cases result with
      | ok shared => exact ⟨shared,found⟩
      | error err => exact same.elim
    · obtain ⟨result,found,same⟩ := each _ le_rfl
      rw [read_end] at same
      cases result with
      | ok shared => exact same.elim
      | error err => rw [found,show err = .eof from same]

end

/-! ### All traces -/

/-- The trace without records is read to its end at once. -/
theorem empty_agrees {format : TraceFormat} (supported : format.Supported) (cpuID : UInt8) (i : Nat) :
    ∃ result, expected [] cpuID i = some result ∧
      SameRead result (nthRead BulkTraceReader.readInstruction i (.newTraceReader [] .eof cpuID format)) := by
  refine ⟨.error .eof,rfl,?_⟩
  rw [bulk_read supported (Nat.zero_mod _),records_short supported.size_pos]
  rfl

/-- The shared readers of a core can read a trace: it is empty, or it is one of the standard
    format, the core is 0, the blocks are full and no target is to be set. -/
def CanShare (format : TraceFormat) (file : List UInt8) (cpuID : UInt8) : Prop :=
  file = [] ∨ format = .standard ∧ cpuID = 0 ∧ instrsPerBlock ∣ file.length / 64 ∧ BranchesStay file

section
variable {W : Type} [DecidableEq W]

/-- The shared readers of a trace of whole records yield in every interleaving what a reader of
    its own yields exactly when the trace is empty, or it has the standard format, the readers
    are of core 0, the number of records is a multiple of the block size, and no branch that is
    taken is followed by a record with an address. -/
theorem shared_agrees_iff (format : TraceFormat) (supported : format.Supported) (file : List UInt8)
    (whole : file.length % format.instrSize = 0) (cpuIDs : W → UInt8) :
    SharedAgrees format file cpuIDs ↔ ∀ w, CanShare format file (cpuIDs w) := by
  by_cases empty : file = []
  · subst empty
    rw [shared_agrees_whole (Nat.zero_mod _)]
    exact iff_of_true (fun w i => empty_agrees supported (cpuIDs w) i) fun w => .inl rfl
  · cases format with
    | standard =>
      rw [shared_agrees_whole whole]
      refine forall_congr' fun w => (standard_agrees_iff whole).trans ?_
      simp only [CanShare,true_and]
    | cloudsuite =>
      have never : ∀ cpuID, ¬ CanShare .cloudsuite file cpuID := by
        rintro cpuID (none_left | ⟨standard,-⟩)
        · exact empty none_left
        · cases standard
      constructor
      · exact fun agrees w => absurd agrees (cloudsuite_disagrees w whole empty)
      · exact fun all => ⟨0,fun _ _ _ _ w => absurd (all w) (never _)⟩
    | other value => exact supported.elim

end

/-- A trace of one full block, shared by two readers. No record of it is a branch. -/
theorem shared_agrees_full_block : SharedAgrees .standard (List.replicate (64 * instrsPerBlock) 0) fun _ : Bool => 0 := by
  have length : (List.replicate (64 * instrsPerBlock) (0 : UInt8)).length = 64 * instrsPerBlock := List.length_replicate
  have whole : (List.replicate (64 * instrsPerBlock) (0 : UInt8)).length % TraceFormat.standard.instrSize = 0 := by
    rw [length]
    exact Nat.mul_mod_right ..
  refine (shared_agrees_iff .standard trivial _ whole fun _ => 0).mpr fun _ => .inr ⟨rfl,rfl,?_,?_⟩
  · rw [length,Nat.mul_div_cancel_left _ (by decide)]
  · intro i raw next _ isRecord _
    obtain ⟨j,isIndex,rfl⟩ := List.mem_map.mp (List.mem_of_getElem? isRecord)
    have inside : j < instrsPerBlock := by
      rw [List.mem_range,length,Nat.mul_div_cancel_left _ (by decide)] at isIndex
      exact isIndex
    have record : ((List.replicate (64 * instrsPerBlock) (0 : UInt8)).drop (64 * j)).take 64 = List.replicate 64 0 := by
      have wide : 64 ≤ 64 * instrsPerBlock - 64 * j := by
        rw [← Nat.mul_sub]
        exact Nat.le_mul_of_pos_right 64 (Nat.sub_pos_of_lt inside)
      rw [List.drop_replicate,List.take_replicate,Nat.min_eq_left wide]
    rw [record]
    decide

/-- In a trace of one record a shared reader never comes to the end. -/
theorem one_record_disagrees : ¬ SharedAgrees .standard (List.replicate 64 0) (fun _ : Unit => 0) := by
  have one_record : (List.replicate 64 (0 : UInt8)).length = 64 := List.length_replicate
  rw [shared_agrees_whole (by rw [one_record])]
  intro all
  obtain ⟨result,isExpected,-⟩ := all () 1
  rw [expected_past 0 (by rw [one_record]),one_record,if_neg (by decide)] at isExpected
  cases isExpected

end FlowSim.Trace
