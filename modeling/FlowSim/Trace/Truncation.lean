import FlowSim.Trace.BulkReader

/-!
Truncated traces. A stream that ends inside a record makes a refill fail, and the records that
were read in the same batch are given up with it. A compressed file that is cut off goes on to
answer with the error, and what the buffer carried over is never taken from it. So every
complete record is delivered just if they come in whole batches and nothing is carried over,
unless the stream ends with the end of the file (`bulk_loses_none_iff`).
-/
namespace FlowSim.Trace
open FlowSim.Lib
set_option linter.unusedSimpArgs false

/-- An instruction as its record alone says it. -/
def plain (instr : OOOModelInstr) : OOOModelInstr := { instr with instrID := 0, branchTarget := 0 }

theorem plain_convert (format : TraceFormat) (cpuID : UInt8) (raw : List UInt8) :
    plain (convert format cpuID raw) = convert format cpuID raw := by
  have identified : ∀ instr : OOOModelInstr, instr.instrID = 0 → instr.branchTarget = 0 →
      plain instr.identifyBranchType = instr.identifyBranchType := by
    intro instr number target
    unfold OOOModelInstr.identifyBranchType
    cases instr
    simp only at number target
    subst number target
    dsimp only
    split_ifs <;> rfl
  cases format with
  | cloudsuite => exact identified _ rfl rfl
  | _ => exact identified _ rfl rfl

theorem plain_targets : ∀ instrs : List OOOModelInstr, (setBranchTargets instrs).map plain = instrs.map plain
  | [] => rfl
  | [_] => rfl
  | current :: next :: rest => by
    have aims : plain (aimed current next) = plain current := by
      unfold aimed
      split <;> rfl
    rw [setBranchTargets,List.map_cons,List.map_cons,aims,plain_targets (next :: rest)]

/-- Some calls return these instructions, in this order and no others. -/
def Delivers (r : BulkTraceReader) (instrs : List OOOModelInstr) : Prop :=
  ∃ n, (gathered BulkTraceReader.readInstruction n r).map plain = instrs

section
variable {r r' : BulkTraceReader} {instrs : List OOOModelInstr}

theorem delivers_took {instr : OOOModelInstr} {rest : List OOOModelInstr} (took : r.readInstruction = r'.takeBuffered)
    (buffered : r'.instrBuffer = instr :: rest) : Delivers r (plain instr :: instrs) ↔
      Delivers { r' with instrBuffer := rest, instrCounter := r'.instrCounter + 1 } instrs := by
  have returned : r.readInstruction = (.ok { instr with instrID := r'.instrCounter },
      { r' with instrBuffer := rest, instrCounter := r'.instrCounter + 1 }) := by
    rw [took]
    simp only [BulkTraceReader.takeBuffered,buffered]
  have same : plain { instr with instrID := r'.instrCounter } = plain instr := rfl
  constructor
  · rintro ⟨n,delivered⟩
    cases n with
    | zero => cases delivered
    | succ n =>
      rw [gathered_ok n (congrArg Prod.fst returned),returned,List.map_cons] at delivered
      exact ⟨n,(List.cons.inj delivered).2⟩
  · rintro ⟨n,rfl⟩
    refine ⟨n + 1,?_⟩
    rw [gathered_ok n (congrArg Prod.fst returned),returned,List.map_cons,same]

theorem delivers_error {error : ReadError} (returned : r.readInstruction = (.error error,r')) :
    Delivers r instrs ↔ Delivers r' instrs := by
  constructor
  · rintro ⟨n,rfl⟩
    cases n with
    | zero => exact ⟨0,rfl⟩
    | succ n =>
      rw [gathered_error n (congrArg Prod.fst returned),returned]
      exact ⟨n,rfl⟩
  · rintro ⟨n,rfl⟩
    refine ⟨n + 1,?_⟩
    rw [gathered_error n (congrArg Prod.fst returned),returned]

/-- At the end of the stream, a call takes from the buffer. -/
theorem readInstruction_exhausted (supported : r.format.Supported) (clean : r.ending = .eof) (exhausted : r.file = []) :
    ∃ r' : BulkTraceReader, r.readInstruction = r'.takeBuffered ∧ (r'.format = r.format ∧ r'.ending = .eof) ∧ r'.file = [] ∧
      r'.instrBuffer.map plain = r.instrBuffer.map plain := by
  by_cases buffers : r.refreshThreshold < r.instrBuffer.length ∨ r.eof = true ∨ r.toRead = 0
  · exact ⟨r,BulkTraceReader.readInstruction_buffered buffers,⟨rfl,clean⟩,exhausted,rfl⟩
  · simp only [not_or,Nat.not_lt,Bool.not_eq_true] at buffers
    obtain ⟨few,goes_on,room⟩ := buffers
    have nothing : r.pending = [] := by
      rw [BulkTraceReader.pending,exhausted,records_short supported.size_pos]
      rfl
    have short : r.pending.length < r.toRead := by
      rw [nothing]
      exact Nat.pos_of_ne_zero room
    refine ⟨_,BulkTraceReader.readInstruction_ended supported few goes_on short (by rw [exhausted]; exact Nat.zero_mod _) clean,
      ⟨rfl,clean⟩,rfl,?_⟩
    show (setBranchTargets _).map plain = _
    rw [nothing,List.append_nil,plain_targets]

theorem delivers_none : ∀ (n : Nat) {r : BulkTraceReader}, r.format.Supported → r.ending = .eof → r.file = [] →
    r.instrBuffer = [] → gathered BulkTraceReader.readInstruction n r = []
  | 0, _, _, _, _, _ => rfl
  | n + 1, r, supported, clean, exhausted, empty => by
    obtain ⟨r',took,⟨same_format,clean'⟩,exhausted',buffered⟩ := readInstruction_exhausted supported clean exhausted
    have empty' : r'.instrBuffer = [] := List.map_eq_nil_iff.mp (buffered.trans (congrArg _ empty))
    have returned : r.readInstruction = (.error .eof,r') := by
      rw [took]
      simp only [BulkTraceReader.takeBuffered,empty']
    rw [gathered_error n (congrArg Prod.fst returned),returned]
    exact delivers_none n (same_format ▸ supported) clean' exhausted' empty'

/-- What is in the buffer at the end of the stream is delivered, and nothing else. -/
theorem delivers_exhausted : ∀ {buffer : List OOOModelInstr} {r : BulkTraceReader}, r.format.Supported → r.ending = .eof →
    r.file = [] → r.instrBuffer.map plain = buffer.map plain → (Delivers r (buffer.map plain ++ instrs) ↔ instrs = [])
  | [], r, supported, clean, exhausted, empty => by
    have nothing := fun n => delivers_none n supported clean exhausted (List.map_eq_nil_iff.mp empty)
    constructor
    · rintro ⟨n,delivered⟩
      rw [nothing n] at delivered
      exact delivered.symm
    · rintro rfl
      exact ⟨0,rfl⟩
  | instr :: buffer, r, supported, clean, exhausted, same => by
    obtain ⟨r',took,⟨same_format,clean'⟩,exhausted',buffered⟩ := readInstruction_exhausted supported clean exhausted
    rw [same,List.map_cons] at buffered
    obtain ⟨first,rest,split,same_first,same_rest⟩ := List.map_eq_cons_iff.mp buffered
    rw [List.map_cons,List.cons_append,← same_first,delivers_took took split]
    exact delivers_exhausted (same_format ▸ supported) clean' exhausted' same_rest

theorem gathered_stuck {error : ReadError} (stuck : r.readInstruction = (.error error,r)) :
    ∀ n, gathered BulkTraceReader.readInstruction n r = []
  | 0 => rfl
  | n + 1 => by
    rw [gathered_error n (congrArg Prod.fst stuck),stuck]
    exact gathered_stuck stuck n

theorem delivers_stuck {error : ReadError} (stuck : r.readInstruction = (.error error,r)) : Delivers r instrs ↔ instrs = [] := by
  simp only [Delivers,gathered_stuck stuck,List.map_nil,exists_const]
  exact eq_comm

/-- At the end of a truncated stream the buffer is still delivered if the stream answers with
    the end of the file from now on, but not if it repeats its error. -/
theorem delivers_truncated (supported : r.format.Supported) (few : r.instrBuffer.length ≤ r.refreshThreshold)
    (goes_on : r.eof = false) (short : r.pending.length < r.toRead)
    (cut : r.file.length % r.format.instrSize ≠ 0 ∨ r.ending ≠ .eof) :
    Delivers r (r.instrBuffer.map plain ++ instrs) ↔ instrs = [] ∧ (r.ending = .eof ∨ r.instrBuffer = []) := by
  obtain ⟨err,repeats,returned⟩ := BulkTraceReader.readInstruction_truncated supported few goes_on short cut
  rw [delivers_error returned]
  by_cases clean : r.ending = .eof
  · refine Iff.trans (delivers_exhausted (r := { r with file := [], errState := some err }) supported clean rfl rfl) ?_
    exact ⟨fun nothing => ⟨nothing,.inl clean⟩,And.left⟩
  · obtain rfl := repeats clean
    let r' : BulkTraceReader := { r with file := [], errState := some r.ending }
    have nothing : r'.pending = [] := by
      rw [BulkTraceReader.pending,records_short supported.size_pos]
      rfl
    have short' : r'.pending.length < r'.toRead := by
      rw [nothing]
      exact Nat.lt_of_le_of_lt (Nat.zero_le _) short
    have stuck : r'.readInstruction = (.error r.ending,r') := by
      obtain ⟨err,repeats',returned'⟩ :=
        BulkTraceReader.readInstruction_truncated (r := r') supported few goes_on short' (.inr clean)
      obtain rfl : err = r.ending := repeats' clean
      exact returned'
    rw [delivers_stuck stuck,List.append_eq_nil_iff,List.map_eq_nil_iff,and_comm]
    simp [clean]

end

/-- The number of instructions that the buffer carries over when a batch is read. -/
def BulkTraceReader.carried (r : BulkTraceReader) : Nat := min r.refreshThreshold (r.bufferSize - 1)

/-- The number of records in a batch once the buffer has been full. -/
def BulkTraceReader.batch (r : BulkTraceReader) : Nat := r.bufferSize - r.carried

/-- The reader is before the end of a truncated stream and has taken from a full buffer. -/
structure BulkTraceReader.Running (r : BulkTraceReader) : Prop where
  supported : r.format.Supported
  goes_on : r.eof = false
  cut : r.file.length % r.format.instrSize ≠ 0 ∨ r.ending ≠ .eof
  kept : r.carried ≤ r.instrBuffer.length
  room : r.instrBuffer.length < r.bufferSize

theorem plain_pending (r : BulkTraceReader) : r.pending.map plain = r.pending := by
  rw [BulkTraceReader.pending,List.map_map]
  exact List.map_congr_left fun raw _ => plain_convert r.format r.cpuID raw

section
variable {r : BulkTraceReader}

/-- Reading a batch leaves the rest of the stream. -/
theorem pending_drop (supported : r.format.Supported) {k : Nat} (enough : k ≤ r.pending.length) :
    (records r.format.instrSize (r.file.drop (r.format.instrSize * k))).map (convert r.format r.cpuID) = r.pending.drop k ∧
      (r.file.drop (r.format.instrSize * k)).length % r.format.instrSize = r.file.length % r.format.instrSize := by
  rw [BulkTraceReader.pending_length] at enough
  refine ⟨?_,?_⟩
  · rw [BulkTraceReader.pending,← List.map_drop,records_drop supported.size_pos enough]
  · have within : r.format.instrSize * k ≤ r.file.length :=
      Nat.le_trans (Nat.mul_le_mul_left _ enough) (Nat.mul_div_le ..)
    rw [List.length_drop,Nat.sub_mul_mod within]

namespace BulkTraceReader

/-- A batch that comes whole: what is delivered, and how the reader goes on. -/
theorem delivers_refilled (instrs : List OOOModelInstr) (supported : r.format.Supported)
    (few : r.instrBuffer.length ≤ r.refreshThreshold) (goes_on : r.eof = false)
    (cut : r.file.length % r.format.instrSize ≠ 0 ∨ r.ending ≠ .eof) (room : r.instrBuffer.length < r.bufferSize)
    (enough : r.toRead ≤ r.pending.length) :
    ∃ r' : BulkTraceReader, r'.Running ∧ (r'.batch = r.batch ∧ r'.carried = r.carried ∧ r'.ending = r.ending) ∧
      r'.instrBuffer.length + 1 = r.bufferSize ∧ r'.pending = r.pending.drop r.toRead ∧
      (Delivers r ((r.instrBuffer ++ r.pending).map plain ++ instrs) ↔
        Delivers r' ((r'.instrBuffer ++ r'.pending).map plain ++ instrs)) := by
  have some_room : r.toRead ≠ 0 := Nat.sub_ne_zero_of_lt room
  have took := readInstruction_refilled supported few goes_on some_room enough
  obtain ⟨rest_pending,same_cut⟩ := pending_drop supported enough
  have filled : (setBranchTargets (r.instrBuffer ++ r.pending.take r.toRead)).length = r.bufferSize := by
    rw [setBranchTargets_length,List.length_append,List.length_take_of_le enough]
    exact Nat.add_sub_cancel' room.le
  have content : (r.instrBuffer ++ r.pending).map plain =
      (setBranchTargets (r.instrBuffer ++ r.pending.take r.toRead)).map plain ++ (r.pending.drop r.toRead).map plain := by
    rw [plain_targets,← List.map_append,List.append_assoc,List.take_append_drop]
  cases buffered : setBranchTargets (r.instrBuffer ++ r.pending.take r.toRead) with
  | nil =>
    rw [buffered] at filled
    exact absurd (filled ▸ room) (Nat.not_lt_zero _)
  | cons instr rest =>
    rw [buffered] at filled took content
    refine ⟨{ r with file := r.file.drop (r.format.instrSize * r.toRead)
                     instrBuffer := rest
                     instrCounter := r.instrCounter + 1 },⟨supported,goes_on,?_,?_,?_⟩,⟨rfl,rfl,rfl⟩,filled,rest_pending,?_⟩
    · exact same_cut ▸ cut
    · show min r.refreshThreshold (r.bufferSize - 1) ≤ rest.length
      rw [← filled]
      exact Nat.min_le_right ..
    · show rest.length < r.bufferSize
      rw [← filled]
      exact Nat.lt_succ_self _
    · rw [content,List.map_cons,List.cons_append,List.cons_append,delivers_took took rfl,← rest_pending,← List.map_append]
      exact Iff.rfl

/-- A batch is read when only what is carried over is left in the buffer. -/
theorem Running.carries (running : r.Running) (few : r.instrBuffer.length ≤ r.refreshThreshold) :
    r.instrBuffer.length = r.carried := by
  have kept := running.kept
  have room := running.room
  unfold carried at kept ⊢
  omega

theorem Running.toRead_eq (running : r.Running) (few : r.instrBuffer.length ≤ r.refreshThreshold) : r.toRead = r.batch := by
  rw [toRead,batch,running.carries few]

/-- While the reader runs, all that is left is delivered just if it comes in whole batches, and
    the stream ends with the end of the file or nothing is carried over. -/
theorem running_delivers_iff (left : Nat) : ∀ {r : BulkTraceReader}, r.Running →
    r.instrBuffer.length + r.pending.length = left →
    (Delivers r ((r.instrBuffer ++ r.pending).map plain) ↔
      r.batch ∣ r.pending.length ∧ (r.ending = .eof ∨ r.carried = 0)) := by
  induction left using Nat.strong_induction_on with
  | _ left ih =>
    intro r running measured
    by_cases few : r.instrBuffer.length ≤ r.refreshThreshold
    · have asked := running.toRead_eq few
      by_cases enough : r.toRead ≤ r.pending.length
      · obtain ⟨r',running',⟨same_batch,same_carried,same_ending⟩,filled,rest,delivers⟩ :=
          delivers_refilled [] running.supported few running.goes_on running.cut running.room enough
        have fewer : r'.pending.length + r.batch = r.pending.length := by
          rw [rest,List.length_drop,asked]
          exact Nat.sub_add_cancel (asked ▸ enough)
        have less : r'.instrBuffer.length + r'.pending.length < left := by
          have carries := running.carries few
          unfold batch at fewer
          omega
        rw [List.append_nil,List.append_nil] at delivers
        rw [delivers,ih _ less running' rfl,same_batch,same_carried,same_ending,← fewer,Nat.dvd_add_self_right]
      · have short := Nat.lt_of_not_le enough
        rw [List.map_append,delivers_truncated running.supported few running.goes_on short running.cut,
          List.map_eq_nil_iff,← List.length_eq_zero_iff,← List.length_eq_zero_iff,running.carries few]
        rw [asked] at short
        refine and_congr_left fun _ => ?_
        exact ⟨fun none => none ▸ Nat.dvd_zero _,fun divides => Nat.eq_zero_of_dvd_of_lt divides short⟩
    · have many := Nat.lt_of_not_le few
      have took := readInstruction_buffered (.inl many)
      cases buffered : r.instrBuffer with
      | nil =>
        rw [buffered] at many
        exact absurd many (Nat.not_lt_zero _)
      | cons instr rest =>
        have room := running.room
        rw [buffered,List.length_cons] at measured many room
        have kept : r.carried ≤ rest.length := Nat.le_trans (Nat.min_le_left ..) (Nat.le_of_lt_succ many)
        have running' : Running { r with instrBuffer := rest, instrCounter := r.instrCounter + 1 } :=
          ⟨running.supported,running.goes_on,running.cut,kept,Nat.lt_of_succ_lt room⟩
        have less : rest.length + r.pending.length < left := by omega
        rw [List.cons_append,List.map_cons,delivers_took took buffered]
        exact ih _ less running' rfl

end BulkTraceReader
end

/-- On a truncated stream, whether it ends inside a record or with another error than the end
    of the file, the reader delivers every complete record just if there is none, or they fill
    the buffer once and then whole batches, and the stream goes on to answer with the end of the
    file or nothing is carried over: what is read in the same batch as the truncated record, or
    is left in the buffer when the error is repeated, is lost. -/
theorem bulk_loses_none_iff (format : TraceFormat) (supported : format.Supported) (cpuID : UInt8) (file : List UInt8)
    (ending : ReadError) (cut : file.length % format.instrSize ≠ 0 ∨ ending ≠ .eof) (bufferSize refreshThreshold : Nat) :
    Delivers (.newReader file ending cpuID format bufferSize refreshThreshold)
        ((records format.instrSize file).map (convert format cpuID)) ↔
      file.length / format.instrSize = 0 ∨
        (∃ j, file.length / format.instrSize = bufferSize + j * (bufferSize - min refreshThreshold (bufferSize - 1))) ∧
          (ending = .eof ∨ min refreshThreshold (bufferSize - 1) = 0) := by
  let r := BulkTraceReader.newReader file ending cpuID format bufferSize refreshThreshold
  have complete : r.pending.length = file.length / format.instrSize := BulkTraceReader.pending_length
  rw [← complete]
  show Delivers r r.pending ↔ _
  rcases Nat.eq_zero_or_pos bufferSize with rfl | positive
  · -- an empty buffer is never filled
    have stuck : r.readInstruction = (.error .eof,r) := BulkTraceReader.readInstruction_buffered (.inr (.inr rfl))
    rw [delivers_stuck stuck,← List.length_eq_zero_iff]
    simp
  · by_cases enough : bufferSize ≤ r.pending.length
    · obtain ⟨r',running,⟨same_batch,same_carried,same_ending⟩,-,rest,delivers⟩ := BulkTraceReader.delivers_refilled (r := r) []
        supported (Nat.zero_le _) rfl cut positive enough
      have fewer : r'.pending.length = r.pending.length - bufferSize := by
        rw [rest,List.length_drop]
        rfl
      have all : (r.instrBuffer ++ r.pending).map plain = r.pending := plain_pending r
      rw [List.append_nil,List.append_nil,all] at delivers
      refine delivers.trans ((BulkTraceReader.running_delivers_iff _ running rfl).trans ?_)
      rw [same_batch,same_carried,same_ending,fewer]
      constructor
      · rintro ⟨⟨j,batches⟩,kept⟩
        refine .inr ⟨⟨j,?_⟩,kept⟩
        rw [Nat.mul_comm] at batches
        exact (Nat.sub_eq_iff_eq_add' enough).mp batches
      · rintro (none | ⟨⟨j,batches⟩,kept⟩)
        · omega
        · refine ⟨⟨j,?_⟩,kept⟩
          rw [batches,Nat.add_sub_cancel_left,Nat.mul_comm]
          rfl
    · have short := Nat.lt_of_not_le enough
      have lost : Delivers r ([].map plain ++ r.pending) ↔ r.pending = [] ∧ (r.ending = .eof ∨ r.instrBuffer = []) :=
        delivers_truncated (r := r) supported (Nat.zero_le _) rfl short cut
      rw [← List.nil_append r.pending]
      refine lost.trans ?_
      rw [← List.length_eq_zero_iff,List.nil_append]
      constructor
      · rintro ⟨none,_⟩
        exact .inl none
      · rintro (none | ⟨⟨j,batches⟩,_⟩)
        · exact ⟨none,.inr rfl⟩
        · omega

/-- Three records, with the numbers 1 to 3 as their addresses, and a byte. -/
def threeAndAByte : List UInt8 := ((List.range 3).flatMap fun i => UInt8.ofNat (i + 1) :: List.replicate 63 0) ++ [0]

/-- Read in batches of two, of which one instruction is carried over. The third record comes in
    a batch of its own, the truncated one in the next. -/
theorem bulk_loses_none_carried :
    ((gathered BulkTraceReader.readInstruction 4 (.newReader threeAndAByte .eof 0 .standard 2 1)).map fun instr => instr.ip) = [1,2,3] ∧
    Delivers (.newReader threeAndAByte .eof 0 .standard 2 1) ((records 64 threeAndAByte).map (convert .standard 0)) ∧
    ¬ Delivers (.newReader threeAndAByte .unexpectedEOF 0 .standard 2 1) ((records 64 threeAndAByte).map (convert .standard 0)) := by
  refine ⟨by decide +kernel,?_,?_⟩
  · exact (bulk_loses_none_iff .standard trivial 0 threeAndAByte .eof (.inl (by decide +kernel)) 2 1).mpr (.inr ⟨⟨1,by decide +kernel⟩,.inl rfl⟩)
  · rw [show (64 : Nat) = TraceFormat.standard.instrSize from rfl,
      bulk_loses_none_iff .standard trivial 0 threeAndAByte .unexpectedEOF (.inl (by decide +kernel)) 2 1]
    rintro (none | ⟨_,clean | nothing⟩)
    · exact absurd none (by decide +kernel)
    · cases clean
    · exact absurd nothing (by decide)

/-- A trace of one record and a byte: the record is lost. -/
theorem truncated_trace_loses : ¬ ∀ (format : TraceFormat) (cpuID : UInt8) (file : List UInt8), format.Supported →
    file.length % format.instrSize ≠ 0 → Delivers (.newTraceReader file .eof cpuID format)
      ((records format.instrSize file).map (convert format cpuID)) := by
  intro always
  let r := BulkTraceReader.newTraceReader (List.replicate 65 0) .eof 0 .standard
  have cut : (List.replicate 65 (0 : UInt8)).length % TraceFormat.standard.instrSize ≠ 0 := by decide
  have delivered : Delivers r r.pending := always .standard 0 (List.replicate 65 0) trivial cut
  have lost : Delivers r ([].map plain ++ r.pending) ↔ r.pending = [] ∧ (r.ending = .eof ∨ r.instrBuffer = []) :=
    delivers_truncated (r := r) trivial (by decide) rfl (by decide) (.inl cut)
  exact absurd (congrArg List.length (lost.mp delivered).1) (by decide)

end FlowSim.Trace
