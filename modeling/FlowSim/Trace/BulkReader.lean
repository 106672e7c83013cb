import FlowSim.Lib.Reading
import FlowSim.Trace.Records

/-!
The reader that keeps a batch of instructions. Keeping one instruction back when it reads the
next batch, it knows where every taken branch goes, and on a stream of whole records it yields
what decoding the records one by one yields (`bulk_yields`).
-/
namespace FlowSim.Trace
open FlowSim.Lib
set_option linter.unusedSimpArgs false

structure BulkTraceReader where
  cpuID : UInt8
  format : TraceFormat
  instrCounter : UInt64
  /-- What is left of the stream. -/
  file : List UInt8
  /-- How the stream ends. -/
  ending : ReadError
  eof : Bool
  errState : Option ReadError
  instrBuffer : List OOOModelInstr
  bufferSize : Nat
  refreshThreshold : Nat

/-- A taken branch goes to the instruction that follows it. -/
def aimed (current next : OOOModelInstr) : OOOModelInstr :=
  if current.isBranch && current.branchTaken then { current with branchTarget := next.ip } else current

def setBranchTargets : List OOOModelInstr → List OOOModelInstr
  | current :: next :: rest => aimed current next :: setBranchTargets (next :: rest)
  | instrs => instrs

namespace BulkTraceReader

/-- A reader of a stream, with the sizes that it is to work with. -/
def newReader (file : List UInt8) (ending : ReadError) (cpuID : UInt8) (format : TraceFormat) (bufferSize refreshThreshold : Nat) :
    BulkTraceReader where
  cpuID := cpuID
  format := format
  instrCounter := 0
  file := file
  ending := ending
  eof := false
  errState := none
  instrBuffer := []
  bufferSize := bufferSize
  refreshThreshold := refreshThreshold

def defaultBufferSize : Nat := 128
def defaultRefreshThreshold : Nat := 1

def newTraceReader (file : List UInt8) (ending : ReadError) (cpuID : UInt8) (format : TraceFormat) : BulkTraceReader :=
  newReader file ending cpuID format defaultBufferSize defaultRefreshThreshold

def readBulkInputInstr (r : BulkTraceReader) (count : Nat) : List OOOModelInstr × Option ReadError × List UInt8 :=
  readBulk r.ending 64 (fun raw => .newFromInput r.cpuID (.ofBytes raw)) count r.file

def readBulkCloudSuiteInstr (r : BulkTraceReader) (count : Nat) : List OOOModelInstr × Option ReadError × List UInt8 :=
  readBulk r.ending 84 (fun raw => .newFromCloudSuite (.ofBytes raw)) count r.file

/-- What is done with a batch: an error other than the end of the stream drops it. -/
def addBatch (r : BulkTraceReader) : List OOOModelInstr × Option ReadError × List UInt8 → Option ReadError × BulkTraceReader
  | (newInstrs,err,file) =>
    if err.isSome ∧ err ≠ some .eof then (err,{ r with file })
    else
      (none,{ r with file
                     instrBuffer := setBranchTargets (r.instrBuffer ++ newInstrs)
                     eof := if err = some .eof then true else r.eof })

/-- The number of instructions that a refill asks for. -/
def toRead (r : BulkTraceReader) : Nat := r.bufferSize - r.instrBuffer.length

def refillBuffer (r : BulkTraceReader) : Option ReadError × BulkTraceReader :=
  if r.eof then (some .eof,r)
  else if r.toRead = 0 then (none,r)
  else
    match r.format with
    | .standard => r.addBatch (r.readBulkInputInstr r.toRead)
    | .cloudsuite => r.addBatch (r.readBulkCloudSuiteInstr r.toRead)
    | .other _ => (some (.other ("unknown trace format: " ++ r.format.string)),r)

/-- Takes the first instruction of the buffer and numbers it. -/
def takeBuffered (r : BulkTraceReader) : Except ReadError OOOModelInstr × BulkTraceReader :=
  match r.instrBuffer with
  | [] => (.error .eof,r)
  | instr :: rest =>
    (.ok { instr with instrID := r.instrCounter },{ r with instrBuffer := rest, instrCounter := r.instrCounter + 1 })

def readInstruction (r : BulkTraceReader) : Except ReadError OOOModelInstr × BulkTraceReader :=
  if r.instrBuffer.length ≤ r.refreshThreshold ∧ !r.eof then
    let (err,r) := r.refillBuffer
    match err with
    | some err => if err ≠ .eof then (.error err,{ r with errState := some err }) else r.takeBuffered
    | none => r.takeBuffered
  else r.takeBuffered

end BulkTraceReader

/-! ### Decoding record by record -/

/-- The instruction of a record that the record `next` follows, as the `i`th of its trace. -/
def located (i : Nat) (instr : OOOModelInstr) (next : Option OOOModelInstr) : OOOModelInstr :=
  { instr with
    instrID := UInt64.ofNat i
    branchTarget :=
      match next with
      | some next => if instr.isBranch && instr.branchTaken then next.ip else instr.branchTarget
      | none => instr.branchTarget }

/-- The instructions of a trace, from the `i`th on. -/
def locatedFrom : Nat → List OOOModelInstr → List OOOModelInstr
  | _, [] => []
  | i, instr :: rest => located i instr rest.head? :: locatedFrom (i + 1) rest

/-- A trace decoded record by record. -/
def decodeAll (format : TraceFormat) (cpuID : UInt8) (file : List UInt8) : List OOOModelInstr :=
  locatedFrom 0 ((records format.instrSize file).map (convert format cpuID))

theorem locatedFrom_getElem? : ∀ (i : Nat) (instrs : List OOOModelInstr) (n : Nat),
    (locatedFrom i instrs)[n]? = instrs[n]?.map fun instr => located (i + n) instr instrs[n + 1]?
  | _, [], _ => by simp [locatedFrom]
  | i, instr :: rest, 0 => by simp [locatedFrom,List.head?_eq_getElem?]
  | i, instr :: rest, n + 1 => by
    rw [locatedFrom,List.getElem?_cons_succ,locatedFrom_getElem? (i + 1) rest n,Nat.succ_add_eq_add_succ]
    rfl

/-! ### Branch targets -/

theorem setBranchTargets_length : ∀ instrs : List OOOModelInstr, (setBranchTargets instrs).length = instrs.length
  | [] => rfl
  | [_] => rfl
  | _ :: next :: rest => congrArg (· + 1) (setBranchTargets_length (next :: rest))

section
variable {current next next' : OOOModelInstr}

@[simp] theorem aimed_ip : (aimed current next).ip = current.ip := by
  unfold aimed
  split <;> rfl

theorem aimed_again (same_ip : next'.ip = next.ip) : aimed (aimed current next) next' = aimed current next := by
  by_cases taken : (current.isBranch && current.branchTaken) = true
  · simp [aimed,taken,same_ip]
  · simp [aimed,taken]

theorem located_aimed (i : Nat) (same_ip : next'.ip = next.ip) :
    located i (aimed current next) (some next') = located i current (some next) := by
  by_cases taken : (current.isBranch && current.branchTaken) = true
  · simp [aimed,located,taken,same_ip]
  · simp [aimed,located,taken]

end

theorem setBranchTargets_head : ∀ (instr : OOOModelInstr) (rest : List OOOModelInstr),
    ∃ instr' rest', setBranchTargets (instr :: rest) = instr' :: rest' ∧ instr'.ip = instr.ip
  | instr, [] => ⟨instr,[],rfl,rfl⟩
  | instr, next :: rest => by
    exact ⟨_,_,rfl,aimed_ip⟩

/-- Targets that are set do not change when more follows. -/
theorem setBranchTargets_again : ∀ instrs more : List OOOModelInstr,
    setBranchTargets (setBranchTargets instrs ++ more) = setBranchTargets (instrs ++ more)
  | [], _ => rfl
  | [_], _ => rfl
  | current :: next :: rest, more => by
    have tail := setBranchTargets_again (next :: rest) more
    obtain ⟨next',rest',targets,same_ip⟩ := setBranchTargets_head next rest
    rw [targets,List.cons_append] at tail
    rw [setBranchTargets,targets]
    show aimed (aimed current next) next' :: setBranchTargets (next' :: (rest' ++ more)) = aimed current next :: _
    rw [aimed_again same_ip,tail]
    rfl

theorem setBranchTargets_idem (instrs : List OOOModelInstr) :
    setBranchTargets (setBranchTargets instrs) = setBranchTargets instrs := by
  simpa using setBranchTargets_again instrs []

/-- Where the targets are set does not matter for what the trace says. -/
theorem locatedFrom_targets : ∀ (i : Nat) (instrs more : List OOOModelInstr),
    locatedFrom i (setBranchTargets instrs ++ more) = locatedFrom i (instrs ++ more)
  | _, [], _ => rfl
  | _, [_], _ => rfl
  | i, current :: next :: rest, more => by
    have tail := locatedFrom_targets (i + 1) (next :: rest) more
    obtain ⟨next',rest',targets,same_ip⟩ := setBranchTargets_head next rest
    rw [targets] at tail
    rw [setBranchTargets,targets]
    show located i (aimed current next) (some next') :: locatedFrom (i + 1) (next' :: rest' ++ more) = _
    rw [located_aimed i same_ip,tail]
    rfl

/-! ### Batches -/

namespace BulkTraceReader

/-- The instructions of the records that are not read yet. -/
def pending (r : BulkTraceReader) : List OOOModelInstr :=
  (records r.format.instrSize r.file).map (convert r.format r.cpuID)

section
variable {r : BulkTraceReader}

theorem pending_length : r.pending.length = r.file.length / r.format.instrSize := by
  rw [pending,List.length_map,records_length]

theorem refillBuffer_eq (supported : r.format.Supported) (goes_on : r.eof = false) (room : r.toRead ≠ 0) :
    r.refillBuffer = r.addBatch (readBulk r.ending r.format.instrSize (convert r.format r.cpuID) r.toRead r.file) := by
  unfold refillBuffer
  rw [if_neg (by simp [goes_on]),if_neg room]
  cases known : r.format with
  | standard => simp only [readBulkInputInstr]; rfl
  | cloudsuite => simp only [readBulkCloudSuiteInstr]; rfl
  | other value =>
    rw [known] at supported
    exact supported.elim

/-! ### One call -/

theorem readInstruction_buffered (enough : r.refreshThreshold < r.instrBuffer.length ∨ r.eof = true ∨ r.toRead = 0) :
    r.readInstruction = r.takeBuffered := by
  unfold readInstruction
  by_cases refills : r.instrBuffer.length ≤ r.refreshThreshold ∧ !r.eof
  · have goes_on : r.eof = false := by simpa using refills.2
    have full : r.toRead = 0 := by
      rcases enough with many | ended | full
      · exact absurd refills.1 (Nat.not_le.mpr many)
      · rw [goes_on] at ended
        cases ended
      · exact full
    have nothing : r.refillBuffer = (none,r) := by
      unfold refillBuffer
      rw [if_neg (by simp [goes_on]),if_pos full]
    rw [if_pos refills,nothing]
  · rw [if_neg refills]

section
variable (supported : r.format.Supported) (few : r.instrBuffer.length ≤ r.refreshThreshold) (goes_on : r.eof = false)
include supported few goes_on

theorem readInstruction_refilled (room : r.toRead ≠ 0) (enough : r.toRead ≤ r.pending.length) :
    r.readInstruction = takeBuffered
      { r with file := r.file.drop (r.format.instrSize * r.toRead)
               instrBuffer := setBranchTargets (r.instrBuffer ++ r.pending.take r.toRead) } := by
  rw [pending_length] at enough
  unfold readInstruction
  rw [if_pos ⟨few,by simp [goes_on]⟩,refillBuffer_eq supported goes_on room,readBulk_enough supported.size_pos enough]
  simp [addBatch,pending]

theorem readInstruction_ended (short : r.pending.length < r.toRead) (whole : r.file.length % r.format.instrSize = 0)
    (clean : r.ending = .eof) :
    r.readInstruction = takeBuffered
      { r with file := []
               instrBuffer := setBranchTargets (r.instrBuffer ++ r.pending)
               eof := true } := by
  have room : r.toRead ≠ 0 := Nat.ne_zero_of_lt short
  rw [pending_length] at short
  unfold readInstruction
  rw [if_pos ⟨few,by simp [goes_on]⟩,refillBuffer_eq supported goes_on room,readBulk_short supported.size_pos short]
  simp [addBatch,pending,whole,clean]

/-- The records read in the same batch as a truncated one are given up. -/
theorem readInstruction_truncated (short : r.pending.length < r.toRead)
    (cut : r.file.length % r.format.instrSize ≠ 0 ∨ r.ending ≠ .eof) : ∃ err, (r.ending ≠ .eof → err = r.ending) ∧
      r.readInstruction = (.error err,{ r with file := []
                                               errState := some err }) := by
  have room : r.toRead ≠ 0 := Nat.ne_zero_of_lt short
  rw [pending_length] at short
  unfold readInstruction
  rw [if_pos ⟨few,by simp [goes_on]⟩,refillBuffer_eq supported goes_on room,readBulk_short supported.size_pos short]
  by_cases ends : r.ending = .eof
  · have inside : r.file.length % r.format.instrSize ≠ 0 := cut.resolve_right fun other => other ends
    refine ⟨.unexpectedEOF,fun other => absurd ends other,?_⟩
    simp [addBatch,inside,cutError,ends]
  · refine ⟨r.ending,fun _ => rfl,?_⟩
    simp [addBatch,cutError,ends]

end

/-! ### Streams of whole records -/

/-- What holds of a reader between two calls, and what it has yet to yield. -/
structure Follows (r : BulkTraceReader) (items : List OOOModelInstr) : Prop where
  supported : r.format.Supported
  threshold : r.refreshThreshold = 1
  sizes : 2 ≤ r.bufferSize
  whole : r.file.length % r.format.instrSize = 0
  clean : r.ending = .eof
  ended : r.eof = true → r.file = []
  targets : setBranchTargets r.instrBuffer = r.instrBuffer
  left : ∃ i, r.instrCounter = UInt64.ofNat i ∧ items = locatedFrom i (r.instrBuffer ++ r.pending)

theorem setBranchTargets_tail {instr : OOOModelInstr} {rest : List OOOModelInstr}
    (targets : setBranchTargets (instr :: rest) = instr :: rest) : setBranchTargets rest = rest := by
  cases rest with
  | nil => rfl
  | cons next rest => exact (List.cons.inj targets).2

theorem Follows.take_nothing (follows : r.Follows []) : r.takeBuffered = (.error .eof,r) := by
  obtain ⟨i,-,none_left⟩ := follows.left
  cases buffered : r.instrBuffer with
  | nil => simp only [takeBuffered,buffered]
  | cons instr rest =>
    rw [buffered] at none_left
    cases none_left

/-- A reader that keeps one instruction back, or has none to come, takes one from its buffer. -/
theorem Follows.take {item : OOOModelInstr} {items : List OOOModelInstr} (follows : r.Follows (item :: items))
    (ahead : 2 ≤ r.instrBuffer.length ∨ r.pending = []) :
    r.takeBuffered.1 = .ok item ∧ r.takeBuffered.2.Follows items := by
  obtain ⟨i,counted,is_left⟩ := follows.left
  have none_left : r.instrBuffer.length < 2 → r.pending = [] := fun short => ahead.resolve_left (Nat.not_le.mpr short)
  cases buffered : r.instrBuffer with
  | nil =>
    rw [buffered] at none_left is_left
    rw [none_left (by decide)] at is_left
    cases is_left
  | cons instr rest =>
    have set := follows.targets
    rw [buffered] at none_left is_left set
    obtain ⟨rfl,rfl⟩ := List.cons.inj is_left
    have is_located : { instr with instrID := r.instrCounter } = located i instr (rest ++ r.pending).head? := by
      cases rest with
      | nil =>
        rw [none_left (Nat.lt_succ_self 1)]
        simp [located,counted]
      | cons next rest =>
        have aims : aimed instr next = instr := (List.cons.inj set).1
        have same := congrArg (fun x : OOOModelInstr => x.branchTarget) aims
        rw [List.cons_append,List.head?_cons,counted]
        by_cases taken : (instr.isBranch && instr.branchTaken) = true
        · simp only [aimed,taken,if_true] at same
          simp [located,taken,same]
        · simp [located,taken]
    have took : r.takeBuffered = (.ok { instr with instrID := r.instrCounter },
        { r with instrBuffer := rest, instrCounter := r.instrCounter + 1 }) := by
      simp only [takeBuffered,buffered]
    rw [took,is_located]
    refine ⟨rfl,follows.supported,follows.threshold,follows.sizes,follows.whole,follows.clean,follows.ended,setBranchTargets_tail set,i + 1,?_,rfl⟩
    simp only [counted,UInt64.ofNat_add]
    rfl

/-- A refill leaves what is yet to be yielded as it is. -/
theorem Follows.refilled {items : List OOOModelInstr} (follows : r.Follows items) (enough : r.toRead ≤ r.pending.length) :
    Follows { r with file := r.file.drop (r.format.instrSize * r.toRead)
                     instrBuffer := setBranchTargets (r.instrBuffer ++ r.pending.take r.toRead) } items := by
  obtain ⟨i,counted,rfl⟩ := follows.left
  have positive := follows.supported.size_pos
  have rest : pending { r with file := r.file.drop (r.format.instrSize * r.toRead)
                               instrBuffer := setBranchTargets (r.instrBuffer ++ r.pending.take r.toRead) } =
      r.pending.drop r.toRead := by
    rw [pending_length] at enough
    rw [pending,pending,← List.map_drop,records_drop positive enough]
  refine ⟨follows.supported,follows.threshold,follows.sizes,?_,follows.clean,?_,setBranchTargets_idem _,i,counted,?_⟩
  · show (r.file.drop _).length % _ = 0
    have divides := Nat.dvd_of_mod_eq_zero follows.whole
    rw [List.length_drop]
    exact Nat.mod_eq_zero_of_dvd (Nat.dvd_sub divides (Nat.dvd_mul_right ..))
  · intro ended
    rw [show r.file = [] from follows.ended ended]
    exact List.drop_nil
  · rw [rest]
    show _ = locatedFrom i (setBranchTargets _ ++ _)
    rw [locatedFrom_targets,List.append_assoc,List.take_append_drop]

theorem Follows.closed {items : List OOOModelInstr} (follows : r.Follows items) :
    Follows { r with file := []
                     instrBuffer := setBranchTargets (r.instrBuffer ++ r.pending)
                     eof := true } items := by
  obtain ⟨i,counted,rfl⟩ := follows.left
  have nothing : pending { r with file := []
                                  instrBuffer := setBranchTargets (r.instrBuffer ++ r.pending)
                                  eof := true } = [] := by
    rw [pending,records_short follows.supported.size_pos]
    rfl
  refine ⟨follows.supported,follows.threshold,follows.sizes,Nat.zero_mod _,follows.clean,fun _ => rfl,setBranchTargets_idem _,i,counted,?_⟩
  rw [nothing]
  show _ = locatedFrom i (setBranchTargets _ ++ [])
  rw [locatedFrom_targets,List.append_nil]

/-- Every call takes an instruction from the buffer of a reader that keeps one back. -/
theorem Follows.ready {items : List OOOModelInstr} (follows : r.Follows items) : ∃ r' : BulkTraceReader,
    r.readInstruction = r'.takeBuffered ∧ r'.Follows items ∧ (2 ≤ r'.instrBuffer.length ∨ r'.pending = []) := by
  by_cases many : r.refreshThreshold < r.instrBuffer.length
  · refine ⟨r,readInstruction_buffered (.inl many),follows,.inl ?_⟩
    rw [follows.threshold] at many
    exact many
  · have few := Nat.le_of_not_lt many
    cases goes_on : r.eof with
    | true =>
      refine ⟨r,readInstruction_buffered (.inr (.inl goes_on)),follows,.inr ?_⟩
      rw [pending,follows.ended goes_on,records_short follows.supported.size_pos]
      rfl
    | false =>
      have room : r.toRead ≠ 0 := by
        have := follows.threshold
        have := follows.sizes
        unfold toRead
        omega
      by_cases enough : r.toRead ≤ r.pending.length
      · refine ⟨_,readInstruction_refilled follows.supported few goes_on room enough,follows.refilled enough,.inl ?_⟩
        show 2 ≤ (setBranchTargets _).length
        rw [setBranchTargets_length,List.length_append,List.length_take_of_le enough]
        have := follows.sizes
        unfold toRead
        omega
      · refine ⟨_,readInstruction_ended follows.supported few goes_on (Nat.lt_of_not_le enough) follows.whole
          follows.clean,follows.closed,.inr ?_⟩
        rw [pending,records_short follows.supported.size_pos]
        rfl

theorem follows_simulates : Simulates readInstruction .eof Follows where
  some_left follows := by
    obtain ⟨r',same,follows,ahead⟩ := follows.ready
    rw [same]
    exact follows.take ahead
  none_left follows := by
    obtain ⟨r',same,follows,ahead⟩ := follows.ready
    rw [same,follows.take_nothing]
    exact ⟨rfl,follows⟩

end
end BulkTraceReader

/-- On a stream of whole records, the reader yields the trace decoded record by record. -/
theorem bulk_yields (format : TraceFormat) (supported : format.Supported) (cpuID : UInt8) (file : List UInt8)
    (whole : file.length % format.instrSize = 0) (bufferSize : Nat) (sizes : 2 ≤ bufferSize) :
    Yields BulkTraceReader.readInstruction .eof (decodeAll format cpuID file)
      (.newReader file .eof cpuID format bufferSize BulkTraceReader.defaultRefreshThreshold) :=
  BulkTraceReader.follows_simulates.yields ⟨supported,rfl,sizes,whole,rfl,(by simp [BulkTraceReader.newReader]),rfl,0,rfl,rfl⟩

end FlowSim.Trace
