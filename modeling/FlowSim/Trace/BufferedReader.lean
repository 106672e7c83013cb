import FlowSim.Trace.BulkReader

/-!
The reader that loads many instructions ahead from another reader. Whatever the sizes, it
yields what the reader below it yields, numbered anew (`buffered_yields`).
-/
namespace FlowSim.Trace
open FlowSim.Lib
set_option linter.unusedSimpArgs false

/-- The reader above one whose states are `ρ`. -/
structure BufferedTraceReader (ρ : Type) where
  cpuID : UInt8
  instrCounter : UInt64
  underlying : ρ
  instrBuffer : List OOOModelInstr
  bufferIndex : Nat
  preloadSize : Int
  refillSize : Int
  eof : Bool

namespace BufferedTraceReader
variable {ρ : Type}

def newBufferedTraceReader (underlying : ρ) (cpuID : UInt8) (preloadSize refillSize : Int) : BufferedTraceReader ρ :=
  let preloadSize := if preloadSize ≤ 0 then 100000 else preloadSize
  let refillSize := if refillSize ≤ 0 then preloadSize / 2 else refillSize
  { cpuID := cpuID
    instrCounter := 0
    underlying := underlying
    instrBuffer := []
    bufferIndex := 0
    preloadSize := preloadSize
    refillSize := refillSize
    eof := false }

def remaining (r : BufferedTraceReader ρ) : Int := r.instrBuffer.length - r.bufferIndex

variable (read : ρ → Except ReadError OOOModelInstr × ρ)

/-- Loads up to so many instructions. -/
def load : Nat → BufferedTraceReader ρ → Option ReadError × BufferedTraceReader ρ
  | 0, r => (none,r)
  | toLoad + 1, r =>
    match read r.underlying with
    | (.ok instr,underlying) => load toLoad { r with underlying, instrBuffer := r.instrBuffer ++ [instr] }
    | (.error .eof,underlying) => (none,{ r with underlying, eof := true })
    | (.error err,underlying) => (some err,{ r with underlying })

def preload (r : BufferedTraceReader ρ) : Option ReadError × BufferedTraceReader ρ :=
  if r.eof then (some .eof,r)
  else
    let toLoad := r.preloadSize - r.remaining
    if toLoad ≤ 0 then (none,r) else load read toLoad.toNat r

/-- Drops what has been read and loads more. -/
def refill (r : BufferedTraceReader ρ) : Option ReadError × BufferedTraceReader ρ :=
  if r.eof then (some .eof,r)
  else preload read (if 0 < r.bufferIndex then { r with instrBuffer := r.instrBuffer.drop r.bufferIndex, bufferIndex := 0 } else r)

/-- Takes the next instruction of the buffer and numbers it. -/
def takeBuffered (r : BufferedTraceReader ρ) : Except ReadError OOOModelInstr × BufferedTraceReader ρ :=
  match r.instrBuffer[r.bufferIndex]? with
  | none => (.error .eof,r)
  | some instr =>
    (.ok { instr with instrID := r.instrCounter },
      { r with bufferIndex := r.bufferIndex + 1, instrCounter := r.instrCounter + 1 })

def readInstruction (r : BufferedTraceReader ρ) : Except ReadError OOOModelInstr × BufferedTraceReader ρ :=
  if r.remaining = 0 ∨ (r.remaining < r.refillSize ∧ !r.eof) then
    let (err,r) := refill read r
    match err with
    | some err => if err ≠ .eof then (.error err,r) else r.takeBuffered
    | none => r.takeBuffered
  else r.takeBuffered

end BufferedTraceReader

/-- The instructions, numbered from `i` on. -/
def numberedFrom : Nat → List OOOModelInstr → List OOOModelInstr
  | _, [] => []
  | i, instr :: rest => { instr with instrID := UInt64.ofNat i } :: numberedFrom (i + 1) rest

theorem numberedFrom_located : ∀ (i : Nat) (instrs : List OOOModelInstr),
    numberedFrom i (locatedFrom i instrs) = locatedFrom i instrs
  | _, [] => rfl
  | i, instr :: rest => by
    rw [locatedFrom,numberedFrom,numberedFrom_located (i + 1) rest]
    rfl

namespace BufferedTraceReader
section
variable {ρ : Type} {read : ρ → Except ReadError OOOModelInstr × ρ} {r : BufferedTraceReader ρ} {left : List OOOModelInstr}

theorem load_yields : ∀ (toLoad : Nat) {r : BufferedTraceReader ρ} {left : List OOOModelInstr},
    Yields read .eof left r.underlying → ∃ underlying, Yields read .eof (left.drop toLoad) underlying ∧
      load read toLoad r = (none,{ r with underlying
                                          instrBuffer := r.instrBuffer ++ left.take toLoad
                                          eof := if left.length < toLoad then true else r.eof })
  | 0, r, left, yields => ⟨r.underlying,yields,by simp [load]⟩
  | toLoad + 1, r, [], yields => by
    have ended := yields.nil
    refine ⟨(read r.underlying).2,ended.2,?_⟩
    rw [load,← Prod.eta (read r.underlying),ended.1]
    simp
  | toLoad + 1, r, instr :: left, yields => by
    obtain ⟨returned,rest⟩ := yields.cons
    obtain ⟨underlying,after,loaded⟩ :=
      load_yields toLoad (r := { r with underlying := (read r.underlying).2, instrBuffer := r.instrBuffer ++ [instr] }) rest
    refine ⟨underlying,after,?_⟩
    rw [load,← Prod.eta (read r.underlying),returned]
    simp only [loaded,List.append_assoc,List.singleton_append,List.take_succ_cons,List.length_cons,Nat.add_lt_add_iff_right]

/-- What holds of a reader between two calls, and what it has yet to yield. -/
structure Follows (read : ρ → Except ReadError OOOModelInstr × ρ) (r : BufferedTraceReader ρ) (items : List OOOModelInstr) :
    Prop where
  within : r.bufferIndex ≤ r.instrBuffer.length
  loads : 0 < r.preloadSize
  left : ∃ i left, r.instrCounter = UInt64.ofNat i ∧ Yields read .eof left r.underlying ∧ (r.eof = true → left = []) ∧
    items = numberedFrom i (r.instrBuffer.drop r.bufferIndex ++ left)

theorem Follows.take {item : OOOModelInstr} {items : List OOOModelInstr} (follows : r.Follows read (item :: items))
    (buffered : r.bufferIndex < r.instrBuffer.length) :
    r.takeBuffered.1 = .ok item ∧ r.takeBuffered.2.Follows read items := by
  obtain ⟨i,left,counted,yields,ended,is_left⟩ := follows.left
  rw [List.drop_eq_getElem_cons buffered,List.cons_append,numberedFrom] at is_left
  obtain ⟨rfl,rfl⟩ := List.cons.inj is_left
  have took : r.takeBuffered = (.ok { r.instrBuffer[r.bufferIndex] with instrID := r.instrCounter },
      { r with bufferIndex := r.bufferIndex + 1, instrCounter := r.instrCounter + 1 }) := by
    simp only [takeBuffered,List.getElem?_eq_getElem buffered]
  rw [took,counted]
  refine ⟨rfl,buffered,follows.loads,i + 1,left,?_,yields,ended,rfl⟩
  rw [UInt64.ofNat_add]
  rfl

/-- Dropping what has been read leaves what is yet to be yielded as it is. -/
theorem compact_eq (r : BufferedTraceReader ρ) :
    (if 0 < r.bufferIndex then { r with instrBuffer := r.instrBuffer.drop r.bufferIndex, bufferIndex := 0 } else r) =
      { r with instrBuffer := r.instrBuffer.drop r.bufferIndex, bufferIndex := 0 } := by
  by_cases some_read : 0 < r.bufferIndex
  · rw [if_pos some_read]
  · rw [if_neg some_read]
    cases r
    simp only [Nat.not_lt,Nat.le_zero] at some_read
    subst some_read
    rfl

/-- After a refill, the buffer has the next instruction, unless there is none. -/
theorem Follows.refilled {items : List OOOModelInstr} (follows : r.Follows read items) (goes_on : r.eof = false) :
    ∃ r' : BufferedTraceReader ρ, refill read r = (none,r') ∧ r'.Follows read items ∧
      (r'.bufferIndex < r'.instrBuffer.length ∨ items = []) := by
  obtain ⟨i,left,counted,yields,ended,rfl⟩ := follows.left
  unfold refill preload
  rw [if_neg (by simp [goes_on]),compact_eq,if_neg (by simp [goes_on])]
  simp only [remaining,Int.natCast_zero,Int.sub_zero]
  by_cases full : r.preloadSize - ((r.instrBuffer.drop r.bufferIndex).length : Int) ≤ 0
  · rw [if_pos full]
    refine ⟨_,rfl,⟨Nat.zero_le _,follows.loads,i,left,counted,yields,ended,rfl⟩,.inl ?_⟩
    have := follows.loads
    show 0 < (r.instrBuffer.drop r.bufferIndex).length
    omega
  · rw [if_neg full]
    obtain ⟨underlying,after,loaded⟩ :=
      load_yields (r.preloadSize - ((r.instrBuffer.drop r.bufferIndex).length : Int)).toNat
        (r := { r with instrBuffer := r.instrBuffer.drop r.bufferIndex, bufferIndex := 0 }) yields
    refine ⟨_,loaded,⟨Nat.zero_le _,follows.loads,i,_,counted,after,?_,?_⟩,?_⟩
    · intro closed
      by_cases short : left.length < (r.preloadSize - ((r.instrBuffer.drop r.bufferIndex).length : Int)).toNat
      · exact List.drop_eq_nil_of_le short.le
      · rw [if_neg short] at closed
        rw [ended closed,List.drop_nil]
    · simp only [List.drop_zero,List.append_assoc,List.take_append_drop]
    · show 0 < (r.instrBuffer.drop r.bufferIndex ++ left.take _).length ∨ _
      cases left with
      | nil =>
        cases rest : r.instrBuffer.drop r.bufferIndex with
        | nil => exact .inr rfl
        | cons instr rest => exact .inl (by simp)
      | cons instr left =>
        rw [List.length_append,List.length_take]
        have some_load := Int.pos_iff_toNat_pos.mp (Int.not_le.mp full)
        exact .inl (Nat.lt_of_lt_of_le (Nat.lt_min.mpr ⟨some_load,Nat.succ_pos _⟩) (Nat.le_add_left ..))

theorem Follows.ready {items : List OOOModelInstr} (follows : r.Follows read items) : ∃ r' : BufferedTraceReader ρ,
    readInstruction read r = r'.takeBuffered ∧ r'.Follows read items ∧
      (r'.bufferIndex < r'.instrBuffer.length ∨ items = []) := by
  unfold readInstruction
  by_cases refills : r.remaining = 0 ∨ (r.remaining < r.refillSize ∧ !r.eof)
  · rw [if_pos refills]
    cases goes_on : r.eof with
    | false =>
      obtain ⟨r',refilled,follows',buffered⟩ := follows.refilled goes_on
      exact ⟨r',by simp only [refilled],follows',buffered⟩
    | true =>
      have nothing : refill read r = (some .eof,r) := by
        unfold refill
        rw [if_pos goes_on]
      refine ⟨r,by simp [nothing],follows,.inr ?_⟩
      have read_all : r.remaining = 0 := refills.resolve_right (by simp [goes_on])
      obtain ⟨i,left,counted,yields,ended,rfl⟩ := follows.left
      have past : r.instrBuffer.length ≤ r.bufferIndex := by
        unfold remaining at read_all
        omega
      rw [ended goes_on,List.drop_eq_nil_of_le past]
      rfl
  · rw [if_neg refills]
    refine ⟨r,rfl,follows,.inl ?_⟩
    have := follows.within
    simp only [remaining,not_or] at refills
    omega

theorem follows_simulates (read : ρ → Except ReadError OOOModelInstr × ρ) :
    Simulates (readInstruction read) .eof (Follows read) where
  some_left follows := by
    obtain ⟨r',same,follows,buffered⟩ := follows.ready
    rw [same]
    exact follows.take (buffered.resolve_right (by simp))
  none_left {r} follows := by
    obtain ⟨r',same,follows,-⟩ := follows.ready
    obtain ⟨i,left,counted,yields,ended,none_left⟩ := follows.left
    have past : r'.instrBuffer[r'.bufferIndex]? = none := by
      rcases rest : r'.instrBuffer.drop r'.bufferIndex with _ | ⟨instr,rest⟩
      · exact List.getElem?_eq_none (List.drop_eq_nil_iff.mp rest)
      · rw [rest] at none_left
        cases none_left
    have took : r'.takeBuffered = (.error .eof,r') := by simp only [takeBuffered,past]
    rw [same,took]
    exact ⟨rfl,follows⟩

/-- A buffered reader yields what the reader below it yields, whatever its sizes. -/
theorem buffered_yields {underlying : ρ} {items : List OOOModelInstr} (yields : Yields read .eof items underlying) (cpuID : UInt8)
    (preloadSize refillSize : Int) :
    Yields (readInstruction read) .eof (numberedFrom 0 items) (newBufferedTraceReader underlying cpuID preloadSize refillSize) := by
  refine (follows_simulates read).yields ⟨le_rfl,?_,0,items,rfl,yields,(by simp [newBufferedTraceReader]),rfl⟩
  show 0 < if preloadSize ≤ 0 then 100000 else preloadSize
  split <;> omega

end
end BufferedTraceReader

/-- On a stream of whole records, both readers yield the trace decoded record by record,
    whatever the sizes of their buffers: numbered from zero, and each taken branch that is
    not the last record with the address of the record after it. -/
theorem decoding_is_unbuffered (format : TraceFormat) (supported : format.Supported) (cpuID : UInt8) (file : List UInt8)
    (whole : file.length % format.instrSize = 0) (bufferSize : Nat) (sizes : 2 ≤ bufferSize) (preloadSize refillSize : Int) :
    let bulk := BulkTraceReader.newReader file .eof cpuID format bufferSize 1
    let buffered := BufferedTraceReader.newBufferedTraceReader bulk cpuID preloadSize refillSize
    let instrs := (records format.instrSize file).map (convert format cpuID)
    Yields BulkTraceReader.readInstruction .eof (decodeAll format cpuID file) bulk ∧
      Yields (BufferedTraceReader.readInstruction BulkTraceReader.readInstruction) .eof (decodeAll format cpuID file) buffered ∧
      ∀ i, (decodeAll format cpuID file)[i]? = instrs[i]?.map fun instr => located i instr instrs[i + 1]? := by
  intro bulk buffered instrs
  have yields := bulk_yields format supported cpuID file whole bufferSize sizes
  refine ⟨yields,?_,?_⟩
  · have again := BufferedTraceReader.buffered_yields yields cpuID preloadSize refillSize
    rwa [decodeAll,numberedFrom_located] at again
  · intro i
    rw [decodeAll,locatedFrom_getElem?,Nat.zero_add]

theorem decoding_is_unbuffered_two : Yields BulkTraceReader.readInstruction .eof
    (decodeAll .standard 3 (List.replicate 128 26)) (.newReader (List.replicate 128 26) .eof 3 .standard 2 1) :=
  (decoding_is_unbuffered .standard trivial 3 (List.replicate 128 26)
    (by rw [List.length_replicate]; rfl) 2 (by decide) 0 0).1

end FlowSim.Trace
