import FlowSim.Cpu.O3CPU

/-!
The loops of the stages. Each goes on in one core after the other, and what one turn of
its body keeps, the stage keeps: there is one rule for each loop, and the turns of the
stages that only move an instruction have names of their own.
-/
namespace FlowSim.Cpu
set_option linter.unusedSimpArgs false

namespace O3CPU

/-- The core after the read instruction is fetched. -/
def fetched (cpu : O3CPU) (read : TraceInstr) : O3CPU := { cpu with
  reads := cpu.reads + 1
  delivered := cpu.delivered ++ [read]
  instrCounter := cpu.instrCounter + 1
  fetchQueue := cpu.fetchQueue ++ [{ OOOModelInstr.ofTrace read with
    instrID := cpu.instrCounter
    readyTime := cpu.currentCycle + cpu.config.fetchLatency
    fetchIssued := true }] }

/-- The core after the first instruction of the fetch queue is decoded. -/
def decodedFirst (cpu : O3CPU) (instr : OOOModelInstr) (rest : List OOOModelInstr) : O3CPU := { cpu with
  decodeQueue := cpu.decodeQueue ++ [{ instr with readyTime := cpu.currentCycle + cpu.config.decodeLatency, decoded := true }]
  fetchQueue := rest }

/-- The core after the first instruction of the decode queue is dispatched. -/
def dispatchedFirst (cpu : O3CPU) (instr : OOOModelInstr) (rest : List OOOModelInstr) : O3CPU :=
  { { cpu with rob := { cpu.rob with buffer := cpu.rob.buffer ++
      [{ instr with readyTime := cpu.currentCycle + cpu.config.dispatchLatency }] } }.doMemoryScheduling instr with
    decodeQueue := rest }

variable {P : O3CPU → Prop} {cpu cpu' : O3CPU}

/-! ### Fetch, decode and dispatch -/

theorem fetchLoop_rule (ended : ∀ cpu, P cpu → cpu.traceReader cpu.reads = none → P { cpu with reads := cpu.reads + 1 })
    (each : ∀ cpu read, P cpu → cpu.traceReader cpu.reads = some read → P (cpu.fetched read)) (width : Nat) :
    ∀ {cpu : O3CPU}, P cpu → P (fetchLoop width cpu) := by
  induction width with
  | zero => exact fun holds => holds
  | succ width ih =>
    intro cpu holds
    rw [fetchLoop]
    split
    · exact holds
    split
    · next nothing => exact ended cpu holds nothing
    · next read arrived =>
      have taken := each cpu read holds arrived
      dsimp only
      split
      · exact taken
      · exact ih taken

theorem fetch_rule (ended : ∀ cpu, P cpu → cpu.traceReader cpu.reads = none → P { cpu with reads := cpu.reads + 1 })
    (each : ∀ cpu read, P cpu → cpu.traceReader cpu.reads = some read → P (cpu.fetched read)) (holds : P cpu) :
    P cpu.fetch := by
  unfold fetch
  split
  · exact holds
  split
  · exact holds
  · exact fetchLoop_rule ended each _ holds

theorem decodeLoop_rule (each : ∀ cpu instr rest, P cpu → cpu.fetchQueue = instr :: rest → P (cpu.decodedFirst instr rest))
    (width : Nat) : ∀ {cpu : O3CPU}, P cpu → P (decodeLoop width cpu) := by
  induction width with
  | zero => exact fun holds => holds
  | succ width ih =>
    intro cpu holds
    rw [decodeLoop]
    split
    · exact holds
    · next instr rest queue =>
      split
      · exact holds
      split
      · exact holds
      · exact ih (each cpu instr rest holds queue)

theorem decode_rule (each : ∀ cpu instr rest, P cpu → cpu.fetchQueue = instr :: rest → P (cpu.decodedFirst instr rest))
    (holds : P cpu) : P cpu.decode := by
  unfold decode
  split
  · exact holds
  · exact decodeLoop_rule each _ holds

theorem dispatch_rule (each : ∀ cpu instr rest, P cpu → cpu.decodeQueue = instr :: rest → P (cpu.dispatchedFirst instr rest))
    (holds : P cpu) : P cpu.dispatch := by
  unfold dispatch
  generalize cpu.config.dispatchWidth = width
  induction width generalizing cpu with
  | zero => exact holds
  | succ width ih =>
    rw [dispatchLoop]
    split
    · exact holds
    · next instr rest queue =>
      -- the guards in turn: ready, and room in the three buffers
      split
      · exact holds
      split
      · exact holds
      split
      · exact holds
      split
      · exact holds
      split
      · exact holds
      · next added =>
        obtain rfl := ReorderBuffer.eq_of_add added
        exact ih (each cpu instr rest holds queue)

/-! ### Retire, complete and execute -/

theorem retireLoop_rule (each : ∀ cpu instr rob, P cpu → cpu.rob.retire = some (instr,rob) → P ({ cpu with rob }.retireInstr instr))
    (width : Nat) : ∀ {cpu : O3CPU}, P cpu → P (retireLoop width cpu) := by
  induction width with
  | zero => exact fun holds => holds
  | succ width ih =>
    intro cpu holds
    rw [retireLoop]
    split
    · exact holds
    · next taken => exact ih (each cpu _ _ holds taken)

theorem completeLoop_rule (each : ∀ cpu i instr, P cpu → cpu.rob.peekAt i = some instr → instr.executed = true →
      instr.numMemOps ≤ instr.completedMemOps → P (cpu.doCompleteExecution i instr)) (remaining : Nat) :
    ∀ (i completeCount : Nat) {cpu : O3CPU}, P cpu → P (completeLoop remaining i completeCount cpu) := by
  induction remaining with
  | zero => exact fun _ _ _ holds => holds
  | succ remaining ih =>
    intro i completeCount cpu holds
    rw [completeLoop]
    split
    · exact holds
    split
    · exact ih _ _ holds
    · next instr found =>
      split
      · next ready =>
        simp only [Bool.and_eq_true,decide_eq_true_eq] at ready
        exact ih _ _ (each cpu i instr holds found ready.1.1.1 ready.2)
      · exact ih _ _ holds

theorem executeLoop_rule (each : ∀ cpu i instr, P cpu → cpu.rob.peekAt i = some instr → instr.scheduled = true →
      instr.executed = false → P (cpu.executeInstr i instr)) (remaining : Nat) :
    ∀ (i executeCount : Nat) {cpu : O3CPU}, P cpu → P (executeLoop remaining i executeCount cpu) := by
  induction remaining with
  | zero => exact fun _ _ _ holds => holds
  | succ remaining ih =>
    intro i executeCount cpu holds
    rw [executeLoop]
    split
    · exact holds
    split
    · exact ih _ _ holds
    · next instr found =>
      split
      · exact ih _ _ holds
      · next waiting =>
        split
        · exact ih _ _ holds
        split
        · exact ih _ _ holds
        · simp only [Bool.or_eq_true,Bool.not_eq_true',not_or,Bool.not_eq_false,Bool.not_eq_true] at waiting
          exact ih _ _ (each cpu i instr holds found waiting.1 waiting.2)

/-! ### Schedule -/

theorem doScheduling_ok {i : Nat} {instr : OOOModelInstr} (done : cpu.doScheduling i instr = .ok cpu') :
    ∃ srcRegisters between destRegisters regAlloc, renameSources instr.srcRegisters cpu.regAlloc = .ok (srcRegisters,between) ∧
      renameDests instr.instrID instr.destRegisters between = .ok (destRegisters,regAlloc) ∧
      cpu' = { cpu with regAlloc, rob := cpu.rob.set i { instr with srcRegisters, destRegisters, scheduled := true } } := by
  unfold doScheduling at done
  rcases first : renameSources instr.srcRegisters cpu.regAlloc with panic | ⟨srcRegisters,between⟩
  · rw [first] at done
    cases done
  rcases second : renameDests instr.instrID instr.destRegisters between with panic | ⟨destRegisters,regAlloc⟩
  · simp only [first,second,bind,Except.bind] at done
    cases done
  · simp only [first,second,bind,Except.bind] at done
    cases done
    exact ⟨srcRegisters,between,destRegisters,regAlloc,rfl,second,rfl⟩

/-- Scheduling that does not panic. -/
theorem scheduleLoop_rule (each : ∀ cpu i instr cpu', P cpu → cpu.rob.peekAt i = some instr →
      cpu.doScheduling i instr = .ok cpu' → P cpu') (remaining : Nat) : ∀ (i searchCount : Nat) {cpu : O3CPU}, P cpu →
    scheduleLoop remaining i searchCount cpu = .ok cpu' → P cpu' := by
  induction remaining with
  | zero =>
    intro i searchCount cpu holds done
    cases done
    exact holds
  | succ remaining ih =>
    intro i searchCount cpu holds done
    rw [scheduleLoop] at done
    split at done
    · cases done
      exact holds
    split at done
    · exact ih _ _ holds done
    · next instr found =>
      split at done
      · cases done
        exact holds
      dsimp only at done
      by_cases due : (!instr.scheduled && decide (instr.readyTime ≤ cpu.currentCycle)) = true
      · rw [if_pos due] at done
        rcases scheduled : cpu.doScheduling i instr with panic | next
        · rw [scheduled] at done
          cases done
        · rw [scheduled] at done
          exact ih _ _ (each cpu i instr next holds found scheduled) done
      · rw [if_neg due] at done
        exact ih _ _ holds done

/-- The reorder buffer is `done`, which is scheduled, followed by `waiting`, which is not
    and becomes ready in its order. -/
structure Split (cpu : O3CPU) (done waiting : List OOOModelInstr) : Prop where
  rob : cpu.rob.buffer = done ++ waiting
  scheduled : ∀ x ∈ done, x.scheduled = true
  unscheduled : ∀ x ∈ waiting, x.scheduled = false
  order : waiting.Pairwise (fun x y => x.readyTime ≤ y.readyTime)

/-- What the place `i` of the reorder buffer holds. -/
theorem Split.place {done waiting : List OOOModelInstr} (parts : Split cpu done waiting) {i : Nat} {instr : OOOModelInstr}
    (found : cpu.rob.peekAt i = some instr) :
    (i < done.length ∧ instr ∈ done) ∨ (done.length ≤ i ∧ waiting[i - done.length]? = some instr) := by
  rw [ReorderBuffer.peekAt,parts.rob] at found
  rcases Nat.lt_or_ge i done.length with old | young
  · rw [List.getElem?_append_left old] at found
    exact .inl ⟨old,List.mem_of_getElem? found⟩
  · rw [List.getElem?_append_right young] at found
    exact .inr ⟨young,found⟩

/-- The rest of the search. Once it has passed a waiting instruction, that one was not
    ready, and so the younger ones are not either. -/
theorem scheduleLoop_inOrder {P : O3CPU → List OOOModelInstr → List OOOModelInstr → Prop} {E : String → Prop}
    (parts : ∀ {cpu done waiting}, P cpu done waiting → Split cpu done waiting)
    (each : ∀ {cpu done instr rest}, P cpu done (instr :: rest) → cpu.registersNeeded instr ≤ cpu.regAlloc.availableCount →
      (∃ cpu' instr', cpu.doScheduling done.length instr = .ok cpu' ∧ P cpu' (done ++ [instr']) rest) ∨
        ∃ panic, cpu.doScheduling done.length instr = .error panic ∧ E panic) (remaining : Nat) :
    ∀ (i searchCount : Nat) {cpu : O3CPU} {done waiting : List OOOModelInstr}, P cpu done waiting →
      (done.length < i → ∀ x ∈ waiting, cpu.currentCycle < x.readyTime) →
      (∃ cpu' done' waiting', scheduleLoop remaining i searchCount cpu = .ok cpu' ∧ P cpu' done' waiting') ∨
        ∃ panic, scheduleLoop remaining i searchCount cpu = .error panic ∧ E panic := by
  induction remaining with
  | zero => exact fun _ _ _ _ _ holds _ => .inl ⟨_,_,_,rfl,holds⟩
  | succ remaining ih =>
    intro i searchCount cpu done waiting holds passed
    have split_ := parts holds
    rw [scheduleLoop]
    split
    · exact .inl ⟨_,_,_,rfl,holds⟩
    split
    · next beyond =>
      refine ih _ _ holds fun later => ?_
      rcases Nat.lt_or_ge done.length i with before | here
      · exact passed before
      · -- nothing waits
        rw [ReorderBuffer.peekAt,split_.rob,List.getElem?_eq_none_iff,List.length_append] at beyond
        have none_waits : waiting = [] := List.length_eq_zero_iff.mp (by omega)
        rw [none_waits]
        exact fun x member => absurd member List.not_mem_nil
    · next instr found =>
      split
      · exact .inl ⟨_,_,_,rfl,holds⟩
      · next enough =>
        rcases split_.place found with ⟨old,member⟩ | ⟨young,member⟩
        · simp only [split_.scheduled instr member,Bool.not_true,Bool.false_and,Bool.false_eq_true,if_false]
          exact ih _ _ holds fun later => absurd later (by omega)
        · simp only [split_.unscheduled instr (List.mem_of_getElem? member),Bool.not_false,Bool.true_and,decide_eq_true_eq]
          split
          · next ready =>
            have here : i = done.length := by
              by_contra other
              exact absurd (passed (by omega) instr (List.mem_of_getElem? member)) (Nat.not_lt.mpr ready)
            subst here
            rw [Nat.sub_self] at member
            obtain ⟨rest,rfl⟩ : ∃ rest, waiting = instr :: rest := by
              cases waiting with
              | nil => cases member
              | cons first rest => exact ⟨rest,by rw [Option.some.inj member]⟩
            rcases each holds (Nat.le_of_not_lt enough) with ⟨cpu',instr',scheduled,holds'⟩ | ⟨panic,failed,index⟩
            · rw [scheduled]
              exact ih _ _ holds' fun later => absurd later (by simp)
            · exact .inr ⟨panic,by rw [failed]; rfl,index⟩
          · next unready =>
            refine ih _ _ holds fun later => ?_
            rcases Nat.lt_or_ge done.length i with before | here
            · exact passed before
            · obtain rfl : i = done.length := by omega
              rw [Nat.sub_self] at member
              cases waiting with
              | nil => cases member
              | cons first rest =>
                obtain rfl := Option.some.inj member
                have ordered := (List.pairwise_cons.mp split_.order).1
                rw [List.forall_mem_cons]
                exact ⟨Nat.lt_of_not_le unready,fun x inside =>
                  Nat.lt_of_lt_of_le (Nat.lt_of_not_le unready) (ordered x inside)⟩

/-! ### A step -/

/-- A tick that does not panic is what it leaves. -/
theorem tick_of_step (stepped : cpu.step .tick = some cpu') : cpu.tick = .ok cpu' := by
  unfold step at stepped
  rcases ran : cpu.tick with panic | next
  · rw [ran] at stepped
    cases stepped
  · rw [ran] at stepped
    cases stepped
    rfl

end O3CPU
end FlowSim.Cpu
