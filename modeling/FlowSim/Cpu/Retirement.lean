import FlowSim.Cpu.Stages

/-!
Retirement. The instructions that have retired, followed by those in the core, are the
instructions read from the trace, in order and numbered from 0: no stage lets one
overtake another, and none is lost or doubled as long as no branch of the trace is flagged
as mispredicted.
-/
namespace FlowSim.Cpu
open FlowSim.Lib
set_option linter.unusedSimpArgs false

namespace O3CPU

/-- The instructions that the retire stage takes from the reorder buffer. -/
def retirements : Nat → O3CPU → List OOOModelInstr
  | 0, _ => []
  | width + 1, cpu =>
    match cpu.rob.retire with
    | none => []
    | some (instr,rob) => instr :: retirements width ({ cpu with rob }.retireInstr instr)

/-- The instructions that retire in a step. -/
def retiredIn (cpu : O3CPU) : Action → List OOOModelInstr
  | .tick => retirements cpu.config.retireWidth { cpu with currentCycle := cpu.currentCycle + 1 }
  | _ => []

theorem retiredIn_other {cpu : O3CPU} {action : Action} (other : action ≠ .tick) : cpu.retiredIn action = [] := by
  cases action with
  | tick => exact absurd rfl other
  | _ => rfl

/-- The instructions that retire when the actions are taken in turn. -/
def retiredAlong (cpu : O3CPU) (actions : List Action) : List OOOModelInstr :=
  (trace step cpu actions).flatMap fun taken => taken.1.retiredIn taken.2.1

end O3CPU

/-- The retired instructions and those in the core are what was read. -/
structure InOrder (traceReader : Nat → Option TraceInstr) (retired : List OOOModelInstr) (cpu : O3CPU) : Prop where
  source : cpu.traceReader = traceReader
  unflagged : ∀ n read, traceReader n = some read → read.branchMispredicted = false
  cards : (retired ++ cpu.inside).map OOOModelInstr.card = cpu.delivered.zipIdx.map fun (read,instrID) => read.card instrID
  counter : cpu.instrCounter = cpu.delivered.length
  reader : cpu.delivered = (List.range cpu.reads).filterMap traceReader

section
variable {traceReader : Nat → Option TraceInstr} {cpu cpu' : O3CPU} {retired : List OOOModelInstr}

theorem InOrder.predicted (order : InOrder traceReader retired cpu) {x : OOOModelInstr} (member : x ∈ cpu.inside) :
    x.branchMispredicted = false := by
  have card : x.card ∈ cpu.delivered.zipIdx.map fun (read,instrID) => TraceInstr.card read instrID := by
    rw [← order.cards]
    exact List.mem_map_of_mem (List.mem_append_right _ member)
  obtain ⟨⟨read,instrID⟩,inside,same⟩ := List.mem_map.mp card
  have delivered : read ∈ cpu.delivered := (List.mem_zipIdx inside).2.2 ▸ List.getElem_mem _
  rw [order.reader] at delivered
  obtain ⟨n,_,found⟩ := List.mem_filterMap.mp delivered
  rw [← order.unflagged n read found]
  exact congrArg Card.branchMispredicted same.symm

/-- What moves within the core changes nothing. -/
theorem InOrder.moved (order : InOrder traceReader retired cpu) (cards : cpu'.inside.map OOOModelInstr.card = cpu.inside.map OOOModelInstr.card)
    (trace : cpu'.traceReader = cpu.traceReader ∧ cpu'.reads = cpu.reads ∧ cpu'.delivered = cpu.delivered ∧
      cpu'.instrCounter = cpu.instrCounter) : InOrder traceReader retired cpu' := by
  obtain ⟨reader,reads,delivered,counter⟩ := trace
  refine ⟨reader.trans order.source,order.unflagged,?_,?_,?_⟩
  · rw [delivered,← order.cards,List.map_append,List.map_append,cards]
  · rw [counter,delivered]
    exact order.counter
  · rw [delivered,reads]
    exact order.reader

theorem InOrder.kept (order : InOrder traceReader retired cpu) (kept : Kept cpu cpu') : InOrder traceReader retired cpu' := by
  refine order.moved ?_ kept.trace
  rw [O3CPU.inside,O3CPU.inside,kept.queues.1,kept.queues.2,List.map_append,kept.rob,← List.map_append]

theorem retire_some {rob rest : ReorderBuffer} {instr : OOOModelInstr} (taken : rob.retire = some (instr,rest)) :
    rob.buffer = instr :: rest.buffer ∧ rest.maxSize = rob.maxSize ∧ instr.completed = true := by
  unfold ReorderBuffer.retire at taken
  split at taken
  · cases taken
  · next first others buffer =>
    split at taken
    · next completed =>
      cases taken
      exact ⟨buffer,rfl,completed⟩
    · cases taken

theorem InOrder.retireInstr (order : InOrder traceReader retired cpu) {instr : OOOModelInstr} {rob : ReorderBuffer}
    (taken : cpu.rob.retire = some (instr,rob)) : InOrder traceReader (retired ++ [instr]) ({ cpu with rob }.retireInstr instr) := by
  obtain ⟨buffer,_⟩ := retire_some taken
  have inside : cpu.inside = instr :: (rob.buffer ++ (cpu.decodeQueue ++ cpu.fetchQueue)) := by
    rw [O3CPU.inside,buffer]
    rfl
  have predicted := order.predicted (x := instr) (by rw [inside]; exact List.mem_cons_self)
  unfold O3CPU.retireInstr
  simp only [predicted,Bool.and_false,Bool.false_eq_true,if_false]
  refine { order with cards := ?_ }
  rw [← order.cards,inside]
  simp [O3CPU.inside]

theorem InOrder.retireLoop (width : Nat) : ∀ {cpu : O3CPU} {retired : List OOOModelInstr}, InOrder traceReader retired cpu →
    InOrder traceReader (retired ++ O3CPU.retirements width cpu) (O3CPU.retireLoop width cpu) := by
  induction width with
  | zero =>
    intro cpu retired order
    rw [O3CPU.retirements,O3CPU.retireLoop,List.append_nil]
    exact order
  | succ width ih =>
    intro cpu retired order
    rw [O3CPU.retirements,O3CPU.retireLoop]
    rcases taken : cpu.rob.retire with _ | ⟨instr,rob⟩
    · rw [List.append_nil]
      exact order
    · have next := ih (order.retireInstr taken)
      rwa [List.append_assoc] at next

theorem InOrder.dispatch (order : InOrder traceReader retired cpu) : InOrder traceReader retired cpu.dispatch := by
  refine O3CPU.dispatch_rule (fun cpu instr rest order queue => order.moved ?_ ⟨rfl,rfl,rfl,rfl⟩) order
  show (cpu.rob.buffer ++ [_] ++ (rest ++ cpu.fetchQueue)).map _ = _
  rw [O3CPU.inside,queue]
  simp [OOOModelInstr.card]

theorem InOrder.decode (order : InOrder traceReader retired cpu) : InOrder traceReader retired cpu.decode := by
  refine O3CPU.decode_rule (fun cpu instr rest order queue => order.moved ?_ ⟨rfl,rfl,rfl,rfl⟩) order
  show (cpu.rob.buffer ++ (cpu.decodeQueue ++ [_] ++ rest)).map _ = _
  rw [O3CPU.inside,queue]
  simp [OOOModelInstr.card]

theorem InOrder.fetched (order : InOrder traceReader retired cpu) {read : TraceInstr}
    (arrived : cpu.traceReader cpu.reads = some read) : InOrder traceReader retired (cpu.fetched read) := by
  let instr := { OOOModelInstr.ofTrace read with
    instrID := cpu.instrCounter
    readyTime := cpu.currentCycle + cpu.config.fetchLatency
    fetchIssued := true }
  refine ⟨order.source,order.unflagged,?_,?_,?_⟩
  · show (retired ++ (cpu.rob.buffer ++ (cpu.decodeQueue ++ (cpu.fetchQueue ++ [instr])))).map _ = (cpu.delivered ++ [read]).zipIdx.map _
    have same : retired ++ (cpu.rob.buffer ++ (cpu.decodeQueue ++ (cpu.fetchQueue ++ [instr]))) =
        retired ++ cpu.inside ++ [instr] := by simp [O3CPU.inside]
    rw [same,List.map_append,order.cards,List.zipIdx_append,List.map_append]
    simp [instr,OOOModelInstr.card,OOOModelInstr.ofTrace,TraceInstr.card,order.counter]
  · simp [O3CPU.fetched,order.counter]
  · simp only [O3CPU.fetched,List.range_succ,List.filterMap_append,← order.reader]
    simp [← order.source,arrived]

/-- Fetching appends what the reads of the trace return. -/
theorem InOrder.fetch (order : InOrder traceReader retired cpu) : InOrder traceReader retired cpu.fetch := by
  refine O3CPU.fetch_rule (fun cpu order ended => { order with reader := ?_ }) (fun _ _ order arrived => order.fetched arrived) order
  simp only [List.range_succ,List.filterMap_append,← order.reader]
  simp [← order.source,ended]

/-- One step. -/
theorem InOrder.step (order : InOrder traceReader retired cpu) {action : O3CPU.Action} (stepped : cpu.step action = some cpu') :
    InOrder traceReader (retired ++ cpu.retiredIn action) cpu' := by
  cases action with
  | tick =>
    obtain ⟨mid,kept,rfl⟩ := tick_stages (O3CPU.tick_of_step stepped)
    have begun : InOrder traceReader retired { cpu with currentCycle := cpu.currentCycle + 1 } := { order with }
    have retiring := (begun.retireLoop cpu.config.retireWidth).kept kept
    exact retiring.dispatch.decode.fetch
  | fetch =>
    cases stepped
    rw [O3CPU.retiredIn_other (by simp),List.append_nil]
    exact order.fetch
  | handleLoadResponse instrID cycle =>
    cases stepped
    rw [O3CPU.retiredIn_other (by simp),List.append_nil]
    exact order.kept (kept_handleLoadResponse ..)
  | handleStoreResponse instrID cycle =>
    cases stepped
    rw [O3CPU.retiredIn_other (by simp),List.append_nil]
    exact order.kept (kept_handleStoreResponse ..)
  | setStandaloneMode standalone =>
    cases stepped
    rw [O3CPU.retiredIn_other (by simp),List.append_nil]
    exact { order with }
  | setL1DCache cache =>
    cases stepped
    rw [O3CPU.retiredIn_other (by simp),List.append_nil]
    exact { order with }

/-- A run. -/
theorem InOrder.run : ∀ (actions : List O3CPU.Action) {cpu cpu' : O3CPU} {retired : List OOOModelInstr}, InOrder traceReader retired cpu →
    runActions O3CPU.step (fun _ _ => True) actions cpu = some cpu' → InOrder traceReader (retired ++ cpu.retiredAlong actions) cpu'
  | [], cpu, cpu', retired, order, ran => by
    cases ran
    rw [O3CPU.retiredAlong,trace,List.flatMap_nil,List.append_nil]
    exact order
  | action :: rest, cpu, cpu', retired, order, ran => by
    rw [runActions,if_pos trivial] at ran
    obtain ⟨next,stepped,ran'⟩ := Option.bind_eq_some_iff.mp ran
    have later := InOrder.run rest (order.step stepped) ran'
    rw [O3CPU.retiredAlong,trace,stepped,List.flatMap_cons]
    rwa [List.append_assoc] at later

theorem inOrder_new (config : O3CPUConfig)
    (unflagged : ∀ n read, traceReader n = some read → read.branchMispredicted = false) :
    InOrder traceReader [] (.newO3CPU traceReader config) where
  source := rfl
  unflagged := unflagged
  cards := rfl
  counter := rfl
  reader := rfl

/-- Instructions retire in the order of the trace, numbered from 0, and those in the core
    are the instructions read that have not retired, oldest first. -/
theorem retires_in_order {config : O3CPUConfig}
    (unflagged : ∀ n read, traceReader n = some read → read.branchMispredicted = false) (actions : List O3CPU.Action)
    {cpu : O3CPU} (ran : runActions O3CPU.step (fun _ _ => True) actions (.newO3CPU traceReader config) = some cpu) :
    let retired := (O3CPU.newO3CPU traceReader config).retiredAlong actions
    retired.map OOOModelInstr.instrID = List.range retired.length ∧
      (retired ++ cpu.inside).map OOOModelInstr.tag = cpu.delivered.zipIdx ∧
      cpu.delivered = (List.range cpu.reads).filterMap traceReader := by
  intro retired
  have order := (inOrder_new config unflagged).run actions ran
  rw [List.nil_append] at order
  have tags : (retired ++ cpu.inside).map OOOModelInstr.tag = cpu.delivered.zipIdx := by
    have cards := congrArg (List.map fun card : Card => (card.original,card.instrID)) order.cards
    rw [List.map_map,List.map_map] at cards
    exact cards.trans (List.map_id _)
  refine ⟨?_,tags,?_⟩
  · have ids := congrArg (fun tags => (tags.map Prod.snd).take retired.length) tags
    simp only [List.map_append,List.map_map,List.zipIdx_map_snd] at ids
    have within : retired.length ≤ cpu.delivered.length := by
      have lengths := congrArg List.length tags
      rw [List.length_map,List.length_append,List.length_zipIdx] at lengths
      omega
    rw [List.take_left' (by simp),List.take_range'_of_length_ge within] at ids
    rw [List.range_eq_range']
    exact ids
  · exact order.reader

theorem pairRetired_isSome : (runActions O3CPU.step (fun _ _ => True) (List.replicate 10 .tick)
    (.newO3CPU dependentPair defaultO3CPUConfig)).isSome = true := by decide +kernel

/-- Two instructions retire one after the other. -/
theorem retires_in_order_pair : ∃ cpu : O3CPU,
    let retired := (O3CPU.newO3CPU dependentPair defaultO3CPUConfig).retiredAlong (List.replicate 10 .tick)
    retired.length = 2 ∧ retired.map OOOModelInstr.instrID = List.range retired.length ∧
      (retired ++ cpu.inside).map OOOModelInstr.tag = cpu.delivered.zipIdx ∧
      cpu.delivered = (List.range cpu.reads).filterMap dependentPair :=
  ⟨_,by decide +kernel,retires_in_order dependentPair_unflagged _ (Option.some_get pairRetired_isSome).symm⟩

end
end FlowSim.Cpu
