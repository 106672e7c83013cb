import FlowSim.Node.Environment

/-!
The chunks in which time is advanced. Output queues are ticked ahead of the handler up
to the target of an `AdvanceTo`, so how full an injection finds its queue can depend on
the targets. `Line` is an output queue that is served one cycle at a time; a run follows
it as long as every injection gets the same answer, and exactly the injections that are
`Premature` need not.
-/
namespace FlowSim.Node
open FlowSim.Lib FlowSim.AheadPort FlowSim.Queue
set_option linter.unusedSimpArgs false

/-! ### A queue served one cycle at a time -/

/-- An output queue with the receiver's readiness, and the batches that are injected in
    each cycle. -/
structure Line where
  capacity : Nat
  bandwidth : Nat
  ready : Nat → Bool
  batches : Nat → List (List Packet)

/-- A batch is taken as a whole or not at all. -/
def offer (capacity : Nat) (waiting pkts : List Packet) : List Packet :=
  if waiting.length + pkts.length ≤ capacity then waiting ++ pkts else waiting

def offerAll (capacity : Nat) (waiting : List Packet) (batches : List (List Packet)) : List Packet :=
  batches.foldl (offer capacity) waiting

/-- Which batches are taken. -/
def accepted (capacity : Nat) : (waiting : List Packet) → List (List Packet) → List Bool
  | _, [] => []
  | waiting, pkts :: rest =>
    decide (waiting.length + pkts.length ≤ capacity) :: accepted capacity (offer capacity waiting pkts) rest

namespace Line

/-- What waits at the start of a cycle. -/
def waitingAt (line : Line) (start : List Packet) : Nat → List Packet
  | 0 => start
  | cycle + 1 =>
    (offerAll line.capacity (line.waitingAt start cycle) (line.batches cycle)).drop (quota (line.ready cycle) line.bandwidth)

def sentIn (line : Line) (start : List Packet) (cycle : Nat) : List (Nat × Packet) :=
  ((offerAll line.capacity (line.waitingAt start cycle) (line.batches cycle)).take
    (quota (line.ready cycle) line.bandwidth)).map (cycle,·)

def sentBefore (line : Line) (start : List Packet) : Nat → List (Nat × Packet)
  | 0 => []
  | cycle + 1 => line.sentBefore start cycle ++ line.sentIn start cycle

/-- Some batch does not fit, and would fit if `held` fewer packets were waiting. -/
def Blocked (capacity held : Nat) (waiting : List Packet) (batches : List (List Packet)) : Prop :=
  ∃ before pkts after, batches = before ++ pkts :: after ∧ capacity < (offerAll capacity waiting before).length + pkts.length ∧
    (offerAll capacity waiting before).length - held + pkts.length ≤ capacity

/-- In a cycle after the first, some batch does not fit, and would fit if the packets
    were gone that the queue sends at full bandwidth from this cycle to the target. -/
def Premature (line : Line) (start : List Packet) (target cycle : Nat) : Prop :=
  0 < cycle ∧ cycle ≤ target ∧
    Blocked line.capacity (sentAhead line.ready line.bandwidth (target + 1 - cycle) cycle (line.waitingAt start cycle).length)
      (line.waitingAt start cycle) (line.batches cycle)

theorem Blocked.mono {capacity held more : Nat} {waiting : List Packet} {batches : List (List Packet)} (le : held ≤ more)
    (blocked : Blocked capacity held waiting batches) : Blocked capacity more waiting batches := by
  obtain ⟨before,pkts,after,split,full,fits⟩ := blocked
  exact ⟨before,pkts,after,split,full,by omega⟩

theorem not_blocked_zero {capacity : Nat} {waiting : List Packet} {batches : List (List Packet)} :
    ¬ Blocked capacity 0 waiting batches := by
  rintro ⟨before,pkts,after,_,full,fits⟩
  omega

theorem blocked_nil {capacity held : Nat} {waiting : List Packet} : ¬ Blocked capacity held waiting [] := by
  rintro ⟨before,pkts,after,split,_⟩
  simp at split

theorem blocked_cons {capacity held : Nat} {waiting pkts : List Packet} {rest : List (List Packet)} :
    Blocked capacity held waiting (pkts :: rest) ↔
      capacity < waiting.length + pkts.length ∧ waiting.length - held + pkts.length ≤ capacity ∨
        Blocked capacity held (offer capacity waiting pkts) rest := by
  constructor
  · rintro ⟨before,batch,after,split,full,fits⟩
    cases before with
    | nil =>
      obtain ⟨rfl,rfl⟩ := List.cons.inj split
      exact .inl ⟨full,fits⟩
    | cons first before =>
      obtain ⟨rfl,rfl⟩ := List.cons.inj split
      exact .inr ⟨before,batch,after,rfl,full,fits⟩
  · rintro (⟨full,fits⟩ | ⟨before,batch,after,rfl,full,fits⟩)
    · exact ⟨[],pkts,rest,rfl,full,fits⟩
    · exact ⟨pkts :: before,batch,after,rfl,full,fits⟩

end Line

/-! ### Injections into a queue -/

/-- A call of `InjectPackets` on an output queue of the node. -/
structure InjectCall where
  output : Nat
  cycle : Nat
  pkts : List Packet
deriving DecidableEq, Repr

/-- The answers to the calls, and the queue after them. -/
def injectAll (oq : OutputQueue) : List InjectCall → List Bool × OutputQueue
  | [] => ([],oq)
  | call :: rest =>
    let (error,oq) := oq.injectPackets call.cycle call.pkts
    let (answers,oq) := injectAll oq rest
    (error.isNone :: answers,oq)

theorem isNone_injectPackets (oq : OutputQueue) (cycle : Nat) (pkts : List Packet) :
    (oq.injectPackets cycle pkts).1.isNone = decide (oq.packets.length + pkts.length ≤ oq.capacity) := by
  have within : oq.count ≤ oq.capacity := oq.count_le
  rw [oq.length_packets]
  unfold OutputQueue.injectPackets
  split
  · next empty => simp [empty,within]
  · split
    · next room => simp [room]
    · next full => simp [full]

theorem packets_injectPackets (oq : OutputQueue) (cycle : Nat) (pkts : List Packet) :
    (oq.injectPackets cycle pkts).2.packets = offer oq.capacity oq.packets pkts := by
  unfold offer
  rw [oq.length_packets]
  split
  · next room => exact OutputQueue.injectPackets_fits cycle room
  · next full => rw [OutputQueue.injectPackets_full cycle full]

/-- A batch that fits finds the same place whether or not some packets have been sent. -/
theorem offer_append {capacity : Nat} {pre waiting pkts : List Packet}
    (same : waiting.length + pkts.length ≤ capacity → pre.length + waiting.length + pkts.length ≤ capacity) :
    offer capacity (pre ++ waiting) pkts = pre ++ offer capacity waiting pkts := by
  unfold offer
  rw [List.length_append]
  by_cases room : waiting.length + pkts.length ≤ capacity
  · rw [if_pos room,if_pos (same room),List.append_assoc]
  · rw [if_neg room,if_neg (by omega)]

/-- The queue after its injections, when it has sent the packets `pre` ahead of time: the
    answers are those of the queue that still holds them unless a batch is blocked. -/
theorem injectAll_spec (pre : List Packet) : ∀ (calls : List InjectCall) (oq : OutputQueue),
    (injectAll oq calls).2.capacity = oq.capacity ∧ (injectAll oq calls).2.outBandwidth = oq.outBandwidth ∧
    ((injectAll oq calls).1 = accepted oq.capacity (pre ++ oq.packets) (calls.map InjectCall.pkts) ↔
      ¬ Line.Blocked oq.capacity pre.length (pre ++ oq.packets) (calls.map InjectCall.pkts)) ∧
    (¬ Line.Blocked oq.capacity pre.length (pre ++ oq.packets) (calls.map InjectCall.pkts) →
      offerAll oq.capacity (pre ++ oq.packets) (calls.map InjectCall.pkts) = pre ++ (injectAll oq calls).2.packets)
  | [], oq => ⟨rfl,rfl,⟨fun _ => Line.blocked_nil,fun _ => rfl⟩,fun _ => rfl⟩
  | call :: rest, oq => by
    obtain ⟨capacity,bandwidth,answers,packets⟩ := injectAll_spec pre rest (oq.injectPackets call.cycle call.pkts).2
    rw [OutputQueue.capacity_injectPackets] at capacity answers packets
    rw [OutputQueue.outBandwidth_injectPackets] at bandwidth
    rw [packets_injectPackets] at answers packets
    have head : (injectAll oq (call :: rest)).1 = decide (oq.packets.length + call.pkts.length ≤ oq.capacity) ::
        (injectAll (oq.injectPackets call.cycle call.pkts).2 rest).1 := by
      rw [← isNone_injectPackets oq call.cycle call.pkts]
      rfl
    refine ⟨capacity,bandwidth,?_,?_⟩
    · rw [head,List.map_cons,accepted,List.cons.injEq,Line.blocked_cons,List.length_append,Nat.add_sub_cancel_left]
      by_cases same : oq.packets.length + call.pkts.length ≤ oq.capacity →
          pre.length + oq.packets.length + call.pkts.length ≤ oq.capacity
      · have open_head : ¬ (oq.capacity < pre.length + oq.packets.length + call.pkts.length ∧
            oq.packets.length + call.pkts.length ≤ oq.capacity) := by omega
        have answer : decide (oq.packets.length + call.pkts.length ≤ oq.capacity) =
            decide (pre.length + oq.packets.length + call.pkts.length ≤ oq.capacity) :=
          decide_eq_decide.mpr ⟨same,by omega⟩
        rw [offer_append same,or_iff_right open_head,← answers]
        exact and_iff_right answer
      · have blocked : oq.capacity < pre.length + oq.packets.length + call.pkts.length ∧
            oq.packets.length + call.pkts.length ≤ oq.capacity := by omega
        have answer : decide (oq.packets.length + call.pkts.length ≤ oq.capacity) ≠
            decide (pre.length + oq.packets.length + call.pkts.length ≤ oq.capacity) := by
          rw [decide_eq_true blocked.2,decide_eq_false (Nat.not_le.mpr blocked.1)]
          exact Bool.true_eq_false.mp
        exact iff_of_false (fun both => answer both.1) (fun none => none (.inl blocked))
    · intro unblocked
      rw [List.map_cons,Line.blocked_cons,List.length_append,Nat.add_sub_cancel_left] at unblocked
      have same : oq.packets.length + call.pkts.length ≤ oq.capacity →
          pre.length + oq.packets.length + call.pkts.length ≤ oq.capacity := by
        intro room
        exact Nat.not_lt.mp fun full => unblocked (.inl ⟨full,room⟩)
      rw [offer_append same] at unblocked
      rw [List.map_cons,offerAll,List.foldl_cons,offer_append same]
      exact packets fun later => unblocked (.inr later)

/-! ### A queue that is ahead -/

/-- A queue at the start of a cycle, ahead of its line by the packets `pre`. -/
structure InStep (line : Line) (start : List Packet) (target cycle : Nat) (oq : OutputQueue) (ahead : Nat)
    (pre : List (Nat × Packet)) : Prop where
  capacity : oq.capacity = line.capacity
  outBandwidth : oq.outBandwidth = line.bandwidth
  waiting : line.waitingAt start cycle = pre.map Prod.snd ++ oq.packets
  bursts : Bursts line.ready line.bandwidth cycle (max cycle ahead) pre
  within : ahead ≤ target + 1

section
variable {line : Line} {start : List Packet} {target cycle ahead ahead' : Nat} {oq oq' : OutputQueue}
  {pre sent : List (Nat × Packet)} {calls : List InjectCall}

theorem Bursts.at_end {ready : Nat → Bool} {bandwidth : Nat} (bursts : Bursts ready bandwidth cycle cycle pre) : pre = [] := by
  generalize last_eq : cycle = last at bursts
  cases bursts with
  | none => rfl
  | skip unready rest =>
    have order := rest.le
    omega
  | burst pkts isReady full rest =>
    have order := rest.le
    omega

/-- What was sent ahead for the cycle is what the line sends in it; the rest stays ahead. -/
theorem Bursts.split {ready : Nat → Bool} {bandwidth last : Nat} (bursts : Bursts ready bandwidth cycle last pre) (order : cycle < last) :
    ∃ (pkts : List Packet) (later : List (Nat × Packet)),
      pre = pkts.map (cycle,·) ++ later ∧ pkts.length = quota (ready cycle) bandwidth ∧
      Bursts ready bandwidth (cycle + 1) last later := by
  cases bursts with
  | none => omega
  | skip unready rest => exact ⟨[],pre,rfl,by rw [quota,unready]; rfl,rest⟩
  | burst pkts isReady full rest => exact ⟨pkts,_,rfl,by rw [quota,if_pos isReady,full],rest⟩

/-- A cycle in which no batch is blocked by the packets sent ahead. -/
theorem InStep.step (inStep : InStep line start target cycle oq ahead pre)
    (batches : line.batches cycle = calls.map InjectCall.pkts)
    (unblocked : ¬ Line.Blocked line.capacity pre.length (line.waitingAt start cycle) (line.batches cycle))
    {last : Nat} (within : last ≤ target) (reached : cycle ≤ last)
    (ticked : Ticked line.ready cycle last (injectAll oq calls).2 ahead oq' ahead' sent) :
    ∃ pre', InStep line start target (cycle + 1) oq' ahead' pre' ∧ pre ++ sent = line.sentIn start cycle ++ pre' ∧
      ahead' ≤ max ahead (last + 1) ∧ (ahead' = max ahead (last + 1) ∨ oq'.packets.length < line.bandwidth) := by
  obtain ⟨capacity,bandwidth,_,packets⟩ := injectAll_spec (pre.map Prod.snd) calls oq
  rw [inStep.capacity,List.length_map,← inStep.waiting,← batches] at packets
  have here := packets unblocked
  obtain ⟨mid,more,first,rfl,rest⟩ := ticked
  rw [bandwidth,inStep.outBandwidth] at first ⊢
  have start_le := rest.bursts.le
  have limit := rest.within
  have settings : oq'.capacity = line.capacity ∧ oq'.outBandwidth = line.bandwidth ∧ mid.outBandwidth = line.bandwidth := by
    refine ⟨?_,?_,?_⟩
    · rw [rest.capacity,first.capacity,capacity,inStep.capacity]
    · rw [rest.outBandwidth,first.outBandwidth,bandwidth,inStep.outBandwidth]
    · rw [first.outBandwidth,bandwidth,inStep.outBandwidth]
  have drained := rest.drained
  rw [settings.2.2] at drained
  have bursts := rest.bursts
  rw [settings.2.2] at bursts
  have ended : max (cycle + 1) ahead' = ahead' := by omega
  have inside : ahead' ≤ target + 1 := by
    have ahead_le := inStep.within
    omega
  by_cases behind : ahead ≤ cycle
  · -- nothing was sent ahead: the queue is the line
    have none_ahead := inStep.bursts
    rw [Nat.max_eq_left behind] at none_ahead
    obtain rfl := none_ahead.at_end
    rw [if_pos behind] at first ⊢
    rw [Nat.max_eq_left (by omega : ahead ≤ cycle + 1)] at bursts
    refine ⟨more,⟨settings.1,settings.2.1,?_,by rwa [ended],inside⟩,?_,limit,drained⟩
    · rw [Line.waitingAt,here,List.map_nil,List.nil_append,← first.packets,rest.packets]
    · rw [Line.sentIn,here]
      rfl
  · -- the cycle's packets are at the front of what was sent ahead
    rw [if_neg behind] at first ⊢
    have some_ahead := inStep.bursts
    rw [Nat.max_eq_right (by omega : cycle ≤ ahead)] at some_ahead
    obtain ⟨pkts,later,rfl,count,bursts'⟩ := some_ahead.split (by omega)
    rw [Nat.max_eq_right (by omega : cycle + 1 ≤ ahead)] at bursts
    have front : (pkts.map (cycle,·) ++ later).map Prod.snd = pkts ++ later.map Prod.snd := by simp [Function.comp_def]
    have unsent : mid.packets = (injectAll oq calls).2.packets := first.packets
    rw [front,List.append_assoc] at here
    refine ⟨later ++ more,⟨settings.1,settings.2.1,?_,?_,inside⟩,?_,limit,drained⟩
    · rw [Line.waitingAt,here,← count,List.drop_left,← unsent,rest.packets,List.map_append,List.append_assoc]
    · rw [ended]
      exact bursts'.trans bursts
    · rw [Line.sentIn,here,← count,List.take_left]
      simp

end
/-! ### The calls of a handler -/

/-- A call of `InjectPackets` and whether it was accepted. -/
abbrev CallLog := Nat → List (InjectCall × Bool)

def callOf : (op : NodeOp) → op.Resp → List (InjectCall × Bool)
  | .injectPackets output cycle pkts, error => [(⟨output,cycle,pkts⟩,error.isNone)]
  | .queues, _ => []
  | .free _ _, _ => []
  | .block _ _ _, _ => []

/-- A program together with the injections it makes. -/
def recorded {α : Type} : Prog nodeInterface α → Prog nodeInterface (α × List (InjectCall × Bool))
  | .done value => .done (value,[])
  | .call op next => .call op fun answer => do
    let (value,calls) ← recorded (next answer)
    return (value,callOf op answer ++ calls)

/-- A handler that also keeps a log of its injections, cycle by cycle. -/
def observed {σ : Type} (handler : Handler σ) : Handler (σ × CallLog) := fun cycle state refs => do
  let ((error,next),calls) ← recorded (handler cycle state.1 refs)
  return (error,next,Function.update state.2 cycle calls)

def callsOn (queue : Nat) (calls : List (InjectCall × Bool)) : List InjectCall :=
  (calls.map Prod.fst).filter (fun call => call.output = queue)

/-- The answers to the calls on a queue. -/
def answersOn (queue : Nat) (calls : List (InjectCall × Bool)) : List Bool :=
  (calls.filter (fun call => call.1.output = queue)).map Prod.snd

section
variable {α : Type} {queue : Nat}

/-- What an operation does to an output queue is to inject the recorded call. -/
theorem exec_output {qs : Queues} {oq : OutputQueue} (op : NodeOp) (found : qs.outputs[queue]? = some oq) :
    (qs.exec op).2.outputs[queue]? = some (injectAll oq (callsOn queue (callOf op (qs.exec op).1))).2 ∧
      answersOn queue (callOf op (qs.exec op).1) = (injectAll oq (callsOn queue (callOf op (qs.exec op).1))).1 := by
  cases op with
  | queues => exact ⟨found,rfl⟩
  | free queue slot => exact ⟨found,rfl⟩
  | block queue slot reason => exact ⟨found,rfl⟩
  | injectPackets output cycle pkts =>
    simp only [Queues.exec,Queues.injectPackets]
    by_cases same : output = queue
    · subst same
      obtain ⟨inside,rfl⟩ := List.getElem?_eq_some_iff.mp found
      simp [inside,callOf,callsOn,answersOn,injectAll]
    · cases other : qs.outputs[output]? with
      | none => simp [found,same,callOf,callsOn,answersOn,injectAll]
      | some oq' => simp [found,same,callOf,callsOn,answersOn,injectAll,List.getElem?_set_ne same]

theorem injectAll_append (oq : OutputQueue) (before after : List InjectCall) :
    injectAll oq (before ++ after) = ((injectAll oq before).1 ++ (injectAll (injectAll oq before).2 after).1,
      (injectAll (injectAll oq before).2 after).2) := by
  induction before generalizing oq with
  | nil => rfl
  | cons call rest ih => simp [injectAll,ih]

/-- An output queue after a handler's program. -/
theorem runOn_recorded (p : Prog nodeInterface α) : ∀ {qs : Queues} {oq : OutputQueue}, qs.outputs[queue]? = some oq →
    (runOn (recorded p) qs).2.outputs[queue]? = some (injectAll oq (callsOn queue (runOn (recorded p) qs).1.2)).2 ∧
      answersOn queue (runOn (recorded p) qs).1.2 = (injectAll oq (callsOn queue (runOn (recorded p) qs).1.2)).1 := by
  induction p with
  | done value => exact fun {qs oq} found => ⟨found,rfl⟩
  | call op next ih =>
    intro qs oq found
    obtain ⟨here,answers⟩ := exec_output op found
    obtain ⟨later,answers'⟩ := ih (qs.exec op).1 here
    rw [recorded,runOn_call,runOn_bind]
    simp only [Prog.pure_eq,runOn_pure]
    have split : callsOn queue (callOf op (qs.exec op).1 ++ (runOn (recorded (next (qs.exec op).1)) (qs.exec op).2).1.2) =
        callsOn queue (callOf op (qs.exec op).1) ++ callsOn queue (runOn (recorded (next (qs.exec op).1)) (qs.exec op).2).1.2 := by
      simp [callsOn]
    rw [split,injectAll_append]
    refine ⟨later,?_⟩
    rw [← answers',← answers]
    simp [answersOn]

end
/-! ### Runs -/

namespace BaseNode
variable {σ : Type} {env : Environment} {sortSlice : SliceSort}

/-- A cycle that goes well: the packets received, the handler's work and the output queues. -/
theorem run_tick {handler : Handler σ} {n n' : BaseNode σ} {cycle : Nat}
    (fine : (inEnvironment env (n.tick handler sortSlice cycle)).1 = (none,n')) :
    ∃ inputs refs queues, runOn (handler cycle n.state refs) { n.queues with inputs } = ((none,n'.state),queues) ∧
      n'.currentCycle = n.currentCycle ∧ n'.connected = n.connected ∧ n'.advanceTarget = n.advanceTarget ∧
      (n'.queues.outputs,n'.outputQueueAhead) = (inEnvironment env (tickOutputQueues n.connected cycle n.advanceTarget 0
        queues.outputs n.outputQueueAhead)).1 ∧
      ∀ queue, sends queue (inEnvironment env (n.tick handler sortSlice cycle)).2 = sends queue (inEnvironment env
        (tickOutputQueues n.connected cycle n.advanceTarget 0 queues.outputs n.outputQueueAhead)).2 := by
  have silent := fun queue => @sends_tickInputQueues env queue cycle sortSlice n.connected
    n.queues.inputs 0
  rw [tick,inEnvironment_bind] at fine ⊢
  generalize inEnvironment env (tickInputQueues sortSlice n.connected cycle 0 n.queues.inputs) = received at fine silent ⊢
  rcases received with ⟨⟨error | error,inputs,refs⟩,log⟩
  · simp only at fine silent ⊢
    generalize worked : runOn (handler cycle n.state refs) { n.queues with inputs } = work at fine ⊢
    rcases work with ⟨⟨error | error,state⟩,queues⟩
    · simp only [inEnvironment_bind,Prog.pure_eq,inEnvironment_done,sends_append,silent,List.nil_append,sends_nil,
        List.append_nil] at fine ⊢
      obtain rfl := (Prod.mk.inj fine).2
      exact ⟨inputs,refs,queues,worked,rfl,rfl,rfl,rfl,fun _ => rfl⟩
    · cases (Prod.mk.inj fine).1
  · cases (Prod.mk.inj fine).1

/-- What nodes are reached in cycles that go well, from a node at cycle 0; the target a
    cycle may be ticked for is given by `allowed`. -/
inductive Reached (env : Environment) (handler : Handler σ) (sortSlice : SliceSort) (allowed : Nat → Nat → Prop) (start : BaseNode σ) :
    BaseNode σ → Log → Prop where
  | start : Reached env handler sortSlice allowed start start []
  | aim {n : BaseNode σ} {log : Log} (before : Reached env handler sortSlice allowed start n log) (target : Nat) :
      Reached env handler sortSlice allowed start { n with advanceTarget := target } log
  | cycle {n n' : BaseNode σ} {log : Log} (before : Reached env handler sortSlice allowed start n log)
      (allow : allowed n.currentCycle n.advanceTarget)
      (fine : (inEnvironment env (n.tick handler sortSlice n.currentCycle)).1 = (none,n')) :
      Reached env handler sortSlice allowed start { n' with currentCycle := n'.currentCycle + 1 }
        (log ++ (inEnvironment env (n.tick handler sortSlice n.currentCycle)).2)

/-- The steps from a cycle on through the targets are allowed. -/
def Steps (allowed : Nat → Nat → Prop) : Nat → List Nat → Prop
  | _, [] => True
  | cycle, target :: rest =>
    cycle ≤ target ∧ (∀ c, cycle ≤ c → c ≤ target → allowed c target) ∧ Steps allowed (target + 1) rest

section
variable {handler : Handler σ} {allowed : Nat → Nat → Prop} {start : BaseNode σ}

theorem reached_advanceLoop : ∀ (remaining : Nat) {n n' : BaseNode σ} {log : Log},
    Reached env handler sortSlice allowed start n log →
    (∀ c, n.currentCycle ≤ c → c < n.currentCycle + remaining → allowed c n.advanceTarget) →
    (inEnvironment env (advanceLoop handler sortSlice remaining n)).1 = (none,n') →
      Reached env handler sortSlice allowed start n' (log ++ (inEnvironment env (advanceLoop handler sortSlice remaining n)).2) ∧
        n'.currentCycle = n.currentCycle + remaining
  | 0, n, n', log, reached, _, fine => by
    obtain rfl := (Prod.mk.inj fine).2
    simpa [advanceLoop] using reached
  | remaining + 1, n, n', log, reached, allow, fine => by
    rw [advanceLoop,inEnvironment_bind] at fine ⊢
    rcases ticked : (inEnvironment env (tick handler sortSlice n n.currentCycle)).1 with ⟨error | error,mid⟩
    · simp only [ticked] at fine ⊢
      have next := reached.cycle (allow n.currentCycle (Nat.le_refl _) (by omega)) ticked
      obtain ⟨_,_,_,_,clock,_,aim,_⟩ := run_tick ticked
      obtain ⟨later,ended⟩ := reached_advanceLoop remaining next
        (fun c from_c below => by
          simp only [clock] at from_c below
          rw [aim]
          exact allow c (by omega) (by omega)) fine
      refine ⟨?_,?_⟩
      · rw [← List.append_assoc]
        exact later
      · rw [ended]
        simp only [clock]
        omega
    · rw [ticked] at fine
      cases (Prod.mk.inj fine).1

theorem reached_advanceThrough : ∀ (targets : List Nat) {n n' : BaseNode σ} {log : Log},
    Reached env handler sortSlice allowed start n log → Steps allowed n.currentCycle targets →
    (inEnvironment env (advanceThrough handler sortSlice targets n)).1 = (none,n') →
      Reached env handler sortSlice allowed start n' (log ++ (inEnvironment env (advanceThrough handler sortSlice targets n)).2) ∧
        ∀ last ∈ targets.getLast?, n'.currentCycle = last + 1
  | [], n, n', log, reached, _, fine => by
    obtain rfl := (Prod.mk.inj fine).2
    simpa [advanceThrough] using reached
  | target :: rest, n, n', log, reached, ⟨ahead,allow,later⟩, fine => by
    rw [advanceThrough,advanceTo,if_neg (Nat.not_lt.mpr ahead),inEnvironment_bind] at fine ⊢
    rcases advanced : (inEnvironment env (advanceLoop handler sortSlice (target + 1 - n.currentCycle)
      { n with advanceTarget := target })).1 with ⟨error | error,mid⟩
    · simp only [advanced] at fine ⊢
      obtain ⟨first,clock⟩ := reached_advanceLoop _ (reached.aim target)
        (fun c from_c below => allow c from_c (by simp at below; omega)) advanced
      have now : mid.currentCycle = target + 1 := by
        rw [clock]
        simp only
        omega
      obtain ⟨second,ended⟩ := reached_advanceThrough rest first (by rw [now]; exact later) fine
      refine ⟨?_,?_⟩
      · rw [← List.append_assoc]
        exact second
      · cases rest with
        | nil =>
          obtain rfl := (Prod.mk.inj fine).2
          simpa using now
        | cons next rest =>
          rw [List.getLast?_cons_cons]
          exact ended
    · rw [advanced] at fine
      cases (Prod.mk.inj fine).1

end

end BaseNode
/-! ### Runs follow the line -/

section
variable {σ : Type} {env : Environment} {sortSlice : SliceSort} {handler : Handler σ} {queue : Nat}

/-- The handler's work in a cycle: its calls are logged, and nothing else reaches the
    output queues before they are ticked. -/
theorem tick_work {n n' : BaseNode (σ × CallLog)} {cycle : Nat}
    (fine : (inEnvironment env (n.tick (observed handler) sortSlice cycle)).1 = (none,n')) :
    ∃ outputs calls, n'.state.2 = Function.update n.state.2 cycle calls ∧
      (n'.queues.outputs,n'.outputQueueAhead) = (inEnvironment env
        (BaseNode.tickOutputQueues n.connected cycle n.advanceTarget 0 outputs n.outputQueueAhead)).1 ∧
      (∀ queue, sends queue (inEnvironment env (n.tick (observed handler) sortSlice cycle)).2 = sends queue (inEnvironment env
        (BaseNode.tickOutputQueues n.connected cycle n.advanceTarget 0 outputs n.outputQueueAhead)).2) ∧
      ∀ queue oq, n.queues.outputs[queue]? = some oq → outputs[queue]? = some (injectAll oq (callsOn queue calls)).2 ∧
        answersOn queue calls = (injectAll oq (callsOn queue calls)).1 := by
  obtain ⟨inputs,refs,queues,worked,_,_,_,outputs,logged⟩ := BaseNode.run_tick fine
  rw [observed,runOn_bind] at worked
  have made := fun queue oq => @runOn_recorded _ queue (handler cycle n.state.1 refs)
    { n.queues with inputs } oq
  generalize runOn (recorded (handler cycle n.state.1 refs)) { n.queues with inputs } = work at worked made
  rcases work with ⟨⟨⟨error,next⟩,calls⟩,queues'⟩
  obtain ⟨left,rfl⟩ := Prod.mk.inj worked
  obtain ⟨-,state⟩ := Prod.mk.inj left
  exact ⟨queues'.outputs,calls,by rw [← state],outputs,logged,made⟩

theorem tick_state {n n' : BaseNode (σ × CallLog)} {cycle c : Nat}
    (fine : (inEnvironment env (n.tick (observed handler) sortSlice cycle)).1 = (none,n')) (other : c ≠ cycle) :
    n'.state.2 c = n.state.2 c := by
  obtain ⟨_,calls,logged,_⟩ := tick_work fine
  rw [logged,Function.update_of_ne other]

/-- What a cycle does to an output queue: the calls the handler made on it, and the ticks. -/
theorem tick_queue {n n' : BaseNode (σ × CallLog)} {oq : OutputQueue} {ahead cycle : Nat}
    (found : n.queues.outputs[queue]? = some oq) (ahead_eq : n.outputQueueAhead[queue]? = some ahead)
    (within : cycle ≤ n.advanceTarget) (fine : (inEnvironment env (n.tick (observed handler) sortSlice cycle)).1 = (none,n')) :
    ∃ oq' ahead', n'.queues.outputs[queue]? = some oq' ∧ n'.outputQueueAhead[queue]? = some ahead' ∧
      Ticked (fun cycle => n.connected (.output queue) && env.ready queue cycle) cycle n.advanceTarget
        (injectAll oq (callsOn queue (n'.state.2 cycle))).2 ahead oq' ahead'
        (sends queue (inEnvironment env (n.tick (observed handler) sortSlice cycle)).2) ∧
      answersOn queue (n'.state.2 cycle) = (injectAll oq (callsOn queue (n'.state.2 cycle))).1 := by
  obtain ⟨outputs,calls,state,ended,logged,made⟩ := tick_work fine
  have here : n'.state.2 cycle = calls := by rw [state,Function.update_self]
  obtain ⟨loaded,answers⟩ := made queue oq found
  obtain ⟨-,ticked⟩ := @run_tickOutputQueues env _ n.connected _ within outputs n.outputQueueAhead 0
  obtain ⟨oq',ahead',found',ahead_eq',ticked⟩ := ticked queue _ ahead loaded ahead_eq
  rw [← ended] at found' ahead_eq'
  rw [Nat.zero_add] at ticked
  refine ⟨oq',ahead',found',ahead_eq',?_,?_⟩
  · rw [logged,here]
    exact ticked
  · rw [here]
    exact answers

/-- The line of an output queue, given the readiness of its receiver and the calls in
    each cycle. -/
def lineOf (oq : OutputQueue) (connected : Bool) (ready : Nat → Bool) (calls : Nat → List InjectCall) (queue : Nat) : Line where
  capacity := oq.capacity
  bandwidth := oq.outBandwidth
  ready cycle := connected && ready cycle
  batches cycle := ((calls cycle).filter (fun call => call.output = queue)).map InjectCall.pkts

/-- A node whose output queue has sent what its line sends, and the packets `pre` ahead. -/
structure Follows (line : Line) (start : List Packet) (target queue : Nat) (n : BaseNode (σ × CallLog)) (log : Log)
    (oq : OutputQueue) (ahead : Nat) (pre : List (Nat × Packet)) : Prop where
  found : n.queues.outputs[queue]? = some oq
  ahead_eq : n.outputQueueAhead[queue]? = some ahead
  inStep : InStep line start target n.currentCycle oq ahead pre
  sent : sends queue log = line.sentBefore start n.currentCycle ++ pre
  answers : ∀ c < n.currentCycle, answersOn queue (n.state.2 c) = accepted line.capacity (line.waitingAt start c) (line.batches c)

/-- A node keeps to the line in a cycle in which the answers are those of the line, and
    these are exactly the cycles without a batch blocked by what was sent ahead. -/
theorem Follows.cycle {line : Line} {start : List Packet} {target ahead : Nat} {n n' : BaseNode (σ × CallLog)} {log : Log}
    {oq : OutputQueue} {pre : List (Nat × Packet)} (follows : Follows line start target queue n log oq ahead pre)
    (ready : line.ready = fun cycle => n.connected (.output queue) && env.ready queue cycle)
    (within : n.currentCycle ≤ n.advanceTarget) (bound : n.advanceTarget ≤ target)
    (fine : (inEnvironment env (n.tick (observed handler) sortSlice n.currentCycle)).1 = (none,n'))
    (batches : line.batches n.currentCycle = (callsOn queue (n'.state.2 n.currentCycle)).map InjectCall.pkts) :
    (answersOn queue (n'.state.2 n.currentCycle) =
        accepted line.capacity (line.waitingAt start n.currentCycle) (line.batches n.currentCycle) ↔
      ¬ Line.Blocked line.capacity pre.length (line.waitingAt start n.currentCycle) (line.batches n.currentCycle)) ∧
    (¬ Line.Blocked line.capacity pre.length (line.waitingAt start n.currentCycle) (line.batches n.currentCycle) →
      ∃ oq' ahead' pre', Follows line start target queue { n' with currentCycle := n'.currentCycle + 1 }
          (log ++ (inEnvironment env (n.tick (observed handler) sortSlice n.currentCycle)).2) oq' ahead' pre' ∧
        ahead' ≤ max ahead (n.advanceTarget + 1) ∧
        (ahead' = max ahead (n.advanceTarget + 1) ∨ oq'.packets.length < line.bandwidth)) := by
  obtain ⟨oq',ahead',found,ahead_eq,ticked,answers⟩ := tick_queue follows.found follows.ahead_eq within fine
  obtain ⟨-,-,agree,-⟩ := injectAll_spec (pre.map Prod.snd) (callsOn queue (n'.state.2 n.currentCycle)) oq
  obtain ⟨_,_,_,_,clock,_⟩ := BaseNode.run_tick fine
  rw [follows.inStep.capacity,List.length_map,← follows.inStep.waiting,← batches,← answers] at agree
  refine ⟨agree,fun unblocked => ?_⟩
  rw [← ready] at ticked
  obtain ⟨pre',inStep,sent,limit,drained⟩ := follows.inStep.step batches unblocked bound within ticked
  refine ⟨oq',ahead',pre',⟨found,ahead_eq,by rw [clock]; exact inStep,?_,?_⟩,limit,drained⟩
  · rw [sends_append,follows.sent,clock,Line.sentBefore,List.append_assoc,sent,List.append_assoc]
  · intro c below
    rw [clock] at below
    rcases Nat.lt_succ_iff_lt_or_eq.mp below with earlier | rfl
    · rw [tick_state fine (Nat.ne_of_lt earlier)]
      exact follows.answers c earlier
    · exact agree.mpr unblocked

theorem Follows.aim {line : Line} {start : List Packet} {target ahead : Nat} {n : BaseNode (σ × CallLog)} {log : Log}
    {oq : OutputQueue} {pre : List (Nat × Packet)} (follows : Follows line start target queue n log oq ahead pre)
    (other : Nat) : Follows line start target queue { n with advanceTarget := other } log oq ahead pre :=
  ⟨follows.found,follows.ahead_eq,follows.inStep,follows.sent,follows.answers⟩

variable {id : Int} {queues : Queues} {connected : NodePort → Bool} {state : σ} {calls : Nat → List InjectCall}
  {allowed : Nat → Nat → Prop} {oq : OutputQueue} {target : Nat} {n : BaseNode (σ × CallLog)} {log : Log}

/-- A new node with the line of one of its queues. -/
theorem follows_newBaseNode (found : queues.outputs[queue]? = some oq) (line : Line) (capacity : oq.capacity = line.capacity)
    (bandwidth : oq.outBandwidth = line.bandwidth) :
    Follows line oq.packets target queue (.newBaseNode id queues connected (state,fun _ => [])) [] oq 0 [] where
  found := found
  ahead_eq := by
    obtain ⟨inside,_⟩ := List.getElem?_eq_some_iff.mp found
    simp [BaseNode.newBaseNode,inside]
  inStep := ⟨capacity,bandwidth,rfl,.none 0,Nat.zero_le _⟩
  sent := rfl
  answers _ below := absurd below (Nat.not_lt_zero _)

theorem reached_connected {start : BaseNode σ} {handler : Handler σ} {n : BaseNode σ}
    (reached : BaseNode.Reached env handler sortSlice allowed start n log) : n.connected = start.connected := by
  induction reached with
  | start => rfl
  | aim _ _ ih => exact ih
  | cycle _ _ fine ih =>
    obtain ⟨_,_,_,_,_,connected,_⟩ := BaseNode.run_tick fine
    exact connected.trans ih

/-- A run follows the line of every queue when no batch is premature, and in any case when
    time is advanced cycle by cycle. -/
theorem reached_follows {line : Line} (found : queues.outputs[queue]? = some oq)
    (line_eq : line = lineOf oq (connected (.output queue)) (env.ready queue) calls queue)
    (within : ∀ c t, allowed c t → c ≤ t ∧ t ≤ target)
    (safe : (∀ c, ¬ line.Premature oq.packets target c) ∨ ∀ c t, allowed c t → t = c)
    (reached : BaseNode.Reached env (observed handler) sortSlice allowed
      (.newBaseNode id queues connected (state,fun _ => [])) n log)
    (made : ∀ c < n.currentCycle, (n.state.2 c).map Prod.fst = calls c) :
    ∃ oq' ahead pre, Follows line oq.packets target queue n log oq' ahead pre ∧
      ((∀ c t, allowed c t → t = c) → ahead ≤ n.currentCycle) ∧ (n.currentCycle = 0 → pre = []) := by
  induction reached with
  | start =>
    exact ⟨oq,0,[],follows_newBaseNode found line (by rw [line_eq]; rfl) (by rw [line_eq]; rfl),fun _ => Nat.zero_le _,
      fun _ => rfl⟩
  | aim _ other ih =>
    obtain ⟨oq',ahead,pre,follows,single,first⟩ := ih made
    exact ⟨oq',ahead,pre,follows.aim other,single,first⟩
  | @cycle n n' log before allow fine ih =>
    obtain ⟨_,_,_,_,clock,_⟩ := BaseNode.run_tick fine
    simp only [clock] at made
    obtain ⟨oq',ahead,pre,follows,single,first⟩ := ih (fun c below => by
      rw [← tick_state fine (Nat.ne_of_lt below)]
      exact made c (by omega))
    obtain ⟨reach,bound⟩ := within _ _ allow
    have connected_eq := reached_connected before
    have unblocked : ¬ Line.Blocked line.capacity pre.length (line.waitingAt oq.packets n.currentCycle)
        (line.batches n.currentCycle) := by
      rcases safe with never | one_by_one
      · intro blocked
        rcases Nat.eq_zero_or_pos n.currentCycle with zero | positive
        · rw [first zero] at blocked
          exact Line.not_blocked_zero blocked
        · refine never n.currentCycle ⟨positive,by omega,blocked.mono ?_⟩
          have few := @Bursts.length_le _ _ _ _ target oq'.packets.length _ follows.inStep.bursts
            (by have inside := follows.inStep.within; omega)
          rwa [follows.inStep.waiting,List.length_append,List.length_map]
      · have none_ahead := follows.inStep.bursts
        rw [Nat.max_eq_left (single one_by_one)] at none_ahead
        rw [none_ahead.at_end]
        exact Line.not_blocked_zero
    obtain ⟨-,next⟩ := follows.cycle (by rw [connected_eq,line_eq]; rfl) reach bound fine (by
      rw [line_eq,lineOf,callsOn,made n.currentCycle (by omega)])
    obtain ⟨oq'',ahead',pre',follows',limit,_⟩ := next unblocked
    refine ⟨oq'',ahead',pre',follows',fun one_by_one => ?_,fun zero => absurd zero (Nat.succ_ne_zero _)⟩
    have before_now := single one_by_one
    have now := one_by_one _ _ allow
    simp only [clock]
    omega

/-- When time is advanced to the target at once, the answers of the line are given only if
    no batch is premature. -/
theorem reached_unblocked {line : Line} (found : queues.outputs[queue]? = some oq)
    (line_eq : line = lineOf oq (connected (.output queue)) (env.ready queue) calls queue)
    (within : ∀ c t, allowed c t → c ≤ t ∧ t = target)
    (reached : BaseNode.Reached env (observed handler) sortSlice allowed
      (.newBaseNode id queues connected (state,fun _ => [])) n log)
    (made : ∀ c < n.currentCycle, (n.state.2 c).map Prod.fst = calls c)
    (answers : ∀ c < n.currentCycle, answersOn queue (n.state.2 c) =
      accepted line.capacity (line.waitingAt oq.packets c) (line.batches c)) :
    ∃ oq' ahead pre, Follows line oq.packets target queue n log oq' ahead pre ∧
      (0 < n.currentCycle → ahead = target + 1 ∨ oq'.packets.length < line.bandwidth) ∧
      ∀ c < n.currentCycle, ¬ line.Premature oq.packets target c := by
  induction reached with
  | start =>
    exact ⟨oq,0,[],follows_newBaseNode found line (by rw [line_eq]; rfl) (by rw [line_eq]; rfl),
      fun positive => absurd positive (Nat.lt_irrefl 0),fun c below => absurd below (Nat.not_lt_zero c)⟩
  | aim _ other ih =>
    obtain ⟨oq',ahead,pre,follows,drained,never⟩ := ih made answers
    exact ⟨oq',ahead,pre,follows.aim other,drained,never⟩
  | @cycle n n' log before allow fine ih =>
    obtain ⟨_,_,_,_,clock,_⟩ := BaseNode.run_tick fine
    simp only [clock] at made answers
    obtain ⟨oq',ahead,pre,follows,drained,never⟩ := ih
      (fun c below => by
        rw [← tick_state fine (Nat.ne_of_lt below)]
        exact made c (by omega))
      (fun c below => by
        rw [← tick_state fine (Nat.ne_of_lt below)]
        exact answers c (by omega))
    obtain ⟨reach,aimed⟩ := within _ _ allow
    have connected_eq := reached_connected before
    obtain ⟨agree,next⟩ := follows.cycle (by rw [connected_eq,line_eq]; rfl) reach (Nat.le_of_eq aimed) fine (by
      rw [line_eq,lineOf,callsOn,made n.currentCycle (by omega)])
    have unblocked := agree.mp (answers n.currentCycle (by omega))
    obtain ⟨oq'',ahead',pre',follows',_,drained'⟩ := next unblocked
    refine ⟨oq'',ahead',pre',follows',fun _ => ?_,fun c below => ?_⟩
    · have inside := follows.inStep.within
      rw [aimed] at drained'
      exact drained'.imp_left fun last => by omega
    · simp only [clock] at below
      rcases Nat.lt_succ_iff_lt_or_eq.mp below with earlier | rfl
      · exact never c earlier
      · rintro ⟨positive,_,blocked⟩
        refine unblocked (blocked.mono (Nat.le_of_eq ?_))
        have all := @Bursts.length_eq _ _ _ _ target oq'.packets.length _ follows.inStep.bursts
          ((drained positive).imp_left fun last => by omega) (by have inside := follows.inStep.within; omega)
        rw [follows.inStep.waiting,List.length_append,List.length_map]
        exact all.symm

end
/-! ### Ways of advancing -/

/-- An increasing sequence of targets that ends in the given one. -/
def Way (target : Nat) (targets : List Nat) : Prop := targets.Pairwise (· < ·) ∧ targets.getLast? = some target

/-- A new node that is advanced through the targets. -/
def runWay {σ : Type} (env : Environment) (sortSlice : SliceSort) (handler : Handler σ) (id : Int) (queues : Queues)
    (connected : NodePort → Bool) (state : σ) (targets : List Nat) : (Option String × BaseNode (σ × CallLog)) × Log :=
  inEnvironment env (BaseNode.advanceThrough (observed handler) sortSlice targets
    (.newBaseNode id queues connected (state,fun _ => [])))

/-- The run ends without an error, and the handler made the given calls. -/
structure Makes {σ : Type} (target : Nat) (calls : Nat → List InjectCall) (run : (Option String × BaseNode (σ × CallLog)) × Log) :
    Prop where
  fine : run.1.1 = none
  made : ∀ c ≤ target, (run.1.2.state.2 c).map Prod.fst = calls c

/-- Runs of a node that differ in the targets, but not in what arrives, in the readiness of
    the receivers and in the calls of the handler, send the same packets in the same cycles
    and accept the same calls. -/
def ChunkingInvisible (queues : Queues) (connected : NodePort → Bool) (ready : Nat → Nat → Bool) (calls : Nat → List InjectCall)
    (target : Nat) : Prop :=
  ∀ (σ : Type) (handler : Handler σ) (state : σ) (id : Int) (sortSlice : SliceSort) (arrivals : Nat → Nat → List Packet)
    (targets targets' : List Nat), Way target targets → Way target targets' →
    let run := runWay ⟨arrivals,ready⟩ sortSlice handler id queues connected state targets
    let run' := runWay ⟨arrivals,ready⟩ sortSlice handler id queues connected state targets'
    Makes target calls run → Makes target calls run' → ∀ queue < queues.outputs.length,
      sends queue run.2 = sends queue run'.2 ∧
        ∀ c ≤ target, answersOn queue (run.1.2.state.2 c) = answersOn queue (run'.1.2.state.2 c)

theorem Way.le {target : Nat} {targets : List Nat} (way : Way target targets) : ∀ t ∈ targets, t ≤ target := by
  obtain ⟨before,rfl⟩ := List.getLast?_eq_some_iff.mp way.2
  intro t member
  rcases List.mem_append.mp member with earlier | last
  · exact Nat.le_of_lt ((List.pairwise_append.mp way.1).2.2 t earlier target (List.mem_singleton.mpr rfl))
  · exact Nat.le_of_eq (List.mem_singleton.mp last)

theorem steps_of_pairwise {target : Nat} : ∀ {targets : List Nat} {cycle : Nat}, targets.Pairwise (· < ·) →
    (∀ t ∈ targets, cycle ≤ t ∧ t ≤ target) → BaseNode.Steps (fun c t => c ≤ t ∧ t ≤ target) cycle targets
  | [], _, _, _ => trivial
  | t :: rest, cycle, increasing, bounds => by
    obtain ⟨first,later⟩ := List.pairwise_cons.mp increasing
    obtain ⟨from_cycle,bound⟩ := bounds t (List.mem_cons_self ..)
    refine ⟨from_cycle,fun c _ below => ⟨below,bound⟩,steps_of_pairwise later fun t' member => ⟨first t' member,?_⟩⟩
    exact (bounds t' (List.mem_cons_of_mem _ member)).2

/-- One cycle at a time. -/
theorem steps_range' {target : Nat} : ∀ (count cycle : Nat), cycle + count ≤ target + 1 →
    BaseNode.Steps (fun c t => t = c ∧ t ≤ target) cycle (List.range' cycle count)
  | 0, _, _ => trivial
  | count + 1, cycle, bound =>
    ⟨Nat.le_refl _,fun c from_c below => ⟨by omega,by omega⟩,steps_range' count (cycle + 1) (by omega)⟩

section
variable {σ : Type} {env : Environment} {sortSlice : SliceSort} {handler : Handler σ} {id : Int} {queues : Queues}
  {connected : NodePort → Bool} {state : σ} {calls : Nat → List InjectCall} {target queue : Nat} {oq : OutputQueue}
  {targets : List Nat} {allowed : Nat → Nat → Prop}

/-- The nodes that a way of advancing reaches. -/
theorem reached_runWay (way : Way target targets) (steps : BaseNode.Steps allowed 0 targets)
    (makes : Makes target calls (runWay env sortSlice handler id queues connected state targets)) :
    let run := runWay env sortSlice handler id queues connected state targets
    BaseNode.Reached env (observed handler) sortSlice allowed (.newBaseNode id queues connected (state,fun _ => [])) run.1.2 run.2 ∧
      run.1.2.currentCycle = target + 1 := by
  have fine : (runWay env sortSlice handler id queues connected state targets).1 =
      (none,(runWay env sortSlice handler id queues connected state targets).1.2) := Prod.ext makes.fine rfl
  obtain ⟨reached,ended⟩ := BaseNode.reached_advanceThrough targets
    (@BaseNode.Reached.start _ env (observed handler) sortSlice allowed _) steps fine
  exact ⟨reached,ended target way.2⟩

/-- What is sent and accepted when the line is followed to the end. -/
theorem runWay_follows (found : queues.outputs[queue]? = some oq) (way : Way target targets)
    (steps : BaseNode.Steps allowed 0 targets) (within : ∀ c t, allowed c t → c ≤ t ∧ t ≤ target)
    (safe : (∀ c, ¬ (lineOf oq (connected (.output queue)) (env.ready queue) calls queue).Premature oq.packets target c) ∨
      ∀ c t, allowed c t → t = c)
    (makes : Makes target calls (runWay env sortSlice handler id queues connected state targets)) :
    let line := lineOf oq (connected (.output queue)) (env.ready queue) calls queue
    let run := runWay env sortSlice handler id queues connected state targets
    sends queue run.2 = line.sentBefore oq.packets (target + 1) ∧
      ∀ c ≤ target, answersOn queue (run.1.2.state.2 c) = accepted line.capacity (line.waitingAt oq.packets c) (line.batches c) := by
  obtain ⟨reached,ended⟩ := reached_runWay way steps makes
  obtain ⟨oq',ahead,pre,follows,_⟩ := reached_follows found rfl within safe reached
    (fun c below => makes.made c (by omega))
  have none_ahead := follows.inStep.bursts
  have inside := follows.inStep.within
  have sent := follows.sent
  rw [ended] at none_ahead sent
  rw [Nat.max_eq_left inside] at none_ahead
  obtain rfl := none_ahead.at_end
  rw [List.append_nil] at sent
  exact ⟨sent,fun c below => follows.answers c (by omega)⟩

/-! ### A handler with fixed calls -/

/-- Makes the calls in turn, whatever the answers are. -/
def performAll : List InjectCall → Prog nodeInterface Unit
  | [] => return ()
  | call :: rest => do
    let _ ← injectPackets call.output call.cycle call.pkts
    performAll rest

def planned (calls : Nat → List InjectCall) : Handler Unit := fun cycle _ _ => do
  performAll (calls cycle)
  return (none,())

theorem recorded_performAll {α : Type} (value : α) : ∀ (made : List InjectCall) (qs : Queues),
    (runOn (recorded (performAll made >>= fun _ => Prog.done value)) qs).1.1 = value ∧
      (runOn (recorded (performAll made >>= fun _ => Prog.done value)) qs).1.2.map Prod.fst = made
  | [], _ => ⟨rfl,rfl⟩
  | call :: rest, qs => by
    have tree : (performAll (call :: rest) >>= fun _ => Prog.done value) =
        .call (.injectPackets call.output call.cycle call.pkts) (fun _ => performAll rest >>= fun _ => Prog.done value) := rfl
    obtain ⟨ends,makes⟩ := recorded_performAll value rest (qs.exec (.injectPackets call.output call.cycle call.pkts)).2
    rw [tree,recorded,runOn_call,runOn_bind]
    exact ⟨ends,congrArg (call :: ·) makes⟩

/-- A cycle of a node with fixed calls goes well when nothing arrives. -/
theorem tick_planned (quiet : ∀ i cycle, env.arrivals i cycle = []) (n : BaseNode (Unit × CallLog)) (cycle : Nat) :
    ∃ n', (inEnvironment env (n.tick (observed (planned calls)) sortSlice cycle)).1 = (none,n') ∧
      (n'.state.2 cycle).map Prod.fst = calls cycle ∧ ∀ c, c ≠ cycle → n'.state.2 c = n.state.2 c := by
  have received := @run_tickInputQueues_quiet env cycle sortSlice n.connected (fun i => quiet i cycle)
    n.queues.inputs 0
  rw [BaseNode.tick,inEnvironment_bind]
  generalize inEnvironment env (BaseNode.tickInputQueues sortSlice n.connected cycle 0 n.queues.inputs) = first at received ⊢
  rcases first with ⟨⟨error,inputs,refs⟩,log⟩
  obtain rfl : error = none := received
  obtain ⟨ends,makes⟩ := recorded_performAll (α := Option String × Unit) (none,()) (calls cycle) { n.queues with inputs }
  have worked : ∃ log', (runOn (observed (planned calls) cycle n.state refs) { n.queues with inputs }).1 =
      (none,(),Function.update n.state.2 cycle log') ∧ log'.map Prod.fst = calls cycle := by
    rw [observed,runOn_bind]
    change (runOn (recorded (planned calls cycle n.state.1 refs)) _).1.1 = _ at ends
    change (runOn (recorded (planned calls cycle n.state.1 refs)) _).1.2.map Prod.fst = _ at makes
    generalize runOn (recorded (planned calls cycle n.state.1 refs)) _ = work at ends makes ⊢
    rcases work with ⟨⟨⟨error,next⟩,log'⟩,queues'⟩
    obtain ⟨rfl,rfl⟩ := Prod.mk.inj ends
    exact ⟨log',rfl,makes⟩
  obtain ⟨log',worked,made⟩ := worked
  dsimp only at worked ⊢
  generalize runOn (observed (planned calls) cycle n.state refs) { n.queues with inputs } = work at worked ⊢
  rcases work with ⟨work,queues'⟩
  obtain rfl := worked
  simp only [inEnvironment_bind,Prog.pure_eq,inEnvironment_done]
  refine ⟨_,rfl,?_,?_⟩
  · dsimp only
    rw [Function.update_self]
    exact made
  · exact fun c other => Function.update_of_ne other ..

theorem advanceLoop_planned (quiet : ∀ i cycle, env.arrivals i cycle = []) : ∀ (remaining : Nat) (n : BaseNode (Unit × CallLog)),
    (inEnvironment env (BaseNode.advanceLoop (observed (planned calls)) sortSlice remaining n)).1.1 = none
  | 0, _ => rfl
  | remaining + 1, n => by
    obtain ⟨n',fine,_⟩ := @tick_planned env sortSlice calls quiet n n.currentCycle
    rw [BaseNode.advanceLoop,inEnvironment_bind,fine]
    exact advanceLoop_planned quiet remaining _

theorem advanceThrough_planned (quiet : ∀ i cycle, env.arrivals i cycle = []) :
    ∀ (targets : List Nat) (n : BaseNode (Unit × CallLog)),
    (inEnvironment env (BaseNode.advanceThrough (observed (planned calls)) sortSlice targets n)).1.1 = none
  | [], _ => rfl
  | target :: rest, n => by
    rw [BaseNode.advanceThrough,inEnvironment_bind]
    have fine : (inEnvironment env (n.advanceTo (observed (planned calls)) sortSlice target)).1.1 = none := by
      unfold BaseNode.advanceTo
      split
      · rfl
      · exact advanceLoop_planned quiet _ _
    rcases advanced : (inEnvironment env (n.advanceTo (observed (planned calls)) sortSlice target)).1 with ⟨error,n'⟩
    rw [advanced] at fine
    obtain rfl : error = none := fine
    exact advanceThrough_planned quiet rest n'

/-- Fixed calls are made on every way. -/
theorem makes_planned (quiet : ∀ i cycle, env.arrivals i cycle = []) (way : Way target targets)
    (steps : BaseNode.Steps allowed 0 targets) :
    Makes target calls (runWay env sortSlice (planned calls) id queues connected () targets) := by
  have fine : (runWay env sortSlice (planned calls) id queues connected () targets).1 =
      (none,(runWay env sortSlice (planned calls) id queues connected () targets).1.2) :=
    Prod.ext (advanceThrough_planned quiet targets _) rfl
  obtain ⟨reached,ended⟩ := BaseNode.reached_advanceThrough targets
    (@BaseNode.Reached.start _ env (observed (planned calls)) sortSlice allowed _) steps fine
  have all : ∀ {n log}, BaseNode.Reached env (observed (planned calls)) sortSlice allowed
      (.newBaseNode id queues connected ((),fun _ => [])) n log → ∀ c < n.currentCycle, (n.state.2 c).map Prod.fst = calls c := by
    intro n log reached
    induction reached with
    | start => exact fun c below => absurd below (Nat.not_lt_zero c)
    | aim _ _ ih => exact ih
    | @cycle n n' log _ _ ticked ih =>
      obtain ⟨n'',fine,made,others⟩ := @tick_planned env sortSlice calls quiet n n.currentCycle
      obtain rfl : n'' = n' := (Prod.mk.inj (fine.symm.trans ticked)).2
      obtain ⟨_,_,_,_,clock,_⟩ := BaseNode.run_tick ticked
      intro c below
      simp only [clock] at below
      rcases Nat.lt_succ_iff_lt_or_eq.mp below with earlier | rfl
      · rw [others c (Nat.ne_of_lt earlier)]
        exact ih c earlier
      · exact made
  exact ⟨congrArg Prod.fst fine,fun c below => all reached c (by rw [ended target way.2]; omega)⟩

/-- A premature batch makes a difference between advancing cycle by cycle and at once. -/
theorem unblocked_of_invisible {ready : Nat → Nat → Bool} (invisible : ChunkingInvisible queues connected ready calls target)
    (found : queues.outputs[queue]? = some oq) (cycle : Nat) :
    ¬ (lineOf oq (connected (.output queue)) (ready queue) calls queue).Premature oq.packets target cycle := by
  let env : Environment := ⟨fun _ _ => [],ready⟩
  have single : Way target (List.range' 0 (target + 1)) :=
    ⟨List.pairwise_lt_range',by rw [List.getLast?_range']; simp⟩
  have stepwise := @steps_range' target (target + 1) 0 (by omega)
  have whole : Way target [target] := ⟨List.pairwise_singleton ..,rfl⟩
  have at_once : BaseNode.Steps (fun c t => c ≤ t ∧ t = target) 0 [target] :=
    ⟨Nat.zero_le _,fun c _ below => ⟨below,rfl⟩,trivial⟩
  have inside : queue < queues.outputs.length := (List.getElem?_eq_some_iff.mp found).1
  have makes := @makes_planned env stableSort 0 queues connected calls _ _ _
    (fun _ _ => rfl) single stepwise
  have makes' := @makes_planned env stableSort 0 queues connected calls _ _ _
    (fun _ _ => rfl) whole at_once
  obtain ⟨_,same⟩ := invisible Unit (planned calls) () 0 stableSort env.arrivals _ _ single whole makes makes' queue inside
  obtain ⟨_,answers⟩ := runWay_follows found single stepwise (fun c t now => ⟨Nat.le_of_eq now.1.symm,now.2⟩)
    (.inr fun c t now => now.1) makes
  obtain ⟨reached,ended⟩ := reached_runWay whole at_once makes'
  obtain ⟨_,_,_,_,_,never⟩ := reached_unblocked found rfl (fun _ _ both => both) reached
    (fun c below => makes'.made c (by omega)) (fun c below => by rw [← same c (by omega),answers c (by omega)])
  intro premature
  have bound := premature.2.1
  exact never cycle (by omega) premature

/-- The chunks of time are invisible exactly when no batch is premature: none that does not
    fit when time is advanced cycle by cycle would fit if the packets were gone that its
    queue can send at full bandwidth from this cycle to the last. -/
theorem chunking_invisible_iff (queues : Queues) (connected : NodePort → Bool) (ready : Nat → Nat → Bool)
    (calls : Nat → List InjectCall) (target : Nat) :
    ChunkingInvisible queues connected ready calls target ↔ ∀ queue oq, queues.outputs[queue]? = some oq →
      ∀ cycle, ¬ (lineOf oq (connected (.output queue)) (ready queue) calls queue).Premature oq.packets target cycle := by
  constructor
  · exact fun invisible queue oq found cycle => unblocked_of_invisible invisible found cycle
  · intro never σ handler state id sortSlice arrivals targets targets' way way' run run' makes makes' queue inside
    obtain ⟨oq,found⟩ : ∃ oq, queues.outputs[queue]? = some oq := ⟨_,List.getElem?_eq_getElem inside⟩
    have steps := steps_of_pairwise way.1 (fun t member => ⟨Nat.zero_le t,way.le t member⟩)
    have steps' := steps_of_pairwise way'.1 (fun t member => ⟨Nat.zero_le t,way'.le t member⟩)
    obtain ⟨sent,answers⟩ := runWay_follows found way steps (fun _ _ both => both) (.inl (never queue oq found)) makes
    obtain ⟨sent',answers'⟩ := runWay_follows found way' steps' (fun _ _ both => both) (.inl (never queue oq found)) makes'
    exact ⟨sent.trans sent'.symm,fun c below => (answers c below).trans (answers' c below).symm⟩

/-- Two batches of two packets for a queue with two places that sends one packet a cycle. -/
def pairTwice (pkt : Packet) : Nat → List InjectCall
  | 0 => [⟨0,0,[pkt,pkt]⟩]
  | 1 => [⟨0,1,[pkt,pkt]⟩]
  | _ => []

/-- Advanced to cycle 1 at once, the queue has already sent both packets of cycle 0 when the
    second batch comes, and takes it. -/
theorem pairTwice_visible :
    ¬ ChunkingInvisible ⟨[],[.newOutputQueue 2 1 Nat.one_pos]⟩ (fun _ => true) (fun _ _ => true)
    (pairTwice default) 1 := by
  intro invisible
  refine @unblocked_of_invisible _ _ _ _ 0 _ _ invisible rfl 1 ⟨Nat.one_pos,Nat.le_refl 1,[],[default,default],[],rfl,?_,?_⟩
  · decide
  · decide

end

end FlowSim.Node
