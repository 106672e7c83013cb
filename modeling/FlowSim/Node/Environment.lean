import FlowSim.Node.BaseNode

/-!
A node in an environment that is known beforehand: which packets arrive in which
cycle, and in which cycles the receivers are ready. The programs of the node then
have one result each, and one log of operations. `Bursts` describes what an output
queue sends ahead of time: a full bandwidth in every ready cycle.
-/
namespace FlowSim.Node
open FlowSim.Lib FlowSim.AheadPort FlowSim.Queue
set_option linter.unusedSimpArgs false

/-- What a node meets at its ports. -/
structure Environment where
  arrivals : Nat → Nat → List Packet
  ready : Nat → Nat → Bool

def Environment.answer (env : Environment) : (op : NodePort × PortOp) → op.2.Resp
  | (.input i,.retrieve cycle) => env.arrivals i cycle
  | (.output _,.retrieve _) => []
  | (.output i,.isReady cycle) => env.ready i cycle
  | (.input _,.isReady _) => false
  | (_,.drainChannel) => ()
  | (_,.waitDone _) => ()
  | (_,.updateReady _ _) => ()
  | (_,.send _) => ()
  | (_,.markDone _) => ()

abbrev Log := List (NodePort × PortOp)

/-- The result of a program and the operations it issues. -/
def inEnvironment {α : Type} (env : Environment) : Prog nodePorts α → α × Log
  | .done value => (value,[])
  | .call op next =>
    let (value,log) := inEnvironment env (next (env.answer op))
    (value,op :: log)

/-- The log of an output queue: what it sent, and in which cycle. -/
def sends (queue : Nat) (log : Log) : List (Nat × Packet) :=
  log.filterMap fun
    | (.output i,.send pwc) => if i = queue then some (pwc.cycle,pwc.packet) else none
    | _ => none

section
variable {env : Environment} {α β : Type} {queue : Nat}

@[simp] theorem inEnvironment_done (value : α) : inEnvironment env (.done value) = (value,[]) := rfl

@[simp] theorem inEnvironment_call (op : NodePort × PortOp) (next : op.2.Resp → Prog nodePorts α) :
    inEnvironment env (.call op next) =
      ((inEnvironment env (next (env.answer op))).1,op :: (inEnvironment env (next (env.answer op))).2) := rfl

@[simp] theorem inEnvironment_bind (p : Prog nodePorts α) (f : α → Prog nodePorts β) :
    inEnvironment env (p >>= f) = ((inEnvironment env (f (inEnvironment env p).1)).1,
      (inEnvironment env p).2 ++ (inEnvironment env (f (inEnvironment env p).1)).2) := by
  induction p with
  | done value => rfl
  | call op next ih => simp [ih]

@[simp] theorem sends_nil : sends queue [] = [] := rfl

@[simp] theorem sends_append (before after : Log) : sends queue (before ++ after) = sends queue before ++ sends queue after :=
  List.filterMap_append

/-! ### Bursts -/

/-- A full bandwidth in every ready cycle from the first cycle up to the last one,
    which is not included. -/
inductive Bursts (ready : Nat → Bool) (bandwidth : Nat) : Nat → Nat → List (Nat × Packet) → Prop where
  | none (cycle : Nat) : Bursts ready bandwidth cycle cycle []
  | skip {cycle last : Nat} {later : List (Nat × Packet)} (unready : ready cycle = false)
      (rest : Bursts ready bandwidth (cycle + 1) last later) : Bursts ready bandwidth cycle last later
  | burst {cycle last : Nat} {later : List (Nat × Packet)} (pkts : List Packet) (isReady : ready cycle = true)
      (full : pkts.length = bandwidth) (rest : Bursts ready bandwidth (cycle + 1) last later) :
      Bursts ready bandwidth cycle last (pkts.map (cycle,·) ++ later)

/-- How much a queue of the given length sends ahead when it is ticked as long as a
    full bandwidth waits, for at most `remaining` cycles. -/
def sentAhead (ready : Nat → Bool) (bandwidth : Nat) : (remaining cycle waiting : Nat) → Nat
  | 0, _, _ => 0
  | remaining + 1, cycle, waiting =>
    if waiting < bandwidth then 0
    else if ready cycle then bandwidth + sentAhead ready bandwidth remaining (cycle + 1) (waiting - bandwidth)
    else sentAhead ready bandwidth remaining (cycle + 1) waiting

variable {ready : Nat → Bool} {bandwidth cycle last target rest : Nat} {ahead later : List (Nat × Packet)}

theorem Bursts.le (bursts : Bursts ready bandwidth cycle last ahead) : cycle ≤ last := by
  induction bursts with
  | none => exact Nat.le_refl _
  | skip _ _ ih => omega
  | burst _ _ _ _ ih => omega

theorem Bursts.trans {mid : Nat} (first : Bursts ready bandwidth cycle mid ahead) (second : Bursts ready bandwidth mid last later) :
    Bursts ready bandwidth cycle last (ahead ++ later) := by
  induction first with
  | none => exact second
  | skip unready _ ih => exact .skip unready (ih second)
  | burst pkts isReady full _ ih =>
    rw [List.append_assoc]
    exact .burst pkts isReady full (ih second)

/-- Fewer packets than a full bandwidth are none. -/
theorem Bursts.eq_nil (bursts : Bursts ready bandwidth cycle last ahead) (few : ahead.length < bandwidth) : ahead = [] := by
  induction bursts with
  | none => rfl
  | skip _ _ ih => exact ih few
  | burst pkts _ full _ _ =>
    rw [List.length_append,List.length_map] at few
    omega

/-- No more is sent ahead than there can be. -/
theorem Bursts.length_le (bursts : Bursts ready bandwidth cycle last ahead) (within : last ≤ target + 1) :
    ahead.length ≤ sentAhead ready bandwidth (target + 1 - cycle) cycle (ahead.length + rest) := by
  induction bursts with
  | none => exact Nat.zero_le _
  | @skip cycle last later unready bursts ih =>
    have order := bursts.le
    obtain ⟨remaining,left⟩ : ∃ remaining, target + 1 - cycle = remaining + 1 := ⟨target - cycle,by omega⟩
    rw [left,sentAhead]
    split
    · next few => rw [bursts.eq_nil (by omega)]; exact Nat.le_refl _
    · rw [unready,if_neg Bool.false_ne_true]
      have here := ih within
      rwa [show target + 1 - (cycle + 1) = remaining by omega] at here
  | @burst cycle last later pkts isReady full bursts ih =>
    have order := bursts.le
    obtain ⟨remaining,left⟩ : ∃ remaining, target + 1 - cycle = remaining + 1 := ⟨target - cycle,by omega⟩
    rw [left,sentAhead,List.length_append,List.length_map,full]
    rw [if_neg (by omega),isReady,if_pos rfl,show bandwidth + later.length + rest - bandwidth = later.length + rest by omega]
    have here := ih within
    rw [show target + 1 - (cycle + 1) = remaining by omega] at here
    omega

/-- As much is sent ahead as there can be when the ticking went on as long as a full
    bandwidth waited. -/
theorem Bursts.length_eq (bursts : Bursts ready bandwidth cycle last ahead) (drained : last = target + 1 ∨ rest < bandwidth)
    (within : last ≤ target + 1) :
    ahead.length = sentAhead ready bandwidth (target + 1 - cycle) cycle (ahead.length + rest) := by
  induction bursts with
  | none cycle =>
    rcases drained with rfl | few
    · rw [Nat.sub_self]
      rfl
    · rcases target + 1 - cycle with _ | remaining
      · rfl
      · rw [sentAhead,if_pos (by simpa using few)]
        rfl
  | @skip cycle last later unready bursts ih =>
    have order := bursts.le
    obtain ⟨remaining,left⟩ : ∃ remaining, target + 1 - cycle = remaining + 1 := ⟨target - cycle,by omega⟩
    rw [left,sentAhead]
    split
    · next few => rw [bursts.eq_nil (by omega)]; rfl
    · rw [unready,if_neg Bool.false_ne_true]
      have here := ih drained within
      rwa [show target + 1 - (cycle + 1) = remaining by omega] at here
  | @burst cycle last later pkts isReady full bursts ih =>
    have order := bursts.le
    obtain ⟨remaining,left⟩ : ∃ remaining, target + 1 - cycle = remaining + 1 := ⟨target - cycle,by omega⟩
    rw [left,sentAhead,List.length_append,List.length_map,full]
    rw [if_neg (by omega),isReady,if_pos rfl,show bandwidth + later.length + rest - bandwidth = later.length + rest by omega]
    have here := ih drained within
    rw [show target + 1 - (cycle + 1) = remaining by omega] at here
    omega

end

/-! ### The ticks of an output queue -/

/-- The output queue after it has sent `count` packets. -/
structure Sent (oq oq' : OutputQueue) (count : Nat) : Prop where
  packets : oq'.packets = oq.packets.drop count
  capacity : oq'.capacity = oq.capacity
  outBandwidth : oq'.outBandwidth = oq.outBandwidth

section
variable {env : Environment} {queue cycle : Nat}

@[simp] theorem Sent.refl (oq : OutputQueue) : Sent oq oq 0 := ⟨(List.drop_zero ..).symm,rfl,rfl⟩

@[simp] theorem atPort_bind {α β : Type} (port : NodePort) (p : Prog portInterface α) (f : α → Prog portInterface β) :
    atPort port (p >>= f) = atPort port p >>= fun value => atPort port (f value) := by
  induction p with
  | done value => rfl
  | call op next ih =>
    rw [Prog.call_bind,atPort,atPort,Prog.call_bind]
    congr 1
    funext answer
    exact ih answer

/-- A packet is sent when the receiver is ready. -/
theorem run_trySend (pwc : PacketWithCycle) :
    inEnvironment env (atPort (.output queue) (trySend cycle pwc)) = (env.ready queue cycle,
      (.output queue,.isReady cycle) :: if env.ready queue cycle then [(.output queue,.send pwc)] else []) := by
  have tree : trySend cycle pwc = .call (.isReady cycle) (fun ready : Bool =>
      if ready then .call (.send pwc) (fun _ => .done true) else .done false) := rfl
  rw [tree,atPort,inEnvironment_call]
  cases isReady : env.ready queue cycle <;> simp [Environment.answer,isReady,atPort]

/-- Sending stops at the bandwidth, at the end of the queue, or at once when the
    receiver is not ready. -/
theorem run_sendUpTo (left : Nat) : ∀ oq : OutputQueue,
    let count := if env.ready queue cycle then left else 0
    let run := inEnvironment env (atPort (.output queue) (OutputQueue.sendUpTo cycle left oq))
    Sent oq run.1 count ∧ sends queue run.2 = (oq.packets.take count).map (cycle,·) ∧
      ∀ other, other ≠ queue → sends other run.2 = [] := by
  induction left with
  | zero =>
    intro oq
    simp [OutputQueue.sendUpTo,atPort]
  | succ left ih =>
    intro oq
    dsimp only
    rw [OutputQueue.sendUpTo]
    by_cases some_left : 0 < oq.count
    · rw [dif_pos some_left]
      have waiting : oq.packets = (oq.front some_left).packet ::
          ({ oq with toRingBuffer := oq.pop some_left } : OutputQueue).packets := by
        rw [OutputQueue.packets,RingBuffer.toList_pop oq.toRingBuffer some_left]
        rfl
      obtain ⟨sent,logged,others⟩ := ih { oq with toRingBuffer := oq.pop some_left }
      rw [atPort_bind,inEnvironment_bind,run_trySend]
      cases isReady : env.ready queue cycle with
      | true =>
        simp only [isReady,if_true] at sent logged others ⊢
        refine ⟨⟨?_,sent.capacity,sent.outBandwidth⟩,?_,?_⟩
        · rw [waiting,List.drop_succ_cons]
          exact sent.packets
        · rw [waiting,List.take_succ_cons,List.map_cons,sends_append,logged]
          simp [sends]
        · intro other different
          rw [sends_append,others other different]
          simp [sends,Ne.symm different]
      | false =>
        simp only [Bool.false_eq_true,if_false,Prog.pure_eq,atPort,inEnvironment_done,List.append_nil,List.take_zero,
          List.map_nil]
        exact ⟨.refl oq,rfl,fun _ _ => rfl⟩
    · rw [dif_neg some_left]
      have empty : oq.packets = [] := by
        rw [OutputQueue.packets,RingBuffer.toList_eq_nil (Nat.eq_zero_of_not_pos some_left)]
        rfl
      simp only [Prog.pure_eq,atPort,inEnvironment_done,empty,List.take_nil,List.map_nil,sends_nil,true_and,
        implies_true,and_true]
      exact ⟨by rw [empty,List.drop_nil],rfl,rfl⟩

/-- What a queue may send in a cycle: nothing without a port, and nothing when the
    receiver is not ready. -/
def quota (ready : Bool) (bandwidth : Nat) : Nat := if ready then bandwidth else 0

theorem run_tickOutput (connected : Bool) (oq : OutputQueue) :
    let count := quota (connected && env.ready queue cycle) oq.outBandwidth
    let run := inEnvironment env (BaseNode.tickOutput connected queue cycle oq)
    Sent oq run.1 count ∧ sends queue run.2 = (oq.packets.take count).map (cycle,·) ∧
      ∀ other, other ≠ queue → sends other run.2 = [] := by
  cases connected with
  | false =>
    refine ⟨.refl oq,rfl,fun _ _ => rfl⟩
  | true =>
    obtain ⟨sent,logged,others⟩ := @run_sendUpTo env queue cycle oq.outBandwidth oq
    have tree : BaseNode.tickOutput true queue cycle oq = atPort (.output queue) (OutputQueue.sendUpTo cycle oq.outBandwidth oq)
        >>= fun oq => .call (.output queue,.markDone cycle) (fun _ => .done oq) := by
      rw [BaseNode.tickOutput,if_pos rfl,OutputQueue.tick,atPort_bind]
      rfl
    dsimp only
    rw [tree,inEnvironment_bind]
    simp only [inEnvironment_call,inEnvironment_done,sends_append,Bool.true_and]
    refine ⟨sent,?_,?_⟩
    · rw [logged]
      simp [sends,quota]
    · intro other different
      rw [others other different]
      simp [sends]

/-- A queue that was ticked ahead from the cycle `curr` to the cycle `ahead`, at most up to
    `limit`: what it sent are bursts, and it stopped early only without a full bandwidth. -/
structure RanAhead (ready : Nat → Bool) (curr limit : Nat) (oq oq' : OutputQueue) (ahead : Nat) (sent : List (Nat × Packet)) :
    Prop where
  bursts : Bursts ready oq.outBandwidth curr ahead sent
  packets : oq.packets = sent.map Prod.snd ++ oq'.packets
  capacity : oq'.capacity = oq.capacity
  outBandwidth : oq'.outBandwidth = oq.outBandwidth
  within : ahead ≤ limit
  drained : ahead = limit ∨ oq'.packets.length < oq.outBandwidth

theorem RanAhead.stay {ready : Nat → Bool} {curr limit : Nat} {oq : OutputQueue} (within : curr ≤ limit)
    (drained : curr = limit ∨ oq.packets.length < oq.outBandwidth) : RanAhead ready curr limit oq oq curr [] :=
  ⟨.none curr,rfl,rfl,rfl,within,drained⟩

/-- Ticking ahead sends bursts until a full bandwidth is no longer waiting. -/
theorem run_tickAhead (connected : Bool) (i cycle : Nat) : ∀ (remaining curr : Nat) (oq : OutputQueue), cycle < curr →
    let run := inEnvironment env (BaseNode.tickAhead connected i cycle remaining curr curr oq)
    RanAhead (fun cycle => connected && env.ready i cycle) curr (curr + remaining) oq run.1.1 run.1.2 (sends i run.2) ∧
      ∀ other, other ≠ i → sends other run.2 = [] := by
  intro remaining
  induction remaining with
  | zero => exact fun curr oq _ => ⟨.stay (Nat.le_refl _) (.inl rfl),fun _ _ => rfl⟩
  | succ remaining ih =>
    intro curr oq later
    dsimp only
    rw [BaseNode.tickAhead]
    split
    · next few =>
      refine ⟨.stay (Nat.le_add_right ..) (.inr ?_),fun _ _ => rfl⟩
      rw [oq.length_packets]
      exact few.2
    · next full =>
      have enough : oq.outBandwidth ≤ oq.packets.length := by
        rw [oq.length_packets]
        exact Nat.not_lt.mp fun few => full ⟨later,few⟩
      obtain ⟨sent,logged,others⟩ := @run_tickOutput env i curr connected oq
      rw [inEnvironment_bind]
      generalize inEnvironment env (BaseNode.tickOutput connected i curr oq) = first at sent logged others ⊢
      obtain ⟨rest,others'⟩ := ih (curr + 1) first.1 (by omega)
      generalize inEnvironment env (BaseNode.tickAhead connected i cycle remaining (curr + 1) (curr + 1) first.1) = second
        at rest others' ⊢
      have bursts := rest.bursts
      rw [sent.outBandwidth] at bursts
      rw [sends_append,logged]
      refine ⟨⟨?_,?_,rest.capacity.trans sent.capacity,rest.outBandwidth.trans sent.outBandwidth,?_,?_⟩,?_⟩
      · cases isReady : (connected && env.ready i curr) with
        | true =>
          rw [quota,if_pos rfl]
          exact .burst _ isReady (by rw [List.length_take,Nat.min_eq_left enough]) bursts
        | false =>
          rw [quota,if_neg Bool.false_ne_true]
          exact .skip isReady bursts
      · rw [List.map_append,List.append_assoc,← rest.packets,sent.packets,List.map_map]
        simp [Function.comp_def]
      · have within := rest.within
        show second.1.2 ≤ _
        omega
      · show second.1.2 = _ ∨ second.1.1.packets.length < _
        rw [← sent.outBandwidth]
        exact rest.drained.imp (fun last => by omega) id
      · intro other different
        rw [sends_append,others other different,others' other different]
        rfl

/-- What ticking an output queue in a cycle does: it sends for this cycle, unless it is ahead
    of it, and then goes ahead. -/
def Ticked (ready : Nat → Bool) (cycle target : Nat) (oq : OutputQueue) (ahead : Nat) (oq' : OutputQueue) (ahead' : Nat)
    (sent : List (Nat × Packet)) : Prop :=
  let count := if ahead ≤ cycle then quota (ready cycle) oq.outBandwidth else 0
  ∃ mid more, Sent oq mid count ∧ sent = (oq.packets.take count).map (cycle,·) ++ more ∧
    RanAhead ready (max (cycle + 1) ahead) (max ahead (target + 1)) mid oq' ahead' more

/-- One output queue in a cycle. -/
theorem run_tickOutputQueue (connected : Bool) (i : Nat) {target ahead : Nat} (oq : OutputQueue) (within : cycle ≤ target) :
    let start := max cycle ahead
    let run := inEnvironment env (BaseNode.tickAhead connected i cycle (target + 1 - start) start ahead oq)
    Ticked (fun cycle => connected && env.ready i cycle) cycle target oq ahead run.1.1 run.1.2 (sends i run.2) ∧
      ∀ other, other ≠ i → sends other run.2 = [] := by
  dsimp only
  by_cases behind : ahead ≤ cycle
  · rw [Nat.max_eq_left behind]
    obtain ⟨remaining,left⟩ : ∃ remaining, target + 1 - cycle = remaining + 1 := ⟨target - cycle,by omega⟩
    rw [left,BaseNode.tickAhead,if_neg (fun future => Nat.lt_irrefl cycle future.1),inEnvironment_bind]
    obtain ⟨sent,logged,others⟩ := @run_tickOutput env i cycle connected oq
    generalize inEnvironment env (BaseNode.tickOutput connected i cycle oq) = first at sent logged others ⊢
    obtain ⟨rest,others'⟩ := @run_tickAhead env connected i cycle remaining (cycle + 1) first.1 (Nat.lt_succ_self _)
    refine ⟨?_,?_⟩
    · unfold Ticked
      rw [if_pos behind,Nat.max_eq_left (by omega : ahead ≤ cycle + 1),Nat.max_eq_right (by omega : ahead ≤ target + 1)]
      refine ⟨first.1,_,sent,by rw [sends_append,logged],?_⟩
      rwa [show cycle + 1 + remaining = target + 1 by omega] at rest
    · intro other different
      rw [sends_append,others other different,others' other different]
      rfl
  · rw [Nat.max_eq_right (by omega : cycle ≤ ahead)]
    obtain ⟨rest,others⟩ := @run_tickAhead env connected i cycle (target + 1 - ahead) ahead oq (by omega)
    refine ⟨?_,others⟩
    unfold Ticked
    rw [if_neg behind,Nat.max_eq_right (by omega : cycle + 1 ≤ ahead)]
    refine ⟨oq,_,.refl oq,by rw [List.take_zero]; rfl,?_⟩
    rwa [show ahead + (target + 1 - ahead) = max ahead (target + 1) by omega] at rest

/-- Every output queue in a cycle. -/
theorem run_tickOutputQueues (connected : NodePort → Bool) {target : Nat} (within : cycle ≤ target) :
    ∀ (outputs : List OutputQueue) (aheads : List Nat) (i : Nat),
    let run := inEnvironment env (BaseNode.tickOutputQueues connected cycle target i outputs aheads)
    (∀ other, other < i → sends other run.2 = []) ∧
      ∀ k oq ahead, outputs[k]? = some oq → aheads[k]? = some ahead → ∃ oq' ahead', run.1.1[k]? = some oq' ∧
        run.1.2[k]? = some ahead' ∧ Ticked (fun cycle => connected (.output (i + k)) && env.ready (i + k) cycle)
          cycle target oq ahead oq' ahead' (sends (i + k) run.2)
  | [], aheads, i => ⟨fun _ _ => by simp [BaseNode.tickOutputQueues],fun k oq ahead found => by simp at found⟩
  | oq :: outputs, [], i => ⟨fun _ _ => by simp [BaseNode.tickOutputQueues],fun k oq ahead _ found => by simp at found⟩
  | oq :: outputs, ahead :: aheads, i => by
    obtain ⟨first,others⟩ := @run_tickOutputQueue env cycle (connected (.output i)) i _ ahead oq within
    obtain ⟨before,later⟩ := run_tickOutputQueues connected within outputs aheads (i + 1)
    dsimp only
    rw [BaseNode.tickOutputQueues]
    simp only [inEnvironment_bind,Prog.pure_eq,inEnvironment_done,List.append_nil]
    generalize inEnvironment env (BaseNode.tickAhead (connected (.output i)) i cycle (target + 1 - max cycle ahead)
      (max cycle ahead) ahead oq) = one at first others ⊢
    generalize inEnvironment env (BaseNode.tickOutputQueues connected cycle target (i + 1) outputs aheads) = rest
      at before later ⊢
    refine ⟨?_,?_⟩
    · intro other lower
      rw [sends_append,others other (by omega),before other (by omega)]
      rfl
    · intro k found ahead' at_k ahead_k
      rw [sends_append]
      cases k with
      | zero =>
        obtain rfl : oq = found := Option.some.inj at_k
        obtain rfl : ahead = ahead' := Option.some.inj ahead_k
        refine ⟨one.1.1,one.1.2,rfl,rfl,?_⟩
        rw [Nat.add_zero,before i (Nat.lt_succ_self i),List.append_nil]
        exact first
      | succ k =>
        obtain ⟨oq',ahead',at_k',ahead_k',ticked⟩ := later k found ahead' at_k ahead_k
        refine ⟨oq',ahead',at_k',ahead_k',?_⟩
        rw [others (i + (k + 1)) (by omega),List.nil_append,show i + (k + 1) = i + 1 + k by omega]
        exact ticked

/-! ### The ticks of the input queues -/

/-- What a node does at the port of an input queue is no send. -/
theorem sends_atPort_input {α : Type} (i : Nat) (p : Prog portInterface α) :
    sends queue (inEnvironment env (atPort (.input i) p)).2 = [] := by
  induction p with
  | done value => rfl
  | call op next ih =>
    rw [atPort,inEnvironment_call]
    exact ih _

theorem sends_tickInput (connected : Bool) (i : Nat) (iq : InputQueue) :
    sends queue (inEnvironment env (BaseNode.tickInput connected i cycle iq)).2 = [] := by
  unfold BaseNode.tickInput
  split
  · exact sends_atPort_input i _
  · rfl

theorem sends_tickInputQueues (sortSlice : SliceSort) (connected : NodePort → Bool) : ∀ (inputs : List InputQueue) (i : Nat),
    sends queue (inEnvironment env (BaseNode.tickInputQueues sortSlice connected cycle i inputs)).2 = []
  | [], _ => rfl
  | iq :: rest, i => by
    rw [BaseNode.tickInputQueues,inEnvironment_bind,sends_append,sends_tickInput,List.nil_append]
    rcases (inEnvironment env (BaseNode.tickInput (connected (.input i)) i cycle iq)).1 with ⟨error | error,iq'⟩
    · simp only [inEnvironment_bind,sends_append,sends_tickInputQueues sortSlice connected rest (i + 1),List.nil_append]
      rfl
    · rfl

/-- Nothing can go wrong when nothing arrives. -/
theorem run_tickInputQueues_quiet (sortSlice : SliceSort) (connected : NodePort → Bool)
    (quiet : ∀ i, env.arrivals i cycle = []) : ∀ (inputs : List InputQueue) (i : Nat),
    (inEnvironment env (BaseNode.tickInputQueues sortSlice connected cycle i inputs)).1.1 = none
  | [], _ => rfl
  | iq :: rest, i => by
    have received : (inEnvironment env (BaseNode.tickInput (connected (.input i)) i cycle iq)).1.1 = none := by
      unfold BaseNode.tickInput
      split
      · have arrived : (inEnvironment env (atPort (.input i) (receive cycle))).1 = [] := quiet i
        rw [InputQueue.tick,atPort_bind,inEnvironment_bind,arrived]
        simp [InputQueue.storeAll,atPort]
      · rfl
    rw [BaseNode.tickInputQueues,inEnvironment_bind]
    rcases fine : (inEnvironment env (BaseNode.tickInput (connected (.input i)) i cycle iq)).1 with ⟨error,iq'⟩
    rw [fine] at received
    obtain rfl : error = none := received
    simp only [inEnvironment_bind]
    exact run_tickInputQueues_quiet sortSlice connected quiet rest (i + 1)

end
end FlowSim.Node
