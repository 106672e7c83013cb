import FlowSim.Node.BaseNode

/-!
How large the queues of a node are. Capacities and bandwidths are given once: whatever
the ports answer and whatever the handler does, they stay as they are
(`BaseNode.always_advanceTo`).
-/
namespace FlowSim.Node
open FlowSim.Lib FlowSim.AheadPort FlowSim.Queue
set_option linter.unusedSimpArgs false

/-- What holds of all that a program can return, whatever it is answered. -/
abbrev Always {I : Interface} {α : Type} (p : Prog I α) (P : α → Prop) : Prop :=
  Keeps (allowing fun _ => True) p (fun _ => P) ()

theorem always_true {I : Interface} {α : Type} (p : Prog I α) : Always p fun _ => True := by
  induction p with
  | done value => trivial
  | call op next ih => exact ⟨trivial,fun answer _ => ih answer⟩

theorem always_atPort {α : Type} {P : α → Prop} (port : NodePort) {p : Prog portInterface α} (always : Always p P) :
    Always (atPort port p) P := by
  induction p with
  | done value => exact always
  | call op next ih => exact ⟨trivial,fun answer _ => ih answer (always.2 answer trivial)⟩

/-! ### One queue -/

/-- Capacity and bandwidth. -/
def sizeIn (iq : InputQueue) : Nat × Nat := (iq.capacity,iq.inBandwidth)

def sizeOut (oq : OutputQueue) : Nat × Nat := (oq.capacity,oq.outBandwidth)

theorem sizeIn_storeAll (cycle : Nat) : ∀ (pkts : List Packet) (iq : InputQueue),
    sizeIn (InputQueue.storeAll cycle pkts iq).2 = sizeIn iq
  | [], _ => rfl
  | pkt :: rest, iq => by
    unfold InputQueue.storeAll
    rcases stored : iq.store cycle pkt with _ | iq'
    · rfl
    · obtain ⟨_,_,capacity,bandwidth,_⟩ := InputQueue.store_eq_some stored
      exact (sizeIn_storeAll cycle rest iq').trans (by rw [sizeIn,sizeIn,capacity,bandwidth])

theorem always_updateUpstream (iq : InputQueue) (cycle : Nat) :
    Always (iq.updateUpstream cycle) fun iq' => sizeIn iq' = sizeIn iq := by
  unfold InputQueue.updateUpstream
  split
  · exact ⟨trivial,fun _ _ => rfl⟩
  · exact (always_true _).bind fun _ _ _ => rfl

theorem always_inputTick (iq : InputQueue) (cycle : Nat) : Always (iq.tick cycle) fun r => sizeIn r.2 = sizeIn iq := by
  refine (always_true (receive cycle)).bind fun _ pkts _ => ?_
  have stored := sizeIn_storeAll cycle pkts iq
  dsimp only
  generalize InputQueue.storeAll cycle pkts iq = result at stored ⊢
  rcases result with ⟨_ | error,iq'⟩
  · refine (always_updateUpstream { iq' with lastCyclePackets := pkts } cycle).bind ?_
    exact fun _ _ same => same.trans stored
  · exact stored

theorem always_sendUpTo (cycle : Nat) : ∀ (left : Nat) (oq : OutputQueue),
    Always (OutputQueue.sendUpTo cycle left oq) fun oq' => sizeOut oq' = sizeOut oq
  | 0, _ => rfl
  | left + 1, oq => by
    unfold OutputQueue.sendUpTo
    by_cases some_left : 0 < oq.count
    · rw [dif_pos some_left]
      refine (always_true (trySend cycle _)).bind fun _ sent _ => ?_
      cases sent with
      | true => exact (always_sendUpTo cycle left _).mono fun _ _ same => same
      | false => exact rfl
    · rw [dif_neg some_left]
      exact rfl

theorem always_outputTick (oq : OutputQueue) (cycle : Nat) : Always (oq.tick cycle) fun oq' => sizeOut oq' = sizeOut oq :=
  (always_sendUpTo cycle oq.outBandwidth oq).bind fun _ _ same => ⟨trivial,fun _ _ => same⟩

/-! ### The queues of a node -/

/-- The sizes of all queues, inputs and outputs. -/
def Queues.sizes (qs : Queues) : List (Nat × Nat) × List (Nat × Nat) := (qs.inputs.map sizeIn,qs.outputs.map sizeOut)

theorem map_modify_same {α β : Type} {f : α → β} {change : α → α} (same : ∀ x, f (change x) = f x) (xs : List α)
    (i : Nat) : (xs.modify i change).map f = xs.map f := by
  apply List.ext_getElem?
  intro j
  rw [List.getElem?_map,List.getElem?_map,List.getElem?_modify]
  split <;> rcases xs[j]? with _ | x <;> simp [same]

/-- Nothing a handler does to the queues changes their sizes. -/
theorem sizes_exec (qs : Queues) (op : NodeOp) : (qs.exec op).2.sizes = qs.sizes := by
  cases op with
  | queues => rfl
  | free queue slot =>
    have same : (qs.inputs.modify queue fun iq => iq.free slot).map sizeIn = qs.inputs.map sizeIn :=
      map_modify_same (fun iq => by simp [sizeIn]) qs.inputs queue
    exact Prod.ext same rfl
  | block queue slot reason =>
    have same : (qs.inputs.modify queue fun iq => iq.block slot reason).map sizeIn = qs.inputs.map sizeIn := by
      refine map_modify_same (fun iq => ?_) qs.inputs queue
      have roomier := InputQueue.roomier_block iq slot reason
      exact Prod.ext roomier.capacity roomier.inBandwidth
    exact Prod.ext same rfl
  | injectPackets output cycle pkts =>
    show (qs.injectPackets output cycle pkts).2.sizes = qs.sizes
    unfold Queues.injectPackets
    rcases found : qs.outputs[output]? with _ | oq
    · rfl
    · refine Prod.ext rfl ?_
      show (qs.outputs.set output (oq.injectPackets cycle pkts).2).map sizeOut = qs.outputs.map sizeOut
      have same : sizeOut (oq.injectPackets cycle pkts).2 = sizeOut oq :=
        Prod.ext (oq.capacity_injectPackets cycle pkts) (oq.outBandwidth_injectPackets cycle pkts)
      obtain ⟨inside,rfl⟩ := List.getElem?_eq_some_iff.mp found
      rw [List.map_set,same,← List.getElem_map sizeOut (h := by simpa using inside),List.set_getElem_self]

theorem always_tickInputQueues (sortSlice : SliceSort) (connected : NodePort → Bool) (cycle : Nat) :
    ∀ (i : Nat) (inputs : List InputQueue), Always (BaseNode.tickInputQueues sortSlice connected cycle i inputs)
      fun r => r.2.1.map sizeIn = inputs.map sizeIn
  | _, [] => rfl
  | i, iq :: rest => by
    have ticked : Always (BaseNode.tickInput (connected (.input i)) i cycle iq) fun r => sizeIn r.2 = sizeIn iq := by
      unfold BaseNode.tickInput
      split
      · exact always_atPort _ (always_inputTick iq cycle)
      · exact rfl
    refine ticked.bind ?_
    rintro _ ⟨_ | error,iq'⟩ same
    · refine (always_tickInputQueues sortSlice connected cycle (i + 1) rest).bind ?_
      rintro _ ⟨error,rest',refs⟩ others
      exact congrArg₂ List.cons same others
    · exact congrArg (· :: rest.map sizeIn) same

theorem always_tickAhead (connected : Bool) (i cycle : Nat) : ∀ (remaining curr ahead : Nat) (oq : OutputQueue),
    Always (BaseNode.tickAhead connected i cycle remaining curr ahead oq) fun r => sizeOut r.1 = sizeOut oq
  | 0, _, _, _ => rfl
  | remaining + 1, curr, ahead, oq => by
    unfold BaseNode.tickAhead
    split
    · exact rfl
    · have ticked : Always (BaseNode.tickOutput connected i curr oq) fun oq' => sizeOut oq' = sizeOut oq := by
        unfold BaseNode.tickOutput
        split
        · exact always_atPort _ (always_outputTick oq curr)
        · exact rfl
      refine ticked.bind fun _ oq' same => ?_
      exact (always_tickAhead connected i cycle remaining (curr + 1) (curr + 1) oq').mono fun _ _ later => later.trans same

theorem always_tickOutputQueues (connected : NodePort → Bool) (cycle advanceTarget : Nat) :
    ∀ (i : Nat) (outputs : List OutputQueue) (aheads : List Nat),
      Always (BaseNode.tickOutputQueues connected cycle advanceTarget i outputs aheads)
        fun r => r.1.map sizeOut = outputs.map sizeOut
  | _, [], _ => rfl
  | _, _ :: _, [] => rfl
  | i, oq :: outputs, ahead :: aheads => by
    refine (always_tickAhead (connected (.output i)) i cycle _ _ ahead oq).bind ?_
    rintro _ ⟨oq',ahead'⟩ same
    refine (always_tickOutputQueues connected cycle advanceTarget (i + 1) outputs aheads).bind ?_
    rintro _ ⟨outputs',aheads'⟩ others
    exact congrArg₂ List.cons same others

/-! ### A node in time -/

namespace BaseNode
variable {σ : Type} {handler : Handler σ} {sortSlice : SliceSort}

/-- What of a node is given once. -/
def Alike (n n' : BaseNode σ) : Prop := n'.id = n.id ∧ n'.queues.sizes = n.queues.sizes

theorem Alike.trans {n n' n'' : BaseNode σ} (first : Alike n n') (second : Alike n' n'') : Alike n n'' :=
  ⟨second.1.trans first.1,second.2.trans first.2⟩

theorem always_tick (n : BaseNode σ) (cycle : Nat) : Always (n.tick handler sortSlice cycle) fun r => Alike n r.2 := by
  refine (always_tickInputQueues sortSlice n.connected cycle 0 n.queues.inputs).bind ?_
  rintro _ ⟨_ | error,inputs,refs⟩ received
  · have processed := runOn_preserves (P := fun qs => qs.sizes = n.queues.sizes)
      (fun qs op same => (sizes_exec qs op).trans same) (handler cycle n.state refs)
      (show Queues.sizes { n.queues with inputs } = n.queues.sizes from Prod.ext received rfl)
    dsimp only
    generalize runOn (handler cycle n.state refs) { n.queues with inputs } = result at processed ⊢
    rcases result with ⟨⟨_ | error,state⟩,queues⟩
    · refine (always_tickOutputQueues n.connected cycle n.advanceTarget 0 queues.outputs n.outputQueueAhead).bind ?_
      rintro _ ⟨outputs,ahead⟩ sent
      exact ⟨rfl,(Prod.ext rfl sent : Queues.sizes { queues with outputs } = queues.sizes).trans processed⟩
    · exact ⟨rfl,processed⟩
  · exact ⟨rfl,Prod.ext received rfl⟩

theorem always_advanceLoop : ∀ (remaining : Nat) (n : BaseNode σ),
    Always (advanceLoop handler sortSlice remaining n) fun r => Alike n r.2
  | 0, _ => ⟨rfl,rfl⟩
  | remaining + 1, n => by
    refine (always_tick n n.currentCycle).bind ?_
    rintro _ ⟨_ | error,n'⟩ same
    · exact (always_advanceLoop remaining { n' with currentCycle := n'.currentCycle + 1 }).mono fun _ _ later =>
        same.trans later
    · exact same

/-- However far a node advances, its queues keep their sizes. -/
theorem always_advanceTo (n : BaseNode σ) (targetCycle : Nat) :
    Always (n.advanceTo handler sortSlice targetCycle) fun r => Alike n r.2 := by
  unfold advanceTo
  split
  · exact ⟨rfl,rfl⟩
  · exact always_advanceLoop _ _

end BaseNode
end FlowSim.Node
