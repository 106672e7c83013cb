import FlowSim.Links.BufferedTick

/-!
The bufferless link type: every packet is offered downstream in the cycle in which it is
received, and a packet that is refused is offered again in the next cycle. `Delayed.tick`
says what a session of such a link keeps.
-/
namespace FlowSim.Links
open FlowSim.Lib FlowSim.AheadPort
set_option linter.unusedSimpArgs false

/-- A bufferless link type, with the packets that were refused, by the cycle in which they
    are offered again. -/
structure BufferlessLinkType where
  pending : AList (fun _ : Nat => List PacketWithCycle)
deriving DecidableEq

namespace BufferlessLinkType

def newBufferlessLinkType : BufferlessLinkType := ⟨∅⟩

/-- The packets that are offered again in the cycle. -/
def waiting (h : BufferlessLinkType) (cycle : Nat) : List PacketWithCycle := (h.pending.lookup cycle).getD []

def addToPending (h : BufferlessLinkType) (cycle : Nat) (pkt : Packet) : BufferlessLinkType :=
  ⟨h.pending.insert cycle (h.waiting cycle ++ [⟨cycle,pkt⟩])⟩

def sendPacket (targetCycle : Nat) (pkt : Packet) : Prog portInterface Bool := trySend targetCycle ⟨targetCycle,pkt⟩

/-- Sends a packet, or keeps it for the next cycle. -/
def offer (cycle : Nat) (h : BufferlessLinkType) (pkt : Packet) : Prog portInterface BufferlessLinkType := do
  if ← sendPacket cycle pkt then return h else return h.addToPending (cycle + 1) pkt

/-- Offers the packets that wait for this cycle. -/
def retry (h : BufferlessLinkType) (cycle : Nat) : Prog portInterface BufferlessLinkType :=
  if h.waiting cycle = [] then return h
  else ((h.waiting cycle).map PacketWithCycle.packet).foldlM (offer cycle) ⟨h.pending.erase cycle⟩

def process (h : BufferlessLinkType) (cycle _targetCycle : Nat) (incoming : List Packet) :
    Prog linkPorts (Option BufferlessLinkType) := do
  let h ← atEnd .downstream (h.retry cycle)
  let h ← atEnd .downstream (incoming.foldlM (offer cycle) h)
  atEnd .upstream (updateReady (cycle + 1) true)
  return some h

/-- Only cycle 0 is promised. -/
def init (_h : BufferlessLinkType) : Prog linkPorts Unit := atEnd .upstream (updateReady 0 true)

def reset (_h : BufferlessLinkType) : BufferlessLinkType := newBufferlessLinkType

def linkType : LinkType BufferlessLinkType := { init, process }

/-- How far ahead the cycles of the packets are that wait; cycles that are over do not count. -/
def offsets (h : BufferlessLinkType) (currentCycle : Nat) : List Nat :=
  (h.pending.keys.filter (fun targetCycle => decide (currentCycle ≤ targetCycle))).map (· - currentCycle)

/-- The packets that wait, by how far ahead their cycle is. -/
def getOccupancy (h : BufferlessLinkType) (currentCycle : Nat) : List Nat :=
  if h.offsets currentCycle = [] then []
  else (List.range ((h.offsets currentCycle).foldl max 0 + 1)).map fun offset => (h.waiting (currentCycle + offset)).length

/-! ### The packets that wait -/

section
variable (h : BufferlessLinkType) (cycle : Nat) (pkt : Packet)

@[simp] theorem waiting_new : newBufferlessLinkType.waiting cycle = [] := rfl

@[simp] theorem waiting_addToPending : (h.addToPending cycle pkt).waiting cycle = h.waiting cycle ++ [⟨cycle,pkt⟩] := by
  unfold waiting addToPending
  rw [AList.lookup_insert]
  rfl

theorem waiting_addToPending_ne {k : Nat} (other : k ≠ cycle) : (h.addToPending cycle pkt).waiting k = h.waiting k := by
  unfold waiting addToPending
  rw [AList.lookup_insert_ne other]

@[simp] theorem waiting_erase : waiting ⟨h.pending.erase cycle⟩ cycle = [] := by
  unfold waiting
  rw [AList.lookup_erase]
  rfl

theorem waiting_erase_ne {k : Nat} (other : k ≠ cycle) : waiting ⟨h.pending.erase cycle⟩ k = h.waiting k := by
  unfold waiting
  rw [AList.lookup_erase_ne other]

/-- When all packets wait for the current cycle, their number is the occupancy. -/
theorem getOccupancy_sum (now : ∀ k, k ≠ cycle → h.waiting k = []) : (h.getOccupancy cycle).sum = (h.waiting cycle).length := by
  unfold getOccupancy
  by_cases nothing : h.offsets cycle = []
  · rw [if_pos nothing]
    by_contra some_
    have waits : h.waiting cycle ≠ [] := fun empty => some_ (by rw [empty]; rfl)
    have key : cycle ∈ h.pending.keys := by
      rw [← AList.mem_keys,← AList.lookup_isSome]
      unfold waiting at waits
      rcases found : h.pending.lookup cycle with _ | pkts
      · rw [found] at waits
        exact absurd rfl waits
      · rfl
    have offset : cycle - cycle ∈ h.offsets cycle :=
      List.mem_map.mpr ⟨cycle,List.mem_filter.mpr ⟨key,decide_eq_true (Nat.le_refl _)⟩,rfl⟩
    rw [nothing] at offset
    cases offset
  · rw [if_neg nothing,List.range_succ_eq_map,List.map_cons,List.sum_cons,Nat.add_zero]
    have others : ((List.map Nat.succ (List.range ((h.offsets cycle).foldl max 0))).map
        fun offset => (h.waiting (cycle + offset)).length).sum = 0 := by
      refine List.sum_eq_zero fun n member => ?_
      obtain ⟨offset,ahead,rfl⟩ := List.mem_map.mp member
      obtain ⟨before,_,rfl⟩ := List.mem_map.mp ahead
      rw [now _ (by omega)]
      rfl
    rw [others,Nat.add_zero]

end

/-! ### Offering packets -/

/-- The number of packets sent or kept for the next cycle has grown by `n`. -/
structure Offered (cycle n : Nat) (h : BufferlessLinkType) (w : LinkWorld) (h' : BufferlessLinkType) (w' : LinkWorld) : Prop where
  received : w'.received = w.received
  counted : (h'.waiting (cycle + 1)).length + w'.sent.length = (h.waiting (cycle + 1)).length + w.sent.length + n
  others : ∀ k, k ≠ cycle + 1 → h'.waiting k = h.waiting k

section
variable {cycle n m : Nat} {h h₁ h₂ : BufferlessLinkType} {w w₁ w₂ : LinkWorld}

theorem Offered.trans (first : Offered cycle n h w h₁ w₁) (second : Offered cycle m h₁ w₁ h₂ w₂) :
    Offered cycle (n + m) h w h₂ w₂ where
  received := second.received.trans first.received
  counted := by
    have one := first.counted
    have two := second.counted
    omega
  others := fun k other => (second.others k other).trans (first.others k other)

theorem offered_offer {pkt : Packet} (ran : (atEnd .downstream (offer cycle h pkt)).runWith LinkWorld.exec w = some (h₁,w₁)) :
    Offered cycle 1 h w h₁ w₁ := by
  unfold offer sendPacket trySend at ran
  rw [atEnd_bind,Prog.runWith_bind,atEnd_bind,Prog.runWith_bind,run_isReady] at ran
  rcases decided : w.down.decision cycle with _ | ready
  · rw [decided] at ran
    cases ran
  · rw [decided] at ran
    cases ready with
    | true =>
      cases ran
      refine ⟨rfl,?_,fun _ _ => rfl⟩
      show _ + (w.sent ++ [_]).length = _
      rw [List.length_append,List.length_singleton]
      omega
    | false =>
      cases ran
      refine ⟨rfl,?_,fun k other => waiting_addToPending_ne _ _ _ other⟩
      rw [waiting_addToPending,List.length_append,List.length_singleton]
      show _ + w.sent.length = _
      omega

theorem offered_offerAll : ∀ {pkts : List Packet} {h : BufferlessLinkType} {w : LinkWorld},
    (atEnd .downstream (pkts.foldlM (offer cycle) h)).runWith LinkWorld.exec w = some (h₁,w₁) →
      Offered cycle pkts.length h w h₁ w₁
  | [], h, w, ran => by
    cases ran
    exact ⟨rfl,rfl,fun _ _ => rfl⟩
  | pkt :: rest, h, w, ran => by
    rw [List.foldlM_cons,atEnd_bind,Prog.runWith_bind] at ran
    obtain ⟨⟨h',w'⟩,one,others⟩ := Option.bind_eq_some_iff.mp ran
    rw [List.length_cons,Nat.add_comm]
    exact (offered_offer one).trans (offered_offerAll others)

/-- The packets that wait for this cycle are sent or kept for the next. -/
theorem offered_retry (ran : (atEnd .downstream (h.retry cycle)).runWith LinkWorld.exec w = some (h₁,w₁)) :
    Offered cycle (h.waiting cycle).length ⟨h.pending.erase cycle⟩ w h₁ w₁ := by
  unfold retry at ran
  split at ran
  · next nothing =>
    cases ran
    refine ⟨rfl,?_,fun k _ => ?_⟩
    · rw [nothing,waiting_erase_ne _ _ (by omega)]
      rfl
    · by_cases here : k = cycle
      · rw [here,waiting_erase,nothing]
      · exact (waiting_erase_ne _ _ here).symm
  · have offered := offered_offerAll ran
    rwa [List.length_map] at offered

/-- A cycle of a link all of whose packets wait for that cycle. -/
theorem process_spec (targetCycle : Nat) {incoming : List Packet} {answer : Option BufferlessLinkType}
    (now : ∀ k, k ≠ cycle → h.waiting k = [])
    (ran : (h.process cycle targetCycle incoming).runWith LinkWorld.exec w = some (answer,w₁)) :
    ∃ h', answer = some h' ∧ w₁.received = w.received ∧ (∀ k, k ≠ cycle + 1 → h'.waiting k = []) ∧
      (h'.waiting (cycle + 1)).length + w₁.sent.length = (h.waiting cycle).length + incoming.length + w.sent.length := by
  unfold process at ran
  rw [Prog.runWith_bind] at ran
  obtain ⟨⟨first,one⟩,retried,ran⟩ := Option.bind_eq_some_iff.mp ran
  dsimp only at ran
  rw [Prog.runWith_bind] at ran
  obtain ⟨⟨second,two⟩,offered,ran⟩ := Option.bind_eq_some_iff.mp ran
  dsimp only at ran
  rw [Prog.runWith_bind,run_updateReady] at ran
  obtain ⟨⟨_,three⟩,signalled,ran⟩ := Option.bind_eq_some_iff.mp ran
  obtain ⟨⟨_,up⟩,_,same⟩ := Option.map_eq_some_iff.mp signalled
  cases same
  cases ran
  have both := (offered_retry retried).trans (offered_offerAll offered)
  refine ⟨second,rfl,both.received,fun k other => ?_,?_⟩
  · rw [both.others k other]
    by_cases here : k = cycle
    · rw [here,waiting_erase]
    · rw [waiting_erase_ne _ _ here,now k here]
  · have counted := both.counted
    rw [waiting_erase_ne _ _ (by omega),now _ (by omega),List.length_nil] at counted
    show _ + two.sent.length = _
    omega

end
end BufferlessLinkType

/-! ### Sessions -/

namespace LinkSession
open BufferlessLinkType

/-- What holds between the cycles of a bufferless link: the packets that it has received and
    not sent all wait for the next cycle. -/
structure Delayed (s : LinkSession BufferlessLinkType) : Prop where
  now : ∀ k, k ≠ s.link.currentCycle → s.link.state.waiting k = []
  counted : (s.link.state.waiting s.link.currentCycle).length + s.world.sent.length = s.world.received.length

variable {s s' : LinkSession BufferlessLinkType}

theorem delayed_connect {latency : Nat} (connected : connect linkType latency newBufferlessLinkType = some s) : s.Delayed := by
  obtain ⟨⟨_,world⟩,ran,rfl⟩ := Option.map_eq_some_iff.mp connected
  change (atEnd .upstream (updateReady 0 true)).runWith LinkWorld.exec .new = _ at ran
  rw [run_updateReady] at ran
  obtain ⟨_,_,same⟩ := Option.map_eq_some_iff.mp ran
  cases same
  exact ⟨fun _ _ => rfl,rfl⟩

theorem Delayed.tick {targetCycle : Nat} (delayed : s.Delayed) (stepped : s.step linkType (.tick targetCycle) = some s') :
    s'.Delayed := by
  rw [step] at stepped
  split at stepped
  · next link world ran =>
    rw [← Option.some.inj stepped]
    rw [Link.tick,Prog.runWith_bind] at ran
    by_cases arrived : s.Arrived
    · rw [run_incoming s arrived,Option.bind_some] at ran
      dsimp only at ran
      rw [Prog.runWith_bind] at ran
      obtain ⟨⟨answer,after⟩,processed,ran⟩ := Option.bind_eq_some_iff.mp ran
      obtain ⟨h,rfl,received,others,counted⟩ := process_spec targetCycle delayed.now processed
      cases ran
      refine ⟨others,?_⟩
      have before := delayed.counted
      show (h.waiting (s.link.currentCycle + 1)).length + after.sent.length = after.received.length
      rw [received]
      show _ = (s.world.received ++ s.arriving).length
      rw [List.length_append,counted]
      show _ + s.world.sent.length = _
      omega
    · rw [run_incoming_blocked s arrived] at ran
      cases ran
  · cases stepped

theorem Delayed.step {action : LinkAction} (delayed : s.Delayed) (stepped : s.step linkType action = some s') : s'.Delayed := by
  cases action with
  | tick targetCycle => exact delayed.tick stepped
  | upstream op =>
    obtain ⟨_,_,_,_,rfl⟩ := step_upstream.mp stepped
    exact ⟨delayed.now,delayed.counted⟩
  | downstream op =>
    obtain ⟨_,_,_,_,rfl⟩ := step_downstream.mp stepped
    exact ⟨delayed.now,delayed.counted⟩

end LinkSession
end FlowSim.Links
