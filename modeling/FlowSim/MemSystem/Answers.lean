import FlowSim.MemSystem.Nodes
import FlowSim.Node.Chunking

/-!
What becomes of the packets that the handlers of the memory system take. A handler
answers a packet with at most one packet of its own, and neither frees nor keeps an
input packet because of what an output queue says; so what it does to the queues can be
told from its state and its inputs.
-/
namespace FlowSim.MemSystem
open FlowSim.Lib FlowSim.Node FlowSim.Queue
set_option linter.unusedSimpArgs false

/-! ### Answers -/

section
variable {σ : Type}

/-- What a packet comes to: an error, or nothing or a packet for an output. -/
abbrev Answer (σ : Type) := σ → Packet → Except String (Option (Nat × Packet)) × σ

/-- How far a handler came: the packets it took, each with its answer. -/
structure Taking (σ : Type) where
  error : Option String
  state : σ
  taken : List (PacketRef × Option (Nat × Packet))

def Taking.andThen (t : Taking σ) (next : σ → Taking σ) : Taking σ :=
  match t.error with
  | some _ => t
  | none => { next t.state with taken := t.taken ++ (next t.state).taken }

def takeInputs (answer : Answer σ) : σ → List PacketRef → Taking σ
  | h, [] => ⟨none,h,[]⟩
  | h, ref :: refs =>
    match answer h ref.packet with
    | (.error err,h) => ⟨some err,h,[]⟩
    | (.ok sent,h) => { takeInputs answer h refs with taken := (ref,sent) :: (takeInputs answer h refs).taken }

def takeQueues (answer : Nat → Answer σ) : Nat → σ → List (List PacketRef) → Taking σ
  | _, h, [] => ⟨none,h,[]⟩
  | i, h, refs :: queues => (takeInputs (answer i) h refs).andThen fun h => takeQueues answer (i + 1) h queues

def send (cycle : Nat) (qs : Queues) : Option (Nat × Packet) → Queues
  | none => qs
  | some (output,pkt) => (qs.injectPackets output cycle [pkt]).2

/-- The queues when the packets have been answered and freed. -/
def settle (cycle : Nat) (qs : Queues) (taken : List (PacketRef × Option (Nat × Packet))) : Queues :=
  taken.foldl (fun qs t => (send cycle qs t.2).free t.1.queue t.1.slot) qs

/-- What an answer does. -/
def outcome (cycle : Nat) (qs : Queues) : Except String (Option (Nat × Packet)) × σ → (Option String × σ) × Queues
  | (.error err,h) => ((some err,h),qs)
  | (.ok sent,h) => ((none,h),send cycle qs sent)

/-- The program answers packets in this way. -/
def Answers (cycle : Nat) (handle : σ → Packet → Prog nodeInterface (Option String × σ)) (answer : Answer σ) : Prop :=
  ∀ h pkt qs, runOn (handle h pkt) qs = outcome cycle qs (answer h pkt)

/-- An answer without packets. -/
def silent (work : σ → Packet → Option String × σ) : Answer σ := fun h pkt =>
  match work h pkt with
  | (some err,h') => (.error err,h')
  | (none,h') => (.ok none,h')

theorem answers_silent (cycle : Nat) (work : σ → Packet → Option String × σ) :
    Answers cycle (fun h pkt => return work h pkt) (silent work) := by
  intro h pkt qs
  rcases worked : work h pkt with ⟨_ | err,h'⟩
  · simp [silent,worked,outcome,send]
  · simp [silent,worked,outcome]

variable {cycle : Nat} {handle : σ → Packet → Prog nodeInterface (Option String × σ)} {answer : Answer σ}

theorem runOn_handleInputs (answers : Answers cycle handle answer) : ∀ (refs : List PacketRef) (h : σ) (qs : Queues),
    runOn (handleInputs handle h refs) qs =
      (((takeInputs answer h refs).error,(takeInputs answer h refs).state),settle cycle qs (takeInputs answer h refs).taken)
  | [], h, qs => rfl
  | ref :: refs, h, qs => by
    rw [handleInputs,runOn_bind,answers h ref.packet qs,takeInputs]
    rcases answer h ref.packet with ⟨err | sent,h'⟩
    · rfl
    · simp only [outcome,runOn_bind,runOn_free]
      rw [runOn_handleInputs answers refs]
      rfl

theorem settle_append (qs : Queues) (first second : List (PacketRef × Option (Nat × Packet))) :
    settle cycle qs (first ++ second) = settle cycle (settle cycle qs first) second := List.foldl_append

/-- A second part of the work that goes on where the first ends. -/
theorem runOn_andThen {work : Prog nodeInterface (Option String × σ)} {rest : σ → Prog nodeInterface (Option String × σ)}
    {t : Taking σ} {next : σ → Taking σ} {qs : Queues} (worked : runOn work qs = ((t.error,t.state),settle cycle qs t.taken))
    (follows : ∀ h qs, runOn (rest h) qs = (((next h).error,(next h).state),settle cycle qs (next h).taken)) :
    runOn (work >>= fun (error,h) => match error with
      | some err => return (some err,h)
      | none => rest h) qs =
      (((t.andThen next).error,(t.andThen next).state),settle cycle qs (t.andThen next).taken) := by
  rw [runOn_bind,worked,Taking.andThen]
  rcases stopped : t.error with _ | err
  · simp only [follows,settle_append]
  · simp [stopped]

theorem runOn_handleQueues {handle : Nat → σ → Packet → Prog nodeInterface (Option String × σ)} {answer : Nat → Answer σ}
    (answers : ∀ i, Answers cycle (handle i) (answer i)) : ∀ (queues : List (List PacketRef)) (i : Nat) (h : σ) (qs : Queues),
    runOn (handleQueues handle i h queues) qs =
      (((takeQueues answer i h queues).error,(takeQueues answer i h queues).state),
        settle cycle qs (takeQueues answer i h queues).taken)
  | [], _, _, _ => rfl
  | refs :: queues, i, h, qs =>
    runOn_andThen (runOn_handleInputs (answers i) refs h qs) (runOn_handleQueues answers queues (i + 1))

/-! ### Where the packets taken come from -/

/-- A packet taken is one of those given, answered in a state that the answers lead to. -/
theorem takeInputs_spec {I : σ → Prop} (keeps : ∀ h pkt, I h → I (answer h pkt).2) : ∀ (refs : List PacketRef) {h : σ}, I h →
    I (takeInputs answer h refs).state ∧
    ∀ taken ∈ (takeInputs answer h refs).taken, taken.1 ∈ refs ∧
      ∃ h', I h' ∧ (answer h' taken.1.packet).1 = .ok taken.2
  | [], _, now => ⟨now,fun _ member => absurd member List.not_mem_nil⟩
  | ref :: refs, h, now => by
    have after := keeps h ref.packet now
    rw [takeInputs]
    rcases answered : answer h ref.packet with ⟨err | sent,h'⟩
    · rw [answered] at after
      exact ⟨after,fun _ member => absurd member List.not_mem_nil⟩
    · rw [answered] at after
      obtain ⟨last,later⟩ := takeInputs_spec keeps refs after
      refine ⟨last,?_⟩
      intro taken member
      rcases List.mem_cons.mp member with rfl | rest
      · exact ⟨List.mem_cons_self,h,now,congrArg Prod.fst answered⟩
      · obtain ⟨given,answering⟩ := later taken rest
        exact ⟨List.mem_cons_of_mem ref given,answering⟩

theorem andThen_spec {I : σ → Prop} {P : PacketRef × Option (Nat × Packet) → Prop} {t : Taking σ} {next : σ → Taking σ}
    (first : I t.state ∧ ∀ taken ∈ t.taken, P taken)
    (second : ∀ h, I h → I (next h).state ∧ ∀ taken ∈ (next h).taken, P taken) :
    I (t.andThen next).state ∧ ∀ taken ∈ (t.andThen next).taken, P taken := by
  rw [Taking.andThen]
  rcases t.error with _ | err
  · obtain ⟨last,later⟩ := second t.state first.1
    refine ⟨last,?_⟩
    intro taken member
    rcases List.mem_append.mp member with before | after
    · exact first.2 taken before
    · exact later taken after
  · exact first

theorem takeQueues_spec {I : σ → Prop} {answer : Nat → Answer σ} (keeps : ∀ i h pkt, I h → I (answer i h pkt).2) :
    ∀ (queues : List (List PacketRef)) (i : Nat) {h : σ}, I h →
      I (takeQueues answer i h queues).state ∧
      ∀ taken ∈ (takeQueues answer i h queues).taken, ∃ q refs, queues[q]? = some refs ∧ taken.1 ∈ refs ∧
        ∃ h', I h' ∧ (answer (i + q) h' taken.1.packet).1 = .ok taken.2
  | [], _, _, now => ⟨now,fun _ member => absurd member List.not_mem_nil⟩
  | refs :: queues, i, h, now => by
    obtain ⟨middle,here⟩ := takeInputs_spec (keeps i) refs now
    refine andThen_spec ⟨middle,?_⟩ ?_
    · intro taken member
      obtain ⟨given,answering⟩ := here taken member
      exact ⟨0,refs,rfl,given,answering⟩
    · intro h' now'
      obtain ⟨last,later⟩ := takeQueues_spec keeps queues (i + 1) now'
      refine ⟨last,?_⟩
      intro taken member
      obtain ⟨q,refs',found,given,answering⟩ := later taken member
      rw [Nat.add_right_comm] at answering
      exact ⟨q + 1,refs',found,given,answering⟩

/-- The packets taken from the `width` queues from `first` on. -/
theorem takeQueues_window {I : σ → Prop} {answer : Nat → Answer σ} (keeps : ∀ i h pkt, I h → I (answer i h pkt).2)
    (inputs : List (List PacketRef)) (first width i : Nat) {h : σ} (now : I h) :
    I (takeQueues answer i h ((inputs.drop first).take width)).state ∧
    ∀ taken ∈ (takeQueues answer i h ((inputs.drop first).take width)).taken, ∃ q, q < width ∧
      taken.1 ∈ inputs.getD (first + q) [] ∧ ∃ h', I h' ∧ (answer (i + q) h' taken.1.packet).1 = .ok taken.2 := by
  obtain ⟨last,each⟩ := takeQueues_spec keeps ((inputs.drop first).take width) i now
  refine ⟨last,?_⟩
  intro taken member
  obtain ⟨q,refs,found,given,answering⟩ := each taken member
  rw [List.getElem?_take,Option.ite_none_right_eq_some,List.getElem?_drop] at found
  refine ⟨q,found.1,?_,answering⟩
  rw [List.getD_eq_getElem?_getD,found.2]
  exact given

end

/-! ### Output queues -/

/-- The packets waiting in an output queue; a node without the queue has none. -/
def waiting (qs : Queues) (output : Nat) : List Packet := qs.outputs[output]?.elim [] OutputQueue.packets

def places (qs : Queues) (output : Nat) : Nat := qs.outputs[output]?.elim 0 fun oq => oq.capacity

/-- The answers for an output. -/
def sentOn (output : Nat) (taken : List (PacketRef × Option (Nat × Packet))) : List Packet :=
  taken.filterMap fun t => t.2.bind fun sent => if sent.1 = output then some sent.2 else none

/-- Whatever was waiting, or was owed, is afterwards waiting or held. -/
def Kept (before after : Queues) (owed held : Nat → List Packet) : Prop :=
  ∀ output, (waiting before output ++ owed output).Subperm (waiting after output ++ held output)

/-- The packets due fit into the free places of their queues. -/
def Fit (qs : Queues) (due : Nat → List Packet) : Prop :=
  ∀ output, (waiting qs output).length + (due output).length ≤ places qs output

section
variable {qs before after : Queues} {output : Nat}

theorem waiting_le (qs : Queues) (output : Nat) : (waiting qs output).length ≤ places qs output := by
  unfold waiting places
  cases qs.outputs[output]? with
  | none => exact Nat.le_refl 0
  | some oq =>
    simp only [Option.elim_some,oq.length_packets]
    exact oq.count_le

theorem places_injectPackets (qs : Queues) (to_output cycle : Nat) (pkts : List Packet) :
    places (qs.injectPackets to_output cycle pkts).2 output = places qs output := by
  unfold Queues.injectPackets places
  rcases found : qs.outputs[to_output]? with _ | oq
  · rfl
  · obtain ⟨inside,is_queue⟩ := List.getElem?_eq_some_iff.mp found
    by_cases same : to_output = output
    · subst same
      simp [found,List.getElem?_set_self inside]
    · simp [List.getElem?_set_ne same]

theorem waiting_injectPackets (qs : Queues) (to_output cycle : Nat) (pkts : List Packet) :
    waiting (qs.injectPackets to_output cycle pkts).2 output =
      if to_output = output then offer (places qs output) (waiting qs output) pkts else waiting qs output := by
  unfold Queues.injectPackets waiting places
  rcases found : qs.outputs[to_output]? with _ | oq
  · split_ifs with same
    · subst same
      simp only [found,Option.elim_none,offer]
      split_ifs with empty
      · exact (List.eq_nil_of_length_eq_zero (by simpa using empty)).symm ▸ rfl
      · rfl
    · rfl
  · obtain ⟨inside,is_queue⟩ := List.getElem?_eq_some_iff.mp found
    by_cases same : to_output = output
    · subst same
      simp [found,List.getElem?_set_self inside,packets_injectPackets]
    · simp [same,List.getElem?_set_ne same]

theorem settle_outputs (cycle : Nat) : ∀ (taken : List (PacketRef × Option (Nat × Packet))) (qs : Queues),
    places (settle cycle qs taken) output = places qs output ∧
    waiting (settle cycle qs taken) output =
      offerAll (places qs output) (waiting qs output) ((sentOn output taken).map fun pkt => [pkt])
  | [], qs => ⟨rfl,rfl⟩
  | (ref,sent) :: taken, qs => by
    obtain ⟨same,now⟩ := settle_outputs cycle taken ((send cycle qs sent).free ref.queue ref.slot)
    have freed : places ((send cycle qs sent).free ref.queue ref.slot) output = places (send cycle qs sent) output ∧
      waiting ((send cycle qs sent).free ref.queue ref.slot) output = waiting (send cycle qs sent) output := ⟨rfl,rfl⟩
    rw [freed.1] at same now
    rw [freed.2] at now
    rcases sent with _ | ⟨to_output,pkt⟩
    · exact ⟨same,now⟩
    · rw [send,places_injectPackets] at same now
      rw [waiting_injectPackets] at now
      refine ⟨same,now.trans ?_⟩
      by_cases here : to_output = output
      · simp [sentOn,here,offerAll]
      · simp [sentOn,here]

theorem settle_inputs (cycle : Nat) : ∀ (taken : List (PacketRef × Option (Nat × Packet))) (qs : Queues),
    (settle cycle qs taken).inputs =
      (taken.map Prod.fst).foldl (fun inputs ref => inputs.modify ref.queue fun iq => iq.free ref.slot) qs.inputs
  | [], qs => rfl
  | (ref,sent) :: taken, qs => by
    rw [settle,List.foldl_cons,← settle,settle_inputs cycle taken,List.map_cons,List.foldl_cons]
    rcases sent with _ | ⟨output,pkt⟩
    · rfl
    · have inputs : (send cycle qs (some (output,pkt))).inputs = qs.inputs := by
        rw [send,Queues.injectPackets]
        cases qs.outputs[output]? with
        | none => rfl
        | some oq => rfl
      rw [Queues.free,inputs]

/-! ### Batches that are taken or dropped -/

theorem offer_nil (capacity : Nat) (held : List Packet) : offer capacity held [] = held := by
  unfold offer
  split_ifs
  · exact List.append_nil held
  · rfl

theorem length_offerAll_le {capacity : Nat} : ∀ {batches : List (List Packet)} {held : List Packet},
    held.length ≤ capacity → (offerAll capacity held batches).length ≤ capacity
  | [], _, within => within
  | pkts :: batches, held, within => by
    rw [offerAll,List.foldl_cons]
    refine @length_offerAll_le _ batches _ ?_
    unfold offer
    split_ifs with room
    · rw [List.length_append]
      exact room
    · exact within

theorem offerAll_of_fit {capacity : Nat} : ∀ {batches : List (List Packet)} {held : List Packet},
    held.length + batches.flatten.length ≤ capacity → offerAll capacity held batches = held ++ batches.flatten
  | [], held, _ => by rw [List.flatten_nil,List.append_nil]; rfl
  | pkts :: batches, held, fit => by
    rw [List.flatten_cons,List.length_append] at fit
    have first : offer capacity held pkts = held ++ pkts := if_pos (by omega)
    have rest : (held ++ pkts).length + batches.flatten.length ≤ capacity := by
      rw [List.length_append]
      omega
    rw [offerAll,List.foldl_cons,first,List.flatten_cons,← List.append_assoc]
    exact offerAll_of_fit rest

/-- All the packets of the batches are kept exactly when they fit. -/
theorem kept_iff_fit {due : Nat → List Packet} {batches : Nat → List (List Packet)}
    (all : ∀ output, due output = (batches output).flatten)
    (sent : ∀ output, waiting after output = offerAll (places before output) (waiting before output) (batches output)) :
    Kept before after due (fun _ => []) ↔ Fit before due := by
  constructor
  · intro kept output
    have fewer := (kept output).length_le
    have within : (offerAll (places before output) (waiting before output) (batches output)).length ≤ places before output :=
      length_offerAll_le (waiting_le before output)
    rw [sent output,List.append_nil,List.length_append] at fewer
    exact fewer.trans within
  · intro fit output
    have room := fit output
    rw [all output] at room ⊢
    rw [sent output,offerAll_of_fit room,List.append_nil]

end
end FlowSim.MemSystem
