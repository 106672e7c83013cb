import FlowSim.Node.Carriage
import FlowSim.Links.Carriage
import FlowSim.Network.Schedule

/-!
The packets of a whole network. When every handler accounts for its packets, and a link may pass
on what it receives, then in every run in which no node fails all packets stay accounted for,
wherever the workers are in their cycles when they exchange them, and none is where it may not
be (`packets_accounted`).
-/
namespace FlowSim.Network
open FlowSim.Lib FlowSim.AheadPort FlowSim.Queue FlowSim.Node FlowSim.Links
set_option linter.unusedSimpArgs false

/-! ### Links of either type -/

namespace AnyLinkType

def packets : AnyLinkType → Multiset Packet
  | .buffered h => h.packets
  | .bufferless h => h.packets

theorem carriesOn {may : LinkEnd → Packet → Prop} (through : Through may) : CarriesOn linkType packets may := by
  intro t cycle targetCycle incoming start a balances placed received
  cases t with
  | buffered h =>
    refine (h.carries_process through targetCycle incoming balances placed received).bind ?_
    intro a result after t' isResult
    obtain ⟨h',found,rfl⟩ := Option.map_eq_some_iff.mp isResult
    exact after h' found
  | bufferless h =>
    refine (h.carries_process through targetCycle incoming balances placed received).bind ?_
    intro a result after t' isResult
    obtain ⟨h',found,rfl⟩ := Option.map_eq_some_iff.mp isResult
    exact after h' found

/-- Initialising a link moves no packets. -/
theorem carries_init {may : LinkEnd → Packet → Prop} {a : Account (Multiset Packet)} {start now : Multiset Packet} (t : AnyLinkType)
    (balances : a.Balances start now) : Keeps (carryingEach may) t.init (fun a _ => a.Balances start now) a := by
  have signal : ∀ (i : Nat) {a : Account (Multiset Packet)}, a.Balances start now →
      Keeps (carryingEach may) (atEnd .upstream (updateReady i true)) (fun a _ => a.Balances start now) a :=
    fun i _ balances => keeps_atEnd_carrying (keeps_updateReady_carrying balances i true)
  have signals : ∀ (cycles : List Nat) {a : Account (Multiset Packet)}, a.Balances start now →
      Keeps (carryingEach may) (cycles.forM fun i => atEnd .upstream (updateReady i true)) (fun a _ => a.Balances start now) a := by
    intro cycles
    induction cycles with
    | nil => exact fun balances => balances
    | cons i rest ih =>
      intro a balances
      rw [List.forM_eq_forM,List.forM_cons]
      exact (signal i balances).bind fun _ _ balances => ih balances
  cases t with
  | buffered h => exact signals _ balances
  | bufferless h => exact signal 0 balances

theorem packets_new {t : AnyLinkType} (isNew : t.IsNew) : t.packets = 0 := by
  cases t with
  | buffered h =>
    obtain ⟨latency,bandwidth,pos,bandwidthPos,rfl⟩ := isNew
    show unstamped (List.replicate latency []).flatten + 0 = 0
    simp
  | bufferless h =>
    obtain rfl := isNew
    rfl

end AnyLinkType

end FlowSim.Network

namespace FlowSim
open FlowSim.Lib FlowSim.AheadPort FlowSim.Queue FlowSim.Node FlowSim.Links FlowSim.Network
set_option linter.unusedSimpArgs false

namespace Network
variable {σ : Type} {n n' : Network σ} {sortSlice : SliceSort} {may : PortId → Packet → Prop} {books : Books σ} {ids : Finset Int}

/-! ### All packets -/

/-- The packets that a worker holds. -/
def held (n : Network σ) : Worker → Multiset Packet
  | .node id => ((n.nodes id).map fun handle => handle.node.queues.packets).getD 0
  | .link index => (n.links[index]?.map fun l => l.link.state.packets).getD 0

/-- What an entry in the state of a worker, if it is a node, says of packets. -/
def stated (n : Network σ) (entry : σ → Multiset Packet) : Worker → Multiset Packet
  | .node id => ((n.nodes id).map fun handle => entry handle.node.state).getD 0
  | .link _ => 0

/-- The packets on their way between workers. One that was handed on for a cycle that has been
    read stays at its port. -/
noncomputable def inFlight (n : Network σ) : Multiset Packet := ∑ᶠ p, (n.ports p).exchange.packets

/-- All packets in the network. -/
noncomputable def packets (n : Network σ) : Multiset Packet := (∑ᶠ w, n.held w) + n.inFlight

noncomputable def consumed (n : Network σ) (books : Books σ) : Multiset Packet := ∑ᶠ w, n.stated books.consumed w

noncomputable def created (n : Network σ) (books : Books σ) : Multiset Packet := ∑ᶠ w, n.stated books.created w

/-- Only finitely many packets are on their way, and all packets are where they may be. -/
structure Carries (n : Network σ) (may : PortId → Packet → Prop) : Prop where
  nodes : ∀ id handle, n.nodes id = some handle → handle.node.queues.Placed fun port => may (id,port)
  links : ∀ (index : Nat) (l : Connection), n.links[index]? = some l → ∀ pkt ∈ l.link.state.packets, may (l.portAt .upstream) pkt
  ports : ∀ p, (n.ports p).exchange.Carries (may p)
  finite : (fun p => (n.ports p).exchange.packets).support.Finite

/-- The handlers account for their packets, and the links may pass on what they receive. -/
structure Accounts (n : Network σ) (sortSlice : SliceSort) (may : PortId → Packet → Prop) (books : Books σ) : Prop where
  handlers : ∀ id handle, n.nodes id = some handle → handle.handler.Accounts sortSlice (fun port => may (id,port)) books
  links : ∀ (index : Nat) (l : Connection), n.links[index]? = some l → Through fun side => may (l.portAt side)

/-! ### The workers there are -/

/-- The nodes of a network are among these. -/
def NodesIn (n : Network σ) (ids : Finset Int) : Prop := ∀ id ∉ ids, n.nodes id = none

theorem NodesIn.addNode {handle : NodeHandle σ} (nodesIn : n.NodesIn ids)
    (added : n.addNode handle = some (.ok n')) : n'.NodesIn (insert handle.node.id ids) := by
  unfold Network.addNode at added
  split_ifs at added
  dsimp only at added
  split at added
  · cases Option.some.inj added
  · cases Option.some.inj added
    intro id outside
    rw [Finset.mem_insert,not_or] at outside
    show Function.update n.nodes handle.node.id (some handle) id = none
    rw [Function.update_of_ne outside.1]
    exact nodesIn id outside.2

theorem attach_none {nodes : Int → Option (NodeHandle σ)} {id id' : Int} {port : NodePort} (absent : nodes id' = none) :
    attach nodes id port id' = none := by
  unfold attach
  rw [Function.update_apply]
  split_ifs with here
  · rw [← here,absent]
    rfl
  · exact absent

theorem NodesIn.connect {sourceID sourceOutputIdx targetID targetInputIdx latency bandwidth : Int}
    {linkType : Option AnyLinkType} (nodesIn : n.NodesIn ids)
    (connected : n.connect sourceID sourceOutputIdx targetID targetInputIdx latency bandwidth linkType = some (.ok n')) :
    n'.NodesIn ids := by
  obtain ⟨_,_,_,_,_,_,_,_,_,_,wired⟩ := wire_of_connect connected
  unfold Network.wire at wired
  split_ifs at wired
  split at wired
  · cases wired
  · obtain rfl := Option.some.inj wired
    exact fun id outside => attach_none (attach_none (nodesIn id outside))

theorem Built.nodesIn (built : n.Built) : ∃ ids, n.NodesIn ids := by
  induction built with
  | new => exact ⟨∅,fun _ _ => rfl⟩
  | addNode _ _ added ih =>
    obtain ⟨ids,nodesIn⟩ := ih
    exact ⟨_,nodesIn.addNode added⟩
  | connect _ _ connected ih =>
    obtain ⟨ids,nodesIn⟩ := ih
    exact ⟨ids,nodesIn.connect connected⟩

theorem NodesIn.freeze {opened : Network σ} (nodesIn : n.NodesIn ids) (isOpen : n.freeze = some opened) : opened.NodesIn ids := by
  intro id outside
  rw [(freeze_eq isOpen).1]
  exact nodesIn id outside

theorem Runs.nodesIn {actions : List Action} {reports : List Report} {later : Network σ} (nodesIn : n.NodesIn ids)
    (run : n.Runs sortSlice actions reports later) : later.NodesIn ids := by
  induction run with
  | start => exact nodesIn
  | injectPacket id' pkt _ _ ih =>
    intro id outside
    have before := ih id outside
    unfold Network.injectPacket
    dsimp only
    rw [Function.update_apply]
    split_ifs with here
    · rw [← here,before]
      rfl
    · exact before
  | advanceTo _ _ advances ih =>
    cases advances with
    | negative _ => exact ih
    | completes isOpen _ _ _ =>
      intro id outside
      show Option.map _ _ = none
      rw [ih.freeze isOpen id outside]
      rfl

/-- The workers of a network with these nodes. -/
def workers (n : Network σ) (ids : Finset Int) : Finset Worker :=
  ids.image Worker.node ∪ (Finset.range n.links.length).image Worker.link

theorem absent_node (known : n.NodesIn ids) {id : Int} (outside : Worker.node id ∉ n.workers ids) : n.nodes id = none := by
  refine known id fun member => outside ?_
  exact Finset.mem_union.mpr (.inl (Finset.mem_image_of_mem _ member))

theorem absent_link {index : Nat} (outside : Worker.link index ∉ n.workers ids) : n.links[index]? = none := by
  rw [List.getElem?_eq_none_iff]
  by_contra inside
  exact outside (Finset.mem_union.mpr (.inr (Finset.mem_image_of_mem _ (Finset.mem_range.mpr (by omega)))))

theorem support_held (known : n.NodesIn ids) : n.held.support ⊆ n.workers ids := by
  intro w member
  by_contra outside
  refine member ?_
  cases w with
  | node id => rw [held,absent_node known outside,Option.map_none,Option.getD_none]
  | link index => rw [held,absent_link outside,Option.map_none,Option.getD_none]

theorem sum_held (known : n.NodesIn ids) : ∑ᶠ w, n.held w = ∑ w ∈ n.workers ids, n.held w :=
  finsum_eq_sum_of_support_subset _ (support_held known)

theorem sum_stated (known : n.NodesIn ids) (entry : σ → Multiset Packet) :
    ∑ᶠ w, n.stated entry w = ∑ w ∈ n.workers ids, n.stated entry w := by
  refine finsum_eq_sum_of_support_subset _ fun w member => ?_
  by_contra outside
  refine member ?_
  cases w with
  | node id => rw [stated,absent_node known outside,Option.map_none,Option.getD_none]
  | link index => rfl

/-! ### A call -/

/-- The ports of a network keep what is sent into them. -/
theorem ports_conserve (may : PortId → Packet → Prop) :
    (exchangeMachine.each PortId).Conserves (packetTraffic.each PortId) (fun op => Puts (may op.1) op.2) (fun op => Gets (may op.1) op.2)
      (fun e => (∀ p, (e p).Carries (may p)) ∧ (fun p => (e p).packets).support.Finite) (fun e => ∑ᶠ p, (e p).packets) :=
  Machine.Conserves.each fun p => exchange_conserves (may p)

/-- Initialising links moves no packets. -/
theorem initLinks_inFlight : ∀ (links : List Connection) {ports ports' : PortId → Port}, initLinks links ports = some ports' →
    (∀ p, (ports p).exchange.Carries (may p)) ∧ (fun p => (ports p).exchange.packets).support.Finite →
    ((∀ p, (ports' p).exchange.Carries (may p)) ∧ (fun p => (ports' p).exchange.packets).support.Finite) ∧
      ∑ᶠ p, (ports' p).exchange.packets = ∑ᶠ p, (ports p).exchange.packets
  | [], ports, ports', initialised, carries => by
    cases initialised
    exact ⟨carries,rfl⟩
  | l :: links, ports, ports', initialised, carries => by
    obtain ⟨⟨⟨⟩,between⟩,first,others⟩ := Option.bind_eq_some_iff.mp initialised
    have quiet := keeps_relabel_carrying may (f := l.portAt) (AnyLinkType.carries_init l.link.state (Account.balances_empty 0))
    obtain ⟨carries',a,balances,balanced⟩ := (ports_conserve may).alone carries rfl quiet (port_refines_exchange.each.alone first)
    obtain ⟨carries'',same⟩ := initLinks_inFlight links others carries'
    refine ⟨carries'',same.trans ?_⟩
    have even : a.given = a.taken := by
      have balances : 0 + a.given = 0 + a.taken := balances
      rwa [zero_add,zero_add] at balances
    rw [even] at balanced
    exact add_right_cancel balanced

theorem Carries.freeze {opened : Network σ} (carries : n.Carries may) (isOpen : n.freeze = some opened) :
    opened.Carries may ∧ opened.inFlight = n.inFlight := by
  unfold Network.freeze at isOpen
  split_ifs at isOpen
  · obtain rfl := Option.some.inj isOpen
    exact ⟨carries,rfl⟩
  · obtain ⟨ports,initialised,rfl⟩ := Option.map_eq_some_iff.mp isOpen
    obtain ⟨⟨onPorts,finite⟩,same⟩ := initLinks_inFlight n.links initialised ⟨carries.ports,carries.finite⟩
    exact ⟨⟨carries.nodes,carries.links,onPorts,finite⟩,same⟩

/-- The packets that a worker holds at the end of a call. -/
def resultHeld : (w : Worker) → Result σ w → Multiset Packet
  | .node _, some (_,node) => node.queues.packets
  | .link _, some (some link) => link.state.packets
  | _, _ => 0

def resultStated (entry : σ → Multiset Packet) : (w : Worker) → Result σ w → Multiset Packet
  | .node _, some (_,node) => entry node.state
  | _, _ => 0

/-- The worker, if there is one, has come to an end without failing. -/
def Fine : (w : Worker) → Result σ w → Prop
  | .node _, some (error,_) => error = none
  | .link _, some none => False
  | _, _ => True

/-- What a worker ends with, if there is one, has its packets where they may be. -/
def Leaves (n : Network σ) (may : PortId → Packet → Prop) : (w : Worker) → Result σ w → Prop
  | .node id, value => (n.nodes id = none → value = none) ∧ ∀ handle, n.nodes id = some handle →
      ∃ error node, value = some (error,node) ∧ node.queues.Placed fun port => may (id,port)
  | .link index, value => (n.links[index]? = none → value = none) ∧ ∀ l, n.links[index]? = some l →
      ∃ link, value = some (some link) ∧ ∀ pkt ∈ link.state.packets, may (l.portAt .upstream) pkt

/-- Every worker accounts for its packets. -/
theorem carries_work (accounts : n.Accounts sortSlice may books) (carries : n.Carries may) (targetCycle : Nat) (w : Worker) :
    Keeps (carryingEach may) (n.work sortSlice targetCycle w) (fun a value => Fine w value →
      a.Balances (n.held w + n.stated books.consumed w + resultStated books.created w value)
        (resultHeld w value + resultStated books.consumed w value + n.stated books.created w) ∧ n.Leaves may w value) .empty := by
  cases w with
  | node id =>
    rcases found : n.nodes id with _ | handle
    · simp only [work,found]
      refine fun _ => ⟨?_,fun _ => rfl,fun handle present => ?_⟩
      · simp only [held,stated,found]
        exact Account.balances_empty _
      · rw [found] at present
        cases present
    · simp only [work,found]
      have starts : handle.node.Carries (fun port => may (id,port)) books (n.held (.node id) + n.stated books.consumed (.node id))
          (n.stated books.created (.node id)) .empty := by
        refine ⟨(Account.balances_empty _).congr ?_,carries.nodes id handle found⟩
        simp only [held,stated,found,Option.map_some,Option.getD_some]
        abel
      have advanced := handle.node.carries_advanceTo (accounts.handlers id handle found) targetCycle starts
      refine (keeps_relabel_carrying may (f := fun port => (id,port)) advanced).bind ?_
      rintro a ⟨error,node⟩ after fine
      have ends := after fine
      refine ⟨ends.balances.congr ?_,fun absent => ?_,fun handle' present => ⟨error,node,rfl,ends.placed⟩⟩
      · rw [add_comm]
        rfl
      · rw [found] at absent
        cases absent
  | link index =>
    rcases found : n.links[index]? with _ | l
    · simp only [work,found]
      refine fun _ => ⟨?_,fun _ => rfl,fun l present => ?_⟩
      · simp only [held,stated,found]
        exact Account.balances_empty _
      · rw [found] at present
        cases present
    · simp only [work,found]
      have starts : (Account.empty : Account (Multiset Packet)).Balances l.link.state.packets l.link.state.packets := Account.balances_empty _
      have advanced := carries_linkAdvanceTo (AnyLinkType.carriesOn (accounts.links index l found)) l.link targetCycle starts
        (carries.links index l found)
      refine (keeps_relabel_carrying may (f := l.portAt) advanced).bind ?_
      rintro a (_ | link) after fine
      · exact fine.elim
      · obtain ⟨balances,placed⟩ := after link rfl
        refine ⟨?_,fun absent => ?_,fun l' present => ?_⟩
        · have whole : n.held (.link index) = l.link.state.packets := by
            simp only [held,found,Option.map_some,Option.getD_some]
          show a.Balances (n.held (.link index) + 0 + 0) (link.state.packets + 0 + 0)
          rw [whole]
          simpa only [add_zero] using balances
        · rw [found] at absent
          cases absent
        · obtain rfl := Option.some.inj (found.symm.trans present)
          exact ⟨link,rfl,placed⟩

theorem idle_work (known : n.NodesIn ids) (targetCycle : Nat) (w : Worker) (outside : w ∉ n.workers ids) :
    ∃ value, n.work sortSlice targetCycle w = .done value := by
  cases w with
  | node id => exact ⟨none,by simp only [work,absent_node known outside]⟩
  | link index => exact ⟨none,by simp only [work,absent_link outside]⟩

section
variable (targetCycle : Nat) {c : Call σ} {value : (w : Worker) → Result σ w}

/-- What a node ends with is what the network has after the call. -/
theorem after_nodes {id : Int} (ended : c.prog (.node id) = .done (value (.node id))) (leaves : n.Leaves may (.node id) (value (.node id))) :
    (n.nodes id = none ∧ (n.after targetCycle c).nodes id = none ∧ value (.node id) = none) ∨
      ∃ handle error node, n.nodes id = some handle ∧ (n.after targetCycle c).nodes id = some { handle with node } ∧
        value (.node id) = some (error,node) ∧ node.queues.Placed fun port => may (id,port) := by
  obtain ⟨absent,present⟩ := leaves
  rcases found : n.nodes id with _ | handle
  · refine .inl ⟨rfl,?_,absent found⟩
    simp only [after,found,Option.map_none]
  · obtain ⟨error,node,isValue,placed⟩ := present handle found
    refine .inr ⟨handle,error,node,rfl,?_,isValue,placed⟩
    simp only [after,found,Option.map_some,ended,isValue]

/-- What a link ends with is what the network has after the call. -/
theorem after_links {index : Nat} (ended : c.prog (.link index) = .done (value (.link index)))
    (leaves : n.Leaves may (.link index) (value (.link index))) :
    (n.links[index]? = none ∧ (n.after targetCycle c).links[index]? = none ∧ value (.link index) = none) ∨
      ∃ l link, n.links[index]? = some l ∧ (n.after targetCycle c).links[index]? = some { l with link } ∧
        value (.link index) = some (some link) ∧ ∀ pkt ∈ link.state.packets, may (l.portAt .upstream) pkt := by
  obtain ⟨absent,present⟩ := leaves
  rcases found : n.links[index]? with _ | l
  · refine .inl ⟨rfl,?_,absent found⟩
    simp only [after,List.getElem?_mapIdx,found,Option.map_none]
  · obtain ⟨link,isValue,placed⟩ := present l found
    refine .inr ⟨l,link,rfl,?_,isValue,placed⟩
    simp only [after,List.getElem?_mapIdx,found,Option.map_some,ended,isValue]

theorem held_after {w : Worker} (ended : c.prog w = .done (value w)) (leaves : n.Leaves may w (value w)) :
    (n.after targetCycle c).held w = resultHeld w (value w) := by
  cases w with
  | node id =>
    rcases after_nodes targetCycle ended leaves with ⟨_,absent,nothing⟩ | ⟨handle,error,node,_,present,isValue,_⟩
    · rw [held,absent,nothing]
      rfl
    · rw [held,present,isValue]
      rfl
  | link index =>
    rcases after_links targetCycle ended leaves with ⟨_,absent,nothing⟩ | ⟨l,link,_,present,isValue,_⟩
    · rw [held,absent,nothing]
      rfl
    · rw [held,present,isValue]
      rfl

theorem stated_after (entry : σ → Multiset Packet) {w : Worker} (ended : c.prog w = .done (value w)) (leaves : n.Leaves may w (value w)) :
    (n.after targetCycle c).stated entry w = resultStated entry w (value w) := by
  cases w with
  | node id =>
    rcases after_nodes targetCycle ended leaves with ⟨_,absent,nothing⟩ | ⟨handle,error,node,_,present,isValue,_⟩
    · rw [stated,absent,nothing]
      rfl
    · rw [stated,present,isValue]
      rfl
  | link index => rfl

end

/-- The packets of a network are where they may be, and accounted for. -/
theorem Carries.completes (known : n.NodesIn ids) (accounts : n.Accounts sortSlice may books) (carries : n.Carries may) {targetCycle : Nat}
    {c : Call σ} (reach : networkMachine.Reach (n.start sortSlice targetCycle) c) (finished : ∀ w, c.Finished w)
    (intact : ∀ index, c.prog (.link index) ≠ .done (some none)) (fine : ∀ id, errorOf (c.prog (.node id)) = none) :
    (n.after targetCycle c).Carries may ∧
      (n.after targetCycle c).packets + (n.after targetCycle c).consumed books + n.created books =
        n.packets + n.consumed books + (n.after targetCycle c).created books := by
  choose value ended using finished
  have isFine : ∀ w ∈ n.workers ids, Fine w (value w) := by
    intro w _
    have ends := ended w
    cases w with
    | node id =>
      rcases isValue : value (.node id) with _ | ⟨error,node⟩
      · trivial
      · have none_ := fine id
        rw [ends,isValue] at none_
        exact none_
    | link index =>
      rcases isValue : value (.link index) with _ | _ | link
      · trivial
      · exact absurd (isValue ▸ ends) (intact index)
      · trivial
  have known' : (n.after targetCycle c).NodesIn ids := by
    intro id outside
    show Option.map _ (n.nodes id) = none
    rw [known id outside,Option.map_none]
  have workers : (n.after targetCycle c).workers ids = n.workers ids := by
    unfold Network.workers
    rw [show (n.after targetCycle c).links.length = n.links.length from List.length_mapIdx]
  obtain ⟨⟨ports,finite⟩,leaves,total⟩ := (ports_conserve may).total (n.workers ids) ⟨carries.ports,carries.finite⟩
    (fun w _ => carries_work accounts carries targetCycle w) (fun w => idle_work known targetCycle w)
    (port_refines_exchange.each.reach reach) ended isFine
  have ended : ∀ w, c.prog w = .done (value w) := ended
  have isNode : ∀ {id handle}, (n.after targetCycle c).nodes id = some handle → Worker.node id ∈ n.workers ids := by
    intro id handle present
    by_contra outside
    have absent : (n.after targetCycle c).nodes id = none := absent_node known' (workers ▸ outside)
    rw [present] at absent
    cases absent
  have isLink : ∀ {index l}, (n.after targetCycle c).links[index]? = some l → Worker.link index ∈ n.workers ids := by
    intro index l present
    by_contra outside
    have absent : (n.after targetCycle c).links[index]? = none := absent_link (workers ▸ outside)
    rw [present] at absent
    cases absent
  refine ⟨⟨?_,?_,ports,finite⟩,?_⟩
  · intro id handle' present
    rcases after_nodes targetCycle (ended (.node id)) (leaves _ (isNode present)) with ⟨_,absent,_⟩ | ⟨handle,_,node,_,isAfter,_,placed⟩
    · rw [present] at absent
      cases absent
    · obtain rfl := Option.some.inj (present.symm.trans isAfter)
      exact placed
  · intro index l' present
    rcases after_links targetCycle (ended (.link index)) (leaves _ (isLink present)) with ⟨_,absent,_⟩ | ⟨l,link,_,isAfter,_,placed⟩
    · rw [present] at absent
      cases absent
    · obtain rfl := Option.some.inj (present.symm.trans isAfter)
      exact placed
  · have heldAfter : ∑ w ∈ n.workers ids, resultHeld w (value w) = ∑ᶠ w, (n.after targetCycle c).held w := by
      rw [sum_held known',workers]
      exact Finset.sum_congr rfl fun w isWorker => (held_after targetCycle (ended w) (leaves w isWorker)).symm
    have statedAfter : ∀ entry : σ → Multiset Packet,
        ∑ w ∈ n.workers ids, resultStated entry w (value w) = ∑ᶠ w, (n.after targetCycle c).stated entry w := by
      intro entry
      rw [sum_stated known',workers]
      exact Finset.sum_congr rfl fun w isWorker => (stated_after targetCycle entry (ended w) (leaves w isWorker)).symm
    have total : (n.after targetCycle c).inFlight + ∑ w ∈ n.workers ids, _ = n.inFlight + ∑ w ∈ n.workers ids, _ := total
    simp only [Finset.sum_add_distrib] at total
    rw [heldAfter,statedAfter,statedAfter,← sum_held known,← sum_stated known,← sum_stated known] at total
    calc (n.after targetCycle c).packets + (n.after targetCycle c).consumed books + n.created books
      _ = (n.after targetCycle c).inFlight + (∑ᶠ w, (n.after targetCycle c).held w + ∑ᶠ w, (n.after targetCycle c).stated books.consumed w +
            ∑ᶠ w, n.stated books.created w) := by unfold packets consumed created; abel
      _ = n.packets + n.consumed books + (n.after targetCycle c).created books := by
        rw [total]
        unfold packets consumed created
        abel

/-- A call changes neither the handlers nor the ends of the links. -/
theorem Accounts.after (accounts : n.Accounts sortSlice may books) (targetCycle : Nat) (c : Call σ) :
    (n.after targetCycle c).Accounts sortSlice may books where
  handlers := by
    intro id handle' present
    obtain ⟨handle,found,rfl⟩ := Option.map_eq_some_iff.mp present
    split
    · exact accounts.handlers id handle found
    · exact accounts.handlers id handle found
  links := by
    intro index l' present
    have present : (n.links.mapIdx _)[index]? = some l' := present
    rw [List.getElem?_mapIdx] at present
    obtain ⟨l,found,rfl⟩ := Option.map_eq_some_iff.mp present
    split
    · exact accounts.links index l found
    · exact accounts.links index l found

/-- One call of `AdvanceTo`. -/
theorem Carries.advancesTo {later : Network σ} {targetCycle : Int} {report : Report} (known : n.NodesIn ids)
    (accounts : n.Accounts sortSlice may books) (carries : n.Carries may) (advances : n.AdvancesTo sortSlice targetCycle report later)
    (fine : ∀ id, report.errors id = none) : later.Accounts sortSlice may books ∧ later.Carries may ∧
      later.packets + later.consumed books + n.created books = n.packets + n.consumed books + later.created books := by
  cases advances with
  | negative _ => exact ⟨accounts,carries,rfl⟩
  | @completes targetCycle opened c isOpen reach finished intact =>
    obtain ⟨onward,inFlight⟩ := carries.freeze isOpen
    obtain ⟨nodes,links,_⟩ := freeze_eq isOpen
    have accounts' : opened.Accounts sortSlice may books := ⟨nodes ▸ accounts.handlers,links ▸ accounts.links⟩
    obtain ⟨after,total⟩ := onward.completes (known.freeze isOpen) accounts' reach finished intact fine
    have held : opened.held = n.held := by
      funext w
      cases w with
      | node id => simp only [Network.held,nodes]
      | link index => simp only [Network.held,links]
    have stated : ∀ entry : σ → Multiset Packet, opened.stated entry = n.stated entry := by
      intro entry
      funext w
      cases w with
      | node id => simp only [Network.stated,nodes]
      | link index => rfl
    refine ⟨accounts'.after targetCycle c,after,?_⟩
    simp only [Network.packets,Network.consumed,Network.created,held,stated,inFlight] at total ⊢
    exact total

/-! ### Runs -/

/-- The packets that are injected from outside. -/
def Action.injected : Action → Option Packet
  | .injectPacket _ pkt => some pkt
  | .advanceTo _ => none

section
variable {id : Int} {pkt : Packet} {handle : NodeHandle σ}

theorem injectPacket_absent (absent : n.nodes id = none) : n.injectPacket id pkt = n := by
  unfold Network.injectPacket
  rw [absent,Option.map_none,← absent,Function.update_eq_self]

theorem nodes_injectPacket (found : n.nodes id = some handle) : (n.injectPacket id pkt).nodes =
    Function.update n.nodes id (some { handle with node := handle.node.injectPacket pkt }) := by
  unfold Network.injectPacket
  rw [found,Option.map_some]

/-- The nodes are the same, but for the queues of the one. -/
theorem nodes_of_injectPacket {id' : Int} {handle' : NodeHandle σ} (present : (n.injectPacket id pkt).nodes id' = some handle') :
    ∃ handle, n.nodes id' = some handle ∧ handle'.handler = handle.handler ∧
      (handle' = handle ∨ id' = id ∧ handle'.node = handle.node.injectPacket pkt) := by
  rcases found : n.nodes id with _ | handle
  · rw [injectPacket_absent found] at present
    exact ⟨handle',present,rfl,.inl rfl⟩
  · rw [nodes_injectPacket found] at present
    by_cases here : id' = id
    · subst here
      rw [Function.update_self] at present
      obtain rfl := Option.some.inj present
      exact ⟨handle,found,rfl,.inr ⟨rfl,rfl⟩⟩
    · rw [Function.update_of_ne here] at present
      exact ⟨handle',present,rfl,.inl rfl⟩

theorem held_injectPacket (found : n.nodes id = some handle) : (n.injectPacket id pkt).held =
    Function.update n.held (.node id) (handle.node.injectPacket pkt).queues.packets := by
  funext w
  cases w with
  | node id' =>
    rw [held,nodes_injectPacket found]
    by_cases here : id' = id
    · subst here
      rw [Function.update_self,Function.update_self]
      rfl
    · have other : Worker.node id' ≠ .node id := fun same => here (Worker.node.inj same)
      rw [Function.update_of_ne here,Function.update_of_ne other]
      rfl
  | link index => exact (Function.update_of_ne (by simp) ..).symm

theorem stated_injectPacket (entry : σ → Multiset Packet) : (n.injectPacket id pkt).stated entry = n.stated entry := by
  rcases found : n.nodes id with _ | handle
  · rw [injectPacket_absent found]
  · funext w
    cases w with
    | node id' =>
      rw [stated,stated,nodes_injectPacket found]
      by_cases here : id' = id
      · subst here
        rw [Function.update_self,found]
        rfl
      · rw [Function.update_of_ne here]
    | link index => rfl

/-- A packet that is injected joins the others, unless its queue is full or missing. -/
theorem Carries.injectPacket (known : n.NodesIn ids) (carries : n.Carries may) (allowed : may (id,.output 0) pkt) :
    (n.injectPacket id pkt).Carries may ∧
      ((n.injectPacket id pkt).packets = n.packets ∨ (n.injectPacket id pkt).packets = n.packets + {pkt}) := by
  refine ⟨⟨?_,carries.links,carries.ports,carries.finite⟩,?_⟩
  · intro id' handle' present
    obtain ⟨handle,before,_,rfl | ⟨rfl,isNode⟩⟩ := nodes_of_injectPacket present
    · exact carries.nodes id' _ before
    · rw [isNode]
      refine (carries.nodes id' handle before).injectPackets fun other member => ?_
      rw [List.mem_singleton.mp member]
      exact allowed
  · rcases found : n.nodes id with _ | handle
    · exact .inl (by rw [injectPacket_absent found])
    · have finite : n.held.support.Finite := (Finset.finite_toSet _).subset (support_held known)
      have moved := finsum_update finite (.node id) (handle.node.injectPacket pkt).queues.packets
      have before : n.held (.node id) = handle.node.queues.packets := by
        rw [held,found]
        rfl
      rw [← held_injectPacket found,before] at moved
      have total : (n.injectPacket id pkt).packets = (∑ᶠ w, (n.injectPacket id pkt).held w) + n.inFlight := rfl
      have queue : (handle.node.injectPacket pkt).queues.packets = handle.node.queues.packets ∨
          (handle.node.injectPacket pkt).queues.packets = handle.node.queues.packets + {pkt} := by
        rcases isQueue : handle.node.queues.outputs[0]? with _ | oq
        · exact .inl (congrArg _ (Queues.injectPackets_absent isQueue))
        · by_cases room : oq.count + [pkt].length ≤ oq.capacity
          · exact .inr (Queues.packets_injectPackets isQueue room)
          · exact .inl (congrArg _ (Queues.injectPackets_full isQueue room))
      rcases queue with same | joined
      · rw [same] at moved
        exact .inl (by rw [total,add_right_cancel moved]; rfl)
      · rw [joined,add_comm handle.node.queues.packets,← add_assoc] at moved
        refine .inr ?_
        rw [total,add_right_cancel moved,packets]
        abel

end

/-- What holds of a network after a run. -/
structure Accounted (n : Network σ) (sortSlice : SliceSort) (may : PortId → Packet → Prop) (books : Books σ) (actions : List Action)
    (later : Network σ) : Prop where
  accounts : later.Accounts sortSlice may books
  carries : later.Carries may
  balanced : ∃ accepted : List Packet, accepted.Sublist (actions.filterMap Action.injected) ∧
    later.packets + later.consumed books + n.created books =
      n.packets + n.consumed books + later.created books + (accepted : Multiset Packet)

theorem Runs.accounted {actions : List Action} {reports : List Report} {later : Network σ} (known : n.NodesIn ids)
    (accounts : n.Accounts sortSlice may books) (carries : n.Carries may) (run : n.Runs sortSlice actions reports later)
    (fine : ∀ report ∈ reports, ∀ id, report.errors id = none)
    (injected : ∀ id pkt, Action.injectPacket id pkt ∈ actions → may (id,.output 0) pkt) :
    Accounted n sortSlice may books actions later := by
  induction run with
  | start => exact ⟨accounts,carries,[],.slnil,(add_zero _).symm⟩
  | @injectPacket actions reports now id pkt before _ ih =>
    obtain ⟨accounts,carries,accepted,part,balanced⟩ :=
      ih fine fun id pkt member => injected id pkt (List.mem_append_left _ member)
    obtain ⟨carries',joined⟩ := carries.injectPacket (before.nodesIn known) (injected id pkt (List.mem_append_right _ (List.mem_singleton_self _)))
    have injections : (actions ++ [Action.injectPacket id pkt]).filterMap Action.injected = actions.filterMap Action.injected ++ [pkt] := by
      rw [List.filterMap_append]
      rfl
    have consumed : (now.injectPacket id pkt).consumed books = now.consumed books := by
      rw [Network.consumed,stated_injectPacket]
      rfl
    have created : (now.injectPacket id pkt).created books = now.created books := by
      rw [Network.created,stated_injectPacket]
      rfl
    refine ⟨⟨?_,accounts.links⟩,carries',?_⟩
    · intro id' handle' present
      obtain ⟨handle,found,same,_⟩ := nodes_of_injectPacket present
      rw [same]
      exact accounts.handlers id' handle found
    · rw [injections,consumed,created]
      rcases joined with same | joined
      · exact ⟨accepted,part.trans (List.sublist_append_left _ _),by rw [same]; exact balanced⟩
      · refine ⟨accepted ++ [pkt],part.append (.refl _),?_⟩
        rw [joined,← Multiset.coe_add,← add_assoc,← balanced]
        show now.packets + {pkt} + _ + _ = _ + {pkt}
        abel
  | @advanceTo actions reports now later targetCycle report before _ advances ih =>
    obtain ⟨accounts,carries,accepted,part,balanced⟩ :=
      ih (fun report member => fine report (List.mem_append_left _ member))
        fun id pkt member => injected id pkt (List.mem_append_left _ member)
    have isFine := fine report (List.mem_append_right _ (List.mem_singleton_self _))
    obtain ⟨accounts',carries',total⟩ := carries.advancesTo (before.nodesIn known) accounts advances isFine
    have injections : (actions ++ [Action.advanceTo targetCycle]).filterMap Action.injected = actions.filterMap Action.injected := by
      rw [List.filterMap_append]
      exact List.append_nil _
    refine ⟨accounts',carries',accepted,injections ▸ part,?_⟩
    refine add_right_cancel (b := now.created books) ?_
    calc later.packets + later.consumed books + n.created books + now.created books
      _ = now.packets + now.consumed books + n.created books + later.created books := by rw [add_right_comm,total,add_right_comm]
      _ = n.packets + n.consumed books + later.created books + (accepted : Multiset Packet) + now.created books := by
        rw [balanced]
        abel

/-! ### Networks that were built -/

/-- Connecting changes only which queues of a node have a port. -/
theorem nodes_of_connect {sourceID sourceOutputIdx targetID targetInputIdx latency bandwidth : Int} {linkType : Option AnyLinkType}
    (connected : n.connect sourceID sourceOutputIdx targetID targetInputIdx latency bandwidth linkType = some (.ok n')) {id : Int}
    {handle' : NodeHandle σ} (found : n'.nodes id = some handle') :
    ∃ handle connected, n.nodes id = some handle ∧ handle' = { handle with node := { handle.node with connected } } := by
  obtain ⟨_,_,_,_,_,_,_,_,_,_,wired⟩ := wire_of_connect connected
  unfold Network.wire at wired
  split_ifs at wired
  split at wired
  · cases wired
  · obtain rfl := Option.some.inj wired
    obtain ⟨_,_,middle,rfl,_⟩ := attach_some found
    obtain ⟨handle,connected,before,rfl,_⟩ := attach_some middle
    exact ⟨handle,_,before,rfl⟩

/-- Nothing is on its way in a network that was only built. -/
theorem Built.empty (built : n.Built) : (∀ p, (n.ports p).exchange.inFlight = fun _ => []) ∧
    ∀ (index : Nat) (l : Connection), n.links[index]? = some l → l.link.state.packets = 0 := by
  have new : Port.newPort.exchange.inFlight = fun _ => [] := rfl
  induction built with
  | new => exact ⟨fun _ => new,by simp [Network.new]⟩
  | addNode _ _ added ih =>
    unfold Network.addNode at added
    split_ifs at added
    dsimp only at added
    split at added
    · cases Option.some.inj added
    · cases Option.some.inj added
      exact ih
  | connect _ isNew connected ih =>
    obtain ⟨_,_,_,_,_,_,_,_,_,_,wired⟩ := wire_of_connect connected
    unfold Network.wire at wired
    split_ifs at wired with pos
    split at wired
    · cases wired
    · obtain rfl := Option.some.inj wired
      refine ⟨fun p => ?_,fun index l found => ?_⟩
      · dsimp only
        rw [Function.update_apply,Function.update_apply]
        split_ifs
        · rfl
        · exact new
        · exact ih.1 p
      · rw [List.getElem?_append] at found
        split_ifs at found
        · exact ih.2 index l found
        · have isLast := List.mem_singleton.mp (List.mem_of_getElem? found)
          rw [isLast]
          exact AnyLinkType.packets_new (isNew_typeOf _ _ isNew)

theorem Built.packets_port (built : n.Built) (p : PortId) : (n.ports p).exchange.packets = 0 := by
  rw [Exchange.packets,built.empty.1 p]
  exact finsum_zero

theorem Built.inFlight (built : n.Built) : n.inFlight = 0 := by
  rw [Network.inFlight,funext built.packets_port]
  exact finsum_zero

/-- Only the queues of the nodes have packets in a network that was only built. -/
theorem Built.carries (built : n.Built)
    (placed : ∀ id handle, n.nodes id = some handle → handle.node.queues.Placed fun port => may (id,port)) : n.Carries may := by
  obtain ⟨ports,links⟩ := built.empty
  refine ⟨placed,?_,?_,?_⟩
  · intro index l found pkt member
    rw [links index l found] at member
    exact absurd member (Multiset.notMem_zero pkt)
  · intro p
    refine ⟨?_,?_⟩
    · rw [ports p]
      exact (Set.finite_empty).subset fun cycle member => member rfl
    · intro cycle pkt member
      rw [ports p] at member
      cases member
  · exact (Set.finite_empty).subset fun p member => member (built.packets_port p)

theorem Built.accounted {actions : List Action} {reports : List Report} {later : Network σ} (built : n.Built)
    (accounts : n.Accounts sortSlice may books)
    (placed : ∀ id handle, n.nodes id = some handle → handle.node.queues.Placed fun port => may (id,port))
    (run : n.Runs sortSlice actions reports later) (fine : ∀ report ∈ reports, ∀ id, report.errors id = none)
    (injected : ∀ id pkt, Action.injectPacket id pkt ∈ actions → may (id,.output 0) pkt) :
    Accounted n sortSlice may books actions later := by
  obtain ⟨ids,known⟩ := built.nodesIn
  exact run.accounted known accounts (built.carries placed) fine injected

/-- Whatever is done with a network that was built, as long as no node fails and every handler
    accounts for its packets, no packet is lost and none appears: what is in the network and what
    was consumed is what was there at the start, was created or was accepted from outside. No
    packet is where it may not be. -/
theorem packets_accounted {actions : List Action} {reports : List Report} {later : Network σ} (built : n.Built)
    (accounts : n.Accounts sortSlice may books)
    (placed : ∀ id handle, n.nodes id = some handle → handle.node.queues.Placed fun port => may (id,port))
    (run : n.Runs sortSlice actions reports later) (fine : ∀ report ∈ reports, ∀ id, report.errors id = none)
    (injected : ∀ id pkt, Action.injectPacket id pkt ∈ actions → may (id,.output 0) pkt) :
    later.Carries may ∧ ∃ accepted : List Packet, accepted.Sublist (actions.filterMap Action.injected) ∧
      later.packets + later.consumed books + n.created books =
        n.packets + n.consumed books + later.created books + (accepted : Multiset Packet) := by
  have accounted := built.accounted accounts placed run fine injected
  exact ⟨accounted.carries,accounted.balanced⟩

theorem idle_accounts (sortSlice : SliceSort) (may : NodePort → Packet → Prop) (books : Books Unit) :
    Handler.Accounts idle sortSlice may books := by
  rintro _ ⟨⟩ qs placed ⟨⟩ qs' ran
  obtain rfl : qs = qs' := (Prod.mk.inj ran).2
  exact ⟨placed,rfl⟩

theorem stated_zero (n : Network σ) : ∑ᶠ w, n.stated (fun _ => 0) w = 0 := by
  have nothing : n.stated (fun _ => 0) = fun _ => 0 := by
    funext w
    cases w with
    | node id => rcases found : n.nodes id with _ | handle <;> simp [stated,found]
    | link index => rfl
  rw [nothing]
  exact finsum_zero

/-- The packet of the sender is for the receiver, on the link too. -/
theorem packets_accounted_two_nodes : ∃ (reports : List Report) (later : Network Unit),
    twoNodesLinked.Runs stableSort [.advanceTo 2] reports later ∧ later.Carries (fun _ pkt => pkt.targetID = 1) ∧
      later.packets = twoNodesLinked.packets := by
  obtain ⟨report,run,fine⟩ := runs_inTurns [.node 0,.link 0,.node 1] (by decide +kernel)
  let books : Books Unit := ⟨fun _ => 0,fun _ => 0⟩
  have handlers : ∀ (id : Int) (handle : NodeHandle Unit), twoNodesLinked.nodes id = some handle → handle.handler = idle ∧
      handle.node.queues.Placed fun _ pkt => pkt.targetID = 1 := by
    have packet : OutputQueue.packets (OutputQueue.injectPackets (.newOutputQueue 2 1 Nat.one_pos) 0 [{ sourceID := 0, targetID := 1 }]).2 =
        [{ sourceID := 0, targetID := 1 }] := by rfl
    intro id handle found
    have linked : twoNodes.connect 0 0 1 0 1 1 none = some (.ok twoNodesLinked) := by rfl
    obtain ⟨handle,connected,before,rfl⟩ := nodes_of_connect linked found
    by_cases isSecond : id = 1
    · subst isSecond
      cases before
      exact ⟨rfl,⟨⟨by simp [InputQueue.packets,InputQueue.newInputQueue],trivial⟩,trivial⟩⟩
    · by_cases isFirst : id = 0
      · subst isFirst
        cases before
        refine ⟨rfl,⟨trivial,⟨?_,trivial⟩⟩⟩
        rw [packet]
        simp
      · simp [twoNodes,Function.update_of_ne isFirst,Function.update_of_ne isSecond] at before
  obtain ⟨carries,accepted,part,balanced⟩ := packets_accounted built_twoNodesLinked
    (show twoNodesLinked.Accounts stableSort (fun _ pkt => pkt.targetID = 1) books from ⟨fun id handle found => by rw [(handlers id handle found).1]; exact idle_accounts _ _ _,fun _ _ _ pkt allowed => allowed⟩)
    (fun id handle found => (handlers id handle found).2) run (by simp [fine]) (by simp)
  refine ⟨_,_,run,carries,?_⟩
  obtain rfl : accepted = [] := List.sublist_nil.mp part
  have none_ : ∀ n : Network Unit, n.consumed books = 0 ∧ n.created books = 0 := fun n => ⟨n.stated_zero,n.stated_zero⟩
  simpa only [none_,add_zero,Multiset.coe_nil] using balanced

end Network
end FlowSim
