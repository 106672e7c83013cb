import FlowSim.Network.Network
import FlowSim.Node.Conduct
import FlowSim.Links.Conduct

/-!
What the workers of a network do at its ports. Every connected queue is at one end of a port
and a link at the other; `Sound` is what holds of all of them between two calls of `AdvanceTo`,
and a call in which no node fails keeps it (`Sound.after`).
-/
namespace FlowSim.Network
open FlowSim.Lib FlowSim.AheadPort FlowSim.Queue FlowSim.Node FlowSim.Links
set_option linter.unusedSimpArgs false

/-! ### Links of either type -/

namespace AnyLinkType

/-- What a link keeps from cycle to cycle. -/
def Holds : AnyLinkType → Nat → Int → Prop
  | .buffered h, cycle, refused => h.Waits cycle refused
  | .bufferless _, _, _ => True

theorem conducts : linkType.Conducts Holds := by
  intro t cycle targetCycle incoming g decided unmarked holds
  cases t with
  | buffered h =>
    refine (BufferedLinkType.conducts h cycle targetCycle incoming g decided unmarked holds).bind ?_
    rintro g' _ ⟨state,rfl,after⟩
    exact ⟨.buffered state,rfl,after⟩
  | bufferless h =>
    refine (BufferlessLinkType.conducts h cycle targetCycle incoming g decided unmarked holds).bind ?_
    rintro g' _ ⟨state,rfl,after⟩
    exact ⟨.bufferless state,rfl,after⟩

theorem keeps_promise {first : Nat} {r : EndRecord} (decided : r.decisions = List.replicate first true) :
    Keeps deciding (updateReady first true) (fun r' _ => r'.decisions = List.replicate (first + 1) true) r := by
  have length : r.decisions.length = first := by rw [decided,List.length_replicate]
  refine ⟨.inl length.symm,fun _ _ => ?_⟩
  show (r.grow (.updateReady first true) ()).decisions = _
  simp only [EndRecord.grow,if_pos length.symm]
  rw [decided,List.replicate_succ']

/-- Promising the first cycles, in order. -/
theorem keeps_promising : ∀ (count first : Nat) {g : LinkEnd → EndRecord},
    (g .upstream).decisions = List.replicate first true →
      Keeps linkConduct ((List.range' first count).forM (fun i => atEnd .upstream (updateReady i true)))
        (fun g' _ => (g' .upstream).decisions = List.replicate (first + count) true ∧ g' .downstream = g .downstream) g
  | 0, first, g, decided => ⟨decided,rfl⟩
  | count + 1, first, g, decided => by
    simp only [List.range'_succ,List.forM_eq_forM,List.forM_cons]
    refine (keeps_upstream (keeps_promise decided)).bind ?_
    rintro g₁ _ ⟨decided₁,same⟩
    have rest := keeps_promising count (first + 1) decided₁
    simp only [List.forM_eq_forM] at rest
    refine rest.mono ?_
    rintro g₂ _ ⟨decided₂,same₂⟩
    exact ⟨by rw [decided₂,Nat.add_right_comm,Nat.add_assoc],same₂.trans same⟩

/-- A link that is initialised has decided cycle 0. -/
theorem keeps_init (t : AnyLinkType) {g : LinkEnd → EndRecord} (undecided : (g .upstream).decisions = []) :
    Keeps linkConduct t.init (fun g' _ => DecidedTo 0 (g' .upstream) ∧ g' .downstream = g .downstream) g := by
  have promising : ∀ {count} {r : EndRecord}, 0 < count → r.decisions = List.replicate count true → DecidedTo 0 r := by
    intro count r pos decided
    refine ⟨?_,fun i _ inside => ?_⟩
    · rw [decided,List.length_replicate]
      exact pos
    · rw [decided,List.length_replicate] at inside
      rw [EndRecord.Promised,decided,List.getElem?_replicate,if_pos inside]
  cases t with
  | buffered h =>
    show Keeps linkConduct ((List.range (h.latency + 1)).forM (fun i => atEnd .upstream (updateReady i true))) _ g
    rw [List.range_eq_range']
    refine (keeps_promising (h.latency + 1) 0 undecided).mono ?_
    rintro g' _ ⟨decided,same⟩
    exact ⟨promising (by omega) decided,same⟩
  | bufferless h =>
    refine (keeps_upstream (keeps_promise undecided)).mono ?_
    rintro g' _ ⟨decided,same⟩
    exact ⟨promising Nat.one_pos decided,same⟩

end AnyLinkType

/-! ### The wiring -/

theorem portAt_injective (l : Connection) : Function.Injective l.portAt := by
  intro first second same
  cases first <;> cases second <;> first | rfl | exact absurd (congrArg Prod.snd same) (by simp [Connection.portAt])

end FlowSim.Network

namespace FlowSim.Network
open FlowSim.Lib FlowSim.AheadPort FlowSim.Queue FlowSim.Node FlowSim.Links
variable {σ : Type}

/-- The workers at the port of a queue: its node, and the link that was connected to it. Only
    nodes send promptly. -/
def wiring (links : List Connection) : Wiring Worker PortId
  | (id,.output queue) => ((links.map Connection.source).idxOf? (id,queue)).map fun index =>
      { sender := .node id, receiver := .link index, prompt := true, apart := by simp }
  | (id,.input queue) => ((links.map Connection.target).idxOf? (id,queue)).map fun index =>
      { sender := .link index, receiver := .node id, prompt := false, apart := by simp }

/-- No queue is connected twice. -/
structure Apart (links : List Connection) : Prop where
  sources : (links.map Connection.source).Nodup
  targets : (links.map Connection.target).Nodup

theorem idxOf?_of_nodup {α : Type} [BEq α] [LawfulBEq α] {xs : List α} (nodup : xs.Nodup) {i : Nat} {x : α}
    (found : xs[i]? = some x) : xs.idxOf? x = some i := by
  obtain ⟨inside,rfl⟩ := List.getElem?_eq_some_iff.mp found
  rw [List.idxOf?,List.findIdx?_eq_some_iff_getElem]
  refine ⟨inside,by simp,fun j before => ?_⟩
  rw [Bool.not_eq_true,beq_eq_false_iff_ne]
  intro same
  have := (nodup.getElem_inj_iff).mp same
  omega

section
variable {links : List Connection} {index : Nat} {l : Connection}

theorem wiring_upstream (apart : Apart links) (found : links[index]? = some l) :
    wiring links (l.portAt .upstream) =
      some { sender := .node l.source.1, receiver := .link index, prompt := true, apart := by simp } := by
  have source : (links.map Connection.source)[index]? = some (l.source.1,l.source.2) := by
    rw [List.getElem?_map,found]
    rfl
  simp only [Connection.portAt,wiring,idxOf?_of_nodup apart.sources source,Option.map_some]

theorem wiring_downstream (apart : Apart links) (found : links[index]? = some l) :
    wiring links (l.portAt .downstream) =
      some { sender := .link index, receiver := .node l.target.1, prompt := false, apart := by simp } := by
  have target : (links.map Connection.target)[index]? = some (l.target.1,l.target.2) := by
    rw [List.getElem?_map,found]
    rfl
  simp only [Connection.portAt,wiring,idxOf?_of_nodup apart.targets target,Option.map_some]

theorem works_link (apart : Apart links) (found : links[index]? = some l) (side : LinkEnd) :
    (wiring links).Works (.link index) (l.portAt side) ∧ (wiring links).role (.link index) (l.portAt side) = linkRole side := by
  cases side with
  | upstream =>
    have here := wiring_upstream apart found
    exact ⟨⟨_,here,.inr rfl⟩,Wiring.role_receiver here⟩
  | downstream =>
    have here := wiring_downstream apart found
    exact ⟨⟨_,here,.inl rfl⟩,Wiring.role_sender here⟩

theorem works_node {id : Int} {port : NodePort} (wired : (wiring links (id,port)).isSome = true) :
    (wiring links).Works (.node id) (id,port) ∧ (wiring links).role (.node id) (id,port) = nodeRole port := by
  obtain ⟨joint,here⟩ := Option.isSome_iff_exists.mp wired
  cases port with
  | output queue =>
    obtain ⟨index,_,rfl⟩ := Option.map_eq_some_iff.mp here
    exact ⟨⟨_,here,.inl rfl⟩,Wiring.role_sender here⟩
  | input queue =>
    obtain ⟨index,_,rfl⟩ := Option.map_eq_some_iff.mp here
    exact ⟨⟨_,here,.inr rfl⟩,Wiring.role_receiver here⟩

variable {α : Type} {g : PortId → EndRecord}

/-- The program of a link, between its two ports. -/
theorem keeps_link (apart : Apart links) (found : links[index]? = some l) {p : Prog linkPorts α}
    {R : (LinkEnd → EndRecord) → α → Prop} (keeps : Keeps linkConduct p R fun side => g (l.portAt side)) :
    Keeps ((wiring links).conduct (.link index)) (p.relabel l.portAt) (fun g' value => R (fun side => g' (l.portAt side)) value) g :=
  (keeps_relabel (portAt_injective l) (fun side _ => works_link apart found side) keeps).mono fun _ _ both => both.1

/-- The program of a node, at its connected ports. -/
theorem keeps_node {id : Int} {connected : NodePort → Bool}
    (attached : ∀ port, connected port = true → (wiring links (id,port)).isSome = true) {p : Prog nodePorts α}
    {R : (NodePort → EndRecord) → α → Prop} (keeps : Keeps (nodeConduct connected) p R fun port => g (id,port)) :
    Keeps ((wiring links).conduct (.node id)) (p.relabel fun port => (id,port)) (fun g' value => R (fun port => g' (id,port)) value) g :=
  (keeps_relabel (fun _ _ same => congrArg Prod.snd same) (fun port isConnected => works_node (attached port isConnected))
    keeps).mono fun _ _ both => both.1

end
end FlowSim.Network

namespace FlowSim
open FlowSim.Lib FlowSim.AheadPort FlowSim.Queue FlowSim.Node FlowSim.Links FlowSim.Network

namespace Network
variable {σ : Type}

/-! ### Between two calls -/

/-- A link that has still to be initialised. -/
structure Fresh (l : Connection) (g : LinkEnd → EndRecord) : Prop where
  delayed : 0 < l.link.latency
  current : l.link.currentCycle = 0
  undecided : (g .upstream).decisions = []
  unmarked : Unmarked 0 (g .downstream)
  marked : (g .downstream).marked = -1
  holds : l.link.state.Holds 0 (g .downstream).refused

/-- All nodes and links are at the same cycle, which the network has reached at some time. -/
structure Abreast (n : Network σ) (cycle : Nat) : Prop where
  reached : n.currentCycle ≤ cycle
  nodes : ∀ id handle, n.nodes id = some handle → handle.node.currentCycle = cycle
  links : ∀ l ∈ n.links, l.link.currentCycle = cycle

/-- What holds between two calls, given what each worker has done at the ports. -/
structure Sound (n : Network σ) (g : Worker → PortId → EndRecord) : Prop where
  apart : Apart n.links
  abreast : ∃ cycle, n.Abreast cycle
  known : ∀ p, (wiring n.links p).isSome = true → n.nodes p.1 ≠ none
  attached : ∀ id handle, n.nodes id = some handle → ∀ port,
    handle.node.connected port = true ↔ (wiring n.links (id,port)).isSome = true
  consistent : (wiring n.links).Consistent (fun p => (n.ports p).exchange) g
  nodes : ∀ id handle, n.nodes id = some handle → handle.node.Standing handle.node.currentCycle fun port => g (.node id) (id,port)
  links : ∀ (index : Nat) l, n.links[index]? = some l →
    if n.frozen then l.link.Standing AnyLinkType.Holds fun side => g (.link index) (l.portAt side)
    else Fresh l fun side => g (.link index) (l.portAt side)

variable {n : Network σ} {g : Worker → PortId → EndRecord} {sortSlice : SliceSort} {targetCycle : Nat}

/-! ### Freezing -/

/-- The links are initialised one after the other. -/
theorem Sound.initLinks (sound : n.Sound g) : ∀ (rest : List Connection) (k : Nat) {ports ports' : PortId → Port}
    {g₁ : Worker → PortId → EndRecord}, n.links.drop k = rest →
    (wiring n.links).Consistent (fun p => (ports p).exchange) g₁ → (∀ id, g₁ (.node id) = g (.node id)) →
    (∀ (index : Nat) l, n.links[index]? = some l →
      if index < k then l.link.Standing AnyLinkType.Holds fun side => g₁ (.link index) (l.portAt side)
      else Fresh l fun side => g₁ (.link index) (l.portAt side)) →
    Network.initLinks rest ports = some ports' → ∃ g', (wiring n.links).Consistent (fun p => (ports' p).exchange) g' ∧
      (∀ id, g' (.node id) = g (.node id)) ∧ ∀ (index : Nat) l, n.links[index]? = some l →
        l.link.Standing AnyLinkType.Holds fun side => g' (.link index) (l.portAt side)
  | [], k, ports, ports', g₁, left, consistent, same, links, ran => by
    obtain rfl := Option.some.inj ran
    refine ⟨g₁,consistent,same,fun index l found => ?_⟩
    have inside := (List.getElem?_eq_some_iff.mp found).1
    have all := List.drop_eq_nil_iff.mp left
    have standing := links index l found
    rwa [if_pos (by omega)] at standing
  | l :: rest, k, ports, ports', g₁, left, consistent, same, links, ran => by
    obtain ⟨⟨⟨⟩,ports₁⟩,first,later⟩ := Option.bind_eq_some_iff.mp ran
    have here : n.links[k]? = some l := by
      have head := congrArg (fun xs => xs[0]?) left
      simpa using head
    have fresh := links k l here
    rw [if_neg (Nat.lt_irrefl k)] at fresh
    have keeps := keeps_link (g := g₁ (.link k)) sound.apart here (l.link.state.keeps_init fresh.undecided)
    obtain ⟨h,consistent₁,decided,kept⟩ := Wiring.supports.alone (.link k) consistent keeps
      (port_refines_exchange.each.alone first)
    have others : ∀ index, index ≠ k → Function.update g₁ (.link k) h (.link index) = g₁ (.link index) :=
      fun index other => Function.update_of_ne (by simpa using other) ..
    refine sound.initLinks rest (k + 1) ?_ consistent₁ ?_ ?_ later
    · rw [← List.drop_drop,left]
      rfl
    · intro id
      rw [Function.update_of_ne (by simp)]
      exact same id
    · intro index l' found
      by_cases now : index = k
      · subst now
        obtain rfl := Option.some.inj (here.symm.trans found)
        have kept : h (l.portAt .downstream) = g₁ (.link index) (l.portAt .downstream) := kept
        rw [if_pos (Nat.lt_succ_self index),Function.update_self]
        have current := fresh.current
        refine ⟨fresh.delayed,?_,?_,?_,?_⟩
        · rw [current]
          exact decided
        · rw [current,kept]
          exact fresh.unmarked
        · rw [current,kept,fresh.marked]
          rfl
        · rw [current,kept]
          exact fresh.holds
      · rw [others index now]
        have before := links index l' found
        by_cases done : index < k
        · rw [if_pos done] at before
          rw [if_pos (by omega)]
          exact before
        · rw [if_neg done] at before
          rw [if_neg (by omega)]
          exact before

/-- A network that is frozen still has what holds between two calls. -/
theorem Sound.freeze {opened : Network σ} (sound : n.Sound g) (isOpen : n.freeze = some opened) :
    opened.frozen = true ∧ ∃ g', opened.Sound g' := by
  unfold Network.freeze at isOpen
  split_ifs at isOpen with frozen
  · obtain rfl := Option.some.inj isOpen
    exact ⟨frozen,g,sound⟩
  · obtain ⟨ports,ran,rfl⟩ := Option.map_eq_some_iff.mp isOpen
    obtain ⟨g',consistent,same,links⟩ := sound.initLinks n.links 0 rfl sound.consistent (fun _ => rfl) (by
      intro index l found
      have fresh := sound.links index l found
      rw [if_neg frozen] at fresh
      rwa [if_neg (Nat.not_lt_zero index)]) ran
    have abreast := sound.abreast.imp fun _ abreast =>
      (⟨abreast.reached,abreast.nodes,abreast.links⟩ : Abreast { n with ports, frozen := true } _)
    refine ⟨rfl,g',sound.apart,abreast,sound.known,sound.attached,consistent,?_,?_⟩
    · intro id handle found
      rw [same]
      exact sound.nodes id handle found
    · intro index l found
      rw [if_pos rfl]
      exact links index l found

/-! ### A call -/

/-- What a worker ends with. -/
def Ends (n : Network σ) (targetCycle : Nat) : (w : Worker) → (PortId → EndRecord) → Result σ w → Prop
  | .node id, g, some (error,node) => ∃ handle, n.nodes id = some handle ∧ node.connected = handle.node.connected ∧
      (error = none → node.currentCycle = max handle.node.currentCycle (targetCycle + 1) ∧
        node.Standing node.currentCycle fun port => g (id,port))
  | .node id, _, none => n.nodes id = none
  | .link index, g, some (some link) => ∃ l, n.links[index]? = some l ∧
      link.currentCycle = max l.link.currentCycle (targetCycle + 1) ∧
      link.Standing AnyLinkType.Holds fun side => g (l.portAt side)
  | .link _, _, some none => False
  | .link index, _, none => n.links[index]? = none

/-- Every worker does at its ports what it may. -/
theorem Sound.keeps_work (sound : n.Sound g) (frozen : n.frozen = true) (w : Worker) :
    Keeps ((wiring n.links).conduct w) (n.work sortSlice targetCycle w) (n.Ends targetCycle w) (g w) := by
  cases w with
  | node id =>
    rcases found : n.nodes id with _ | handle
    · simp only [work,found]
      exact found
    · simp only [work,found]
      have advanced := BaseNode.keeps_advanceTo handle.handler sortSlice targetCycle (sound.nodes id handle found)
      refine (keeps_node (fun port => (sound.attached id handle found port).mp) advanced).bind ?_
      rintro g' ⟨error,node⟩ ⟨connected,standing⟩
      exact ⟨handle,found,connected,standing⟩
  | link index =>
    rcases found : n.links[index]? with _ | l
    · simp only [work,found]
      exact found
    · simp only [work,found]
      have standing := sound.links index l found
      rw [if_pos frozen] at standing
      refine (keeps_link sound.apart found (Link.keeps_advanceTo AnyLinkType.conducts targetCycle standing)).bind ?_
      rintro g' _ ⟨link,rfl,current,ended⟩
      exact ⟨l,found,current,ended⟩

theorem wiring_congr {links links' : List Connection} (sources : links.map Connection.source = links'.map Connection.source)
    (targets : links.map Connection.target = links'.map Connection.target) : wiring links = wiring links' := by
  funext p
  obtain ⟨id,queue | queue⟩ := p
  · simp only [wiring,targets]
  · simp only [wiring,sources]

/-- The links of a network are where they were before the call. -/
theorem links_after (n : Network σ) (targetCycle : Nat) (c : Call σ) :
    (n.after targetCycle c).links.map Connection.source = n.links.map Connection.source ∧
      (n.after targetCycle c).links.map Connection.target = n.links.map Connection.target := by
  constructor
  · refine List.ext_getElem? fun i => ?_
    simp only [after,List.getElem?_map,List.getElem?_mapIdx,Option.map_map]
    congr 1
    funext l
    simp only [Function.comp]
    split <;> rfl
  · refine List.ext_getElem? fun i => ?_
    simp only [after,List.getElem?_map,List.getElem?_mapIdx,Option.map_map]
    congr 1
    funext l
    simp only [Function.comp]
    split <;> rfl

section
variable {c : Call σ}
  (governed : Governed (wiring n.links).conduct (wiring n.links).Consistent g (n.Ends targetCycle) (c.map fun s p => (s p).exchange))
  (finished : ∀ w, c.Finished w)
include governed finished

theorem node_after (fine : ∀ id, errorOf (c.prog (.node id)) = none) {id : Int} {handle' : NodeHandle σ}
    (found' : (n.after targetCycle c).nodes id = some handle') : ∃ handle, n.nodes id = some handle ∧
      handle'.node.connected = handle.node.connected ∧
      handle'.node.currentCycle = max handle.node.currentCycle (targetCycle + 1) ∧
      handle'.node.Standing handle'.node.currentCycle fun port =>
        ((wiring n.links).conduct (.node id)).history (g (.node id)) (c.log (.node id)) (id,port) := by
  obtain ⟨handle,found,rfl⟩ := Option.map_eq_some_iff.mp found'
  obtain ⟨value,isDone⟩ := finished (.node id)
  have ends : n.Ends targetCycle (.node id) _ value := governed.result isDone
  have noError := fine id
  rw [isDone] at noError
  rw [isDone]
  rcases value with _ | ⟨error,node⟩
  · have nothing : n.nodes id = none := ends
    rw [found] at nothing
    cases nothing
  · obtain ⟨before,found₁,connected,standing⟩ := ends
    obtain rfl := Option.some.inj (found.symm.trans found₁)
    exact ⟨handle,found,connected,standing noError⟩

theorem link_after {index : Nat} {l' : Connection}
    (found' : (n.after targetCycle c).links[index]? = some l') : ∃ l, n.links[index]? = some l ∧
      l'.link.currentCycle = max l.link.currentCycle (targetCycle + 1) ∧
      l'.link.Standing AnyLinkType.Holds fun side =>
        ((wiring n.links).conduct (.link index)).history (g (.link index)) (c.log (.link index)) (l'.portAt side) := by
  have found' : (n.links.mapIdx _)[index]? = some l' := found'
  rw [List.getElem?_mapIdx] at found'
  obtain ⟨l,found,rfl⟩ := Option.map_eq_some_iff.mp found'
  obtain ⟨value,isDone⟩ := finished (.link index)
  have ends : n.Ends targetCycle (.link index) _ value := governed.result isDone
  rw [isDone]
  rcases value with _ | _ | link
  · have nothing : n.links[index]? = none := ends
    rw [found] at nothing
    cases nothing
  · exact ends.elim
  · obtain ⟨before,found₁,current,standing⟩ := ends
    obtain rfl := Option.some.inj (found.symm.trans found₁)
    exact ⟨l,found,current,standing⟩

end

/-- A call in which no node fails leaves what holds between two calls. -/
theorem Sound.after {c : Call σ} (sound : n.Sound g) (frozen : n.frozen = true)
    (reach : networkMachine.Reach (n.start sortSlice targetCycle) c) (finished : ∀ w, c.Finished w) (fine : ∀ id, errorOf (c.prog (.node id)) = none) :
    ∃ g', (n.after targetCycle c).Sound g' := by
  have governed := Wiring.governed_reach sound.consistent (sound.keeps_work frozen) reach
  obtain ⟨sources,targets⟩ := links_after n targetCycle c
  have wired := wiring_congr sources targets
  refine ⟨fun w => ((wiring n.links).conduct w).history (g w) (c.log w),?_,?_,?_,?_,?_,?_,?_⟩
  · exact ⟨sources ▸ sound.apart.sources,targets ▸ sound.apart.targets⟩
  · obtain ⟨cycle,abreast⟩ := sound.abreast
    refine ⟨max cycle (targetCycle + 1),le_max_right _ _,?_,?_⟩
    · intro id handle' found'
      obtain ⟨handle,found,_,current,_⟩ := node_after governed finished fine found'
      rw [current,abreast.nodes id handle found]
    · intro l' member
      obtain ⟨index,found'⟩ := List.getElem?_of_mem member
      obtain ⟨l,found,current,_⟩ := link_after governed finished found'
      rw [current,abreast.links l (List.mem_of_getElem? found)]
  · intro p isWired
    rw [wired] at isWired
    have known := sound.known p isWired
    simpa [Network.after] using known
  · intro id handle' found' port
    obtain ⟨handle,found,connected,_⟩ := node_after governed finished fine found'
    rw [connected,wired]
    exact sound.attached id handle found port
  · rw [wired]
    exact governed.related
  · intro id handle' found'
    obtain ⟨_,_,_,_,standing⟩ := node_after governed finished fine found'
    exact standing
  · intro index l' found'
    rw [show (n.after targetCycle c).frozen = true from frozen,if_pos rfl]
    obtain ⟨_,_,_,standing⟩ := link_after governed finished found'
    exact standing

end Network
end FlowSim
