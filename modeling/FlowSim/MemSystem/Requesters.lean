import FlowSim.MemSystem.Takes

/-!
Cores under shared caches, the shared caches under a memory controller, and the DRAM
channels under it. Packets on the links are kept together with the core whose request
they carry or answer; nothing that a handler does depends on that. A handler visits its
input queues with any of the packets that are on the way to it, and output queues may
reject what they like.
-/
namespace FlowSim.MemSystem
open FlowSim.Lib FlowSim.Node FlowSim.Queue FlowSim.Cache
set_option linter.unusedSimpArgs false

/-- A core: the shared cache above which it is, and its place there. -/
structure Core where
  l2 : Nat
  cpu : Nat
deriving DecidableEq

/-- A packet and the core whose request it carries or answers. -/
structure Tagged where
  pkt : Packet
  core : Core
deriving DecidableEq

inductive Link where
  | cpuToL2 (core : Core)
  | l2ToCPU (core : Core)
  | l2ToMC (l2 : Nat)
  | mcToL2 (l2 : Nat)
  | mcToDRAM (channel : Nat)
  | dramToMC (channel : Nat)
deriving DecidableEq

/-- `stored` and `owing` tell whose requests the packets of a DRAM channel and its
    pending responses are. -/
structure Net where
  l2 : Nat → L2CacheNodeHandler
  mc : MemoryControllerHandler
  dram : Nat → DRAMNodeHandler
  link : Link → List Tagged
  received : Core → List Tagged
  stored : Nat → Dram.PacketRef → Core
  owing : Nat → List Core

/-- The packets that a handler finds in its input queues, whose they are, and what its
    output queues reject. -/
structure Visit where
  cycle : Nat
  inputs : List (List PacketRef)
  core : PacketRef → Core
  rejected : PacketRef → Bool

inductive Action where
  | request (core : Core) (pkt : Packet)
  | receive (core : Core) (t : Tagged)
  | l2 (i : Nat) (visit : Visit)
  | mc (visit : Visit)
  | dram (channel : Nat) (visit : Visit) (batchRejected : Bool)

namespace Net

def l2Input (i numCPUs queue : Nat) : Link := if queue < numCPUs then .cpuToL2 ⟨i,queue⟩ else .mcToL2 i

def l2Output (i numCPUs output : Nat) : Link := if output < numCPUs then .l2ToCPU ⟨i,output⟩ else .l2ToMC i

def mcInput (numUpstream queue : Nat) : Link :=
  if queue < numUpstream then .l2ToMC queue else .dramToMC (queue - numUpstream)

def mcOutput (numUpstream output : Nat) : Link :=
  if output < numUpstream then .mcToL2 output else .mcToDRAM (output - numUpstream)

/-- Every input queue of the visit has packets of its link. -/
def Finds (net : Net) (inputLink : Nat → Link) (visit : Visit) : Prop :=
  ∀ queue < visit.inputs.length, (∀ ref ∈ visit.inputs.getD queue [], ref.queue = queue) ∧
    ((visit.inputs.getD queue []).map fun ref => Tagged.mk ref.packet (visit.core ref)).Subperm (net.link (inputLink queue))

instance (net : Net) (inputLink : Nat → Link) (visit : Visit) : Decidable (net.Finds inputLink visit) :=
  inferInstanceAs (Decidable (∀ queue < _, _ ∧ _))

/-- The links after the packets were taken, and their answers sent. -/
def pass (net : Net) (inputLink outputLink : Nat → Link) (visit : Visit)
    (taken : List (PacketRef × Option (Nat × Packet))) (link : Link) : List Tagged :=
  (net.link link).diff (taken.filterMap fun t =>
    if inputLink t.1.queue = link then some ⟨t.1.packet,visit.core t.1⟩ else none) ++
  taken.filterMap fun t =>
    if visit.rejected t.1 then none
    else t.2.bind fun sent => if outputLink sent.1 = link then some ⟨sent.2,visit.core t.1⟩ else none

/-- Whose a channel's packets are when it has taken more: they are numbered in turn. -/
def storedAfter (net : Net) (channel : Nat) (visit : Visit) (taken : List (PacketRef × Option (Nat × Packet)))
    (pkt : Dram.PacketRef) : Core :=
  if pkt < (net.dram channel).nextPkt then net.stored channel pkt
  else (taken[pkt - (net.dram channel).nextPkt]?).elim (net.stored channel pkt) fun t => visit.core t.1

/-- Whose the pending responses are, with those of the callbacks called since `h`. -/
def owingAfter (net : Net) (channel : Nat) (stored : Dram.PacketRef → Core) (h' : DRAMNodeHandler) : List Core :=
  net.owing channel ++ (h'.dramChannel.dc.calls.drop (net.dram channel).dramChannel.dc.calls.length).map fun call =>
    stored call.pkt

/-- A DRAM channel that has taken its packets sends the pending responses, unless an error
    `stopped` it. -/
def sendDRAM (net : Net) (channel : Nat) (visit : Visit) (batchRejected : Bool)
    (taken : List (PacketRef × Option (Nat × Packet))) (stopped : Option String) (h' : DRAMNodeHandler) : Net :=
  let b := DRAMNodeHandler.batching visit.cycle
  let stored := net.storedAfter channel visit taken
  let owing := net.owingAfter channel stored h'
  let batch := if stopped = none ∧ batchRejected = false then ((b.pending h').zip owing).map fun x => Tagged.mk x.1 x.2 else []
  let link := net.pass (fun _ => .mcToDRAM channel) (fun _ => .dramToMC channel) visit taken
  { net with
    dram := Function.update net.dram channel (if stopped = none then b.clear h' else h')
    stored := Function.update net.stored channel stored
    owing := Function.update net.owing channel (if stopped = none then [] else owing)
    link := Function.update link (.dramToMC channel) (link (.dramToMC channel) ++ batch) }

/-- A cycle of a DRAM channel. -/
def visitDRAM (net : Net) (channel : Nat) (visit : Visit) (batchRejected : Bool) : Net :=
  let b := DRAMNodeHandler.batching visit.cycle
  net.sendDRAM channel visit batchRejected (b.takes (net.dram channel) visit.inputs).taken
    (b.prepared (net.dram channel) visit.inputs).1 (b.prepared (net.dram channel) visit.inputs).2

def step (net : Net) : Action → Option Net
  | .request core pkt =>
    some { net with link := Function.update net.link (.cpuToL2 core) (net.link (.cpuToL2 core) ++ [⟨pkt,core⟩]) }
  | .receive core t =>
    if t ∈ net.link (.l2ToCPU core) then some { net with
      link := Function.update net.link (.l2ToCPU core) ((net.link (.l2ToCPU core)).erase t)
      received := Function.update net.received core (net.received core ++ [t]) }
    else none
  | .l2 i visit =>
    let h := net.l2 i
    let numCPUs := h.cpuNodeIDs.length
    if net.Finds (l2Input i numCPUs) visit then some { net with
      l2 := Function.update net.l2 i (h.takes visit.cycle visit.inputs).state
      link := net.pass (l2Input i numCPUs) (l2Output i numCPUs) visit (h.takes visit.cycle visit.inputs).taken }
    else none
  | .mc visit =>
    let numUpstream := net.mc.upstreamNodeIDs.length
    if net.Finds (mcInput numUpstream) visit then some { net with
      mc := (net.mc.takes visit.cycle visit.inputs).state
      link := net.pass (mcInput numUpstream) (mcOutput numUpstream) visit (net.mc.takes visit.cycle visit.inputs).taken }
    else none
  | .dram channel visit batchRejected =>
    if net.Finds (fun _ => .mcToDRAM channel) visit then some (net.visitDRAM channel visit batchRejected) else none

/-- Nothing has been sent yet, and the DRAM channels are new. -/
structure Fresh (net : Net) : Prop where
  link : ∀ l, net.link l = []
  received : ∀ core, net.received core = []
  owing : ∀ channel, net.owing channel = []
  dram : ∀ channel, ∃ config packets dc nodeID cpuID, Dram.DRAMChannel.newDRAMChannel config packets = .ok dc ∧
    net.dram channel = .newDRAMNodeHandler nodeID cpuID dc

/-- The responses on their way are going to the nodes that sent the requests on, and
    every response received answers a request of its receiver. -/
structure Returning (net : Net) : Prop where
  toL2 : ∀ i, ∀ t ∈ net.link (.mcToL2 i), t.core.l2 = i
  toCPU : ∀ core, ∀ t ∈ net.link (.l2ToCPU core), t.core = core
  received : ∀ core, ∀ t ∈ net.received core, t.core = core

/-- The cache above to which the controller sends all the responses of a channel. -/
def home (net : Net) (channel : Nat) : Nat := net.mc.upstreamIndex (net.dram channel).cpuID

/-- What a shared cache sends on to memory is from its first core, and what the controller
    sends to a channel is from the cache to which the responses of that channel go. -/
def FromTheFirst (net : Net) : Action → Prop
  | .l2 i visit =>
    let h := net.l2 i
    ∀ taken ∈ (h.takes visit.cycle visit.inputs).taken, taken.1.queue < h.cpuNodeIDs.length →
      taken.2.map Prod.fst = some h.cpuNodeIDs.length → taken.1.queue = 0
  | .mc visit =>
    ∀ queue < net.mc.upstreamNodeIDs.length, ∀ ref ∈ visit.inputs.getD queue [],
      ∀ channel ∈ net.mc.selectChannel ref.packet.addr, queue = net.home channel
  | _ => True

instance (net : Net) : (action : Action) → Decidable (net.FromTheFirst action)
  | .l2 _ _ => inferInstanceAs (Decidable (∀ taken ∈ _, _ → _ → _))
  | .mc _ => inferInstanceAs (Decidable (∀ queue < _, ∀ ref ∈ _, ∀ channel ∈ _, _))
  | .request _ _ => inferInstanceAs (Decidable True)
  | .receive _ _ => inferInstanceAs (Decidable True)
  | .dram _ _ _ => inferInstanceAs (Decidable True)

/-! ### What is on the links -/

/-- A packet on this link is its core's who is to be served by the link, and a response
    of a channel has the channel's target. -/
def Proper (net : Net) : Link → Tagged → Prop
  | .cpuToL2 core, t => t.core = core
  | .l2ToCPU core, t => t.core = core
  | .l2ToMC i, t => t.core = ⟨i,0⟩
  | .mcToL2 i, t => t.core = ⟨i,0⟩
  | .mcToDRAM channel, t => t.core = ⟨net.home channel,0⟩
  | .dramToMC channel, t => t.core = ⟨net.home channel,0⟩ ∧ t.pkt.targetID = (net.dram channel).cpuID

/-- All packets are proper, on the links, in the DRAM channels and at the cores. -/
structure Homeward (net : Net) : Prop where
  link : ∀ link, ∀ t ∈ net.link link, net.Proper link t
  stored : ∀ channel, ∀ pkt ∈ (net.dram channel).dramChannel.accepted, net.stored channel pkt = ⟨net.home channel,0⟩
  owing : ∀ channel, ∀ core ∈ net.owing channel, core = ⟨net.home channel,0⟩
  received : ∀ core, ∀ t ∈ net.received core, t.core = core
  stocked : ∀ channel, (net.dram channel).Stocked

section
variable {net : Net} {inputLink outputLink : Nat → Link} {visit : Visit} {taken : List (PacketRef × Option (Nat × Packet))}

/-- A visit that answers properly keeps the links proper. -/
theorem proper_pass (before : ∀ link, ∀ t ∈ net.link link, net.Proper link t)
    (answers : ∀ x ∈ taken, ∀ k p, x.2 = some (k,p) → net.Proper (outputLink k) ⟨p,visit.core x.1⟩) :
    ∀ link, ∀ t ∈ net.pass inputLink outputLink visit taken link, net.Proper link t := by
  intro link t member
  rcases List.mem_append.mp member with old | new
  · exact before link t (List.diff_subset _ _ old)
  · obtain ⟨x,isTaken,found⟩ := List.mem_filterMap.mp new
    split at found
    · cases found
    · obtain ⟨⟨k,p⟩,sent,found⟩ := Option.bind_eq_some_iff.mp found
      rw [Option.ite_none_right_eq_some] at found
      obtain ⟨rfl,same⟩ := found
      obtain rfl := Option.some.inj same
      exact answers x isTaken k p sent

/-- So does a link whose packets become other proper packets. -/
theorem proper_update {links : Link → List Tagged} (before : ∀ link, ∀ t ∈ links link, net.Proper link t) {changed : Link}
    {packets : List Tagged} (proper : ∀ t ∈ packets, net.Proper changed t) :
    ∀ link, ∀ t ∈ Function.update links changed packets link, net.Proper link t := by
  intro link t member
  by_cases same : link = changed
  · subst same
    rw [Function.update_self] at member
    exact proper t member
  · rw [Function.update_of_ne same] at member
    exact before link t member

/-- What a visit finds in an input queue was on its link. -/
theorem Finds.mem (finds : net.Finds inputLink visit) {queue : Nat} {ref : PacketRef}
    (given : ref ∈ visit.inputs.getD queue []) :
    ref.queue = queue ∧ (⟨ref.packet,visit.core ref⟩ : Tagged) ∈ net.link (inputLink queue) := by
  by_cases inside : queue < visit.inputs.length
  · obtain ⟨own,part⟩ := finds queue inside
    exact ⟨own ref given,part.subset (List.mem_map_of_mem given)⟩
  · rw [List.getD_eq_getElem?_getD,List.getElem?_eq_none (Nat.not_lt.mp inside)] at given
    exact absurd given List.not_mem_nil

end

theorem Fresh.homeward {net : Net} (fresh : net.Fresh) : net.Homeward := by
  have accepted : ∀ channel, (net.dram channel).dramChannel.accepted = [] := by
    intro channel
    obtain ⟨_,_,_,_,_,_,new⟩ := fresh.dram channel
    rw [new]
    rfl
  refine ⟨?_,?_,?_,?_,?_⟩
  · intro link t member
    rw [fresh.link] at member
    cases member
  · intro channel pkt member
    rw [accepted] at member
    cases member
  · intro channel core member
    rw [fresh.owing] at member
    cases member
  · intro core t member
    rw [fresh.received] at member
    cases member
  · intro channel
    obtain ⟨_,_,_,nodeID,cpuID,created,new⟩ := fresh.dram channel
    rw [new]
    exact .new created nodeID cpuID

/-- A shared cache answers a core, or sends on what its first core asks for. -/
theorem Homeward.l2 {net : Net} (homeward : net.Homeward) {i : Nat} {visit : Visit}
    (finds : net.Finds (l2Input i (net.l2 i).cpuNodeIDs.length) visit) (first : net.FromTheFirst (.l2 i visit)) :
    Homeward { net with
      l2 := Function.update net.l2 i ((net.l2 i).takes visit.cycle visit.inputs).state
      link := net.pass (l2Input i (net.l2 i).cpuNodeIDs.length) (l2Output i (net.l2 i).cpuNodeIDs.length) visit
        ((net.l2 i).takes visit.cycle visit.inputs).taken } := by
  refine ⟨proper_pass homeward.link ?_,homeward.stored,homeward.owing,homeward.received,homeward.stocked⟩
  intro x isTaken k p sent
  obtain ⟨q,k',p',given,sent',places⟩ := ((net.l2 i).takes_spec visit.cycle visit.inputs).2 x isTaken
  rw [sent] at sent'
  cases sent'
  obtain ⟨own,wasOn⟩ := finds.mem given
  have proper := homeward.link _ _ wasOn
  rcases places with ⟨rfl,some_core,rfl⟩ | ⟨inside,rfl | rfl⟩
  · rw [l2Input,if_neg (Nat.lt_irrefl _)] at proper
    rw [l2Output,if_pos some_core]
    exact proper
  · rw [l2Input,if_pos inside] at proper
    rw [l2Output,if_pos inside]
    exact proper
  · rw [l2Input,if_pos inside] at proper
    rw [l2Output,if_neg (Nat.lt_irrefl _)]
    have zero := first x isTaken (by rw [own]; exact inside) (by rw [sent]; rfl)
    rw [own] at zero
    rw [zero] at proper
    exact proper

/-- The controller sends a request to a channel whose responses come back to the cache
    that it is from. -/
theorem Homeward.mc {net : Net} (homeward : net.Homeward) {visit : Visit}
    (finds : net.Finds (mcInput net.mc.upstreamNodeIDs.length) visit) (first : net.FromTheFirst (.mc visit)) :
    Homeward { net with
      mc := (net.mc.takes visit.cycle visit.inputs).state
      link := net.pass (mcInput net.mc.upstreamNodeIDs.length) (mcOutput net.mc.upstreamNodeIDs.length) visit
        (net.mc.takes visit.cycle visit.inputs).taken } := by
  obtain ⟨same,spec⟩ := net.mc.takes_spec visit.cycle visit.inputs
  rw [same]
  refine ⟨proper_pass homeward.link ?_,homeward.stored,homeward.owing,homeward.received,homeward.stocked⟩
  intro x isTaken k p sent
  obtain ⟨q,k',p',given,sent',places⟩ := spec x isTaken
  rw [sent] at sent'
  cases sent'
  obtain ⟨own,wasOn⟩ := finds.mem given
  have proper := homeward.link _ _ wasOn
  rcases places with ⟨above,channel,selected,rfl⟩ | ⟨below,inside,rfl⟩
  · rw [mcInput,if_pos above,first q above x.1 given channel selected] at proper
    rw [mcOutput,if_neg (by omega),Nat.add_sub_cancel_left]
    exact proper
  · rw [mcInput,if_neg (Nat.not_lt.mpr below)] at proper
    rw [mcOutput,if_pos inside]
    obtain ⟨core,target⟩ := proper
    rw [home,← target] at core
    exact core

/-- A channel's responses are those of the packets that it stores. -/
theorem Homeward.dram {net : Net} (homeward : net.Homeward) {channel : Nat} {visit : Visit} {batchRejected : Bool}
    (finds : net.Finds (fun _ => .mcToDRAM channel) visit) : Homeward (net.visitDRAM channel visit batchRejected) := by
  obtain ⟨now,cpuID,accepted,called⟩ := (homeward.stocked channel).prepared visit.cycle visit.inputs
  have taken_spec := (DRAMNodeHandler.batching visit.cycle).takes_spec (net.dram channel) visit.inputs
  rw [visitDRAM]
  generalize ((DRAMNodeHandler.batching visit.cycle).takes (net.dram channel) visit.inputs).taken = taken at accepted taken_spec ⊢
  generalize ((DRAMNodeHandler.batching visit.cycle).prepared (net.dram channel) visit.inputs).1 = stopped
  generalize ((DRAMNodeHandler.batching visit.cycle).prepared (net.dram channel) visit.inputs).2 = h' at now cpuID accepted called ⊢
  have stored : ∀ pkt ∈ h'.dramChannel.accepted, net.storedAfter channel visit taken pkt = ⟨net.home channel,0⟩ := by
    intro pkt member
    rw [accepted] at member
    unfold storedAfter
    rcases List.mem_append.mp member with old | new
    · rw [if_pos ((homeward.stocked channel).own pkt old).1]
      exact homeward.stored channel pkt old
    · obtain ⟨i,inside,rfl⟩ := List.mem_range'.mp new
      rw [Nat.one_mul,if_neg (Nat.not_lt.mpr (Nat.le_add_right _ _)),Nat.add_sub_cancel_left,List.getElem?_eq_getElem inside]
      obtain ⟨given,_⟩ := taken_spec _ (List.getElem_mem inside)
      exact homeward.link _ _ (finds.mem given).2
  have owing : ∀ core ∈ net.owingAfter channel (net.storedAfter channel visit taken) h', core = ⟨net.home channel,0⟩ := by
    intro core member
    rcases List.mem_append.mp member with old | new
    · exact homeward.owing channel core old
    · obtain ⟨call,made,rfl⟩ := List.mem_map.mp new
      exact stored call.pkt (called call made).1
  have cpuIDs : ∀ other, ((net.sendDRAM channel visit batchRejected taken stopped h').dram other).cpuID =
      (net.dram other).cpuID := by
    intro other
    unfold sendDRAM
    dsimp only
    by_cases same : other = channel
    · subst same
      rw [Function.update_self]
      split_ifs
      · exact cpuID
      · exact cpuID
    · rw [Function.update_of_ne same]
  have homes : ∀ other, (net.sendDRAM channel visit batchRejected taken stopped h').home other = net.home other := by
    intro other
    rw [home,home,cpuIDs]
    rfl
  have links := @proper_pass net (fun _ => .mcToDRAM channel) (fun _ => .dramToMC channel) visit taken homeward.link
    fun x isTaken k p sent => nomatch (taken_spec x isTaken).2.symm.trans sent
  refine ⟨?_,?_,?_,homeward.received,?_⟩
  · intro link t member
    have proper : net.Proper link t := by
      refine proper_update links ?_ link t member
      intro t member
      rcases List.mem_append.mp member with old | new
      · exact links _ t old
      · split_ifs at new
        · obtain ⟨⟨pkt,core⟩,paired,rfl⟩ := List.mem_map.mp new
          obtain ⟨pending,owed⟩ := List.of_mem_zip paired
          obtain ⟨response,_,rfl⟩ := List.mem_map.mp pending
          exact ⟨owing core owed,cpuID⟩
        · cases new
    cases link with
    | dramToMC other =>
      rw [Proper,homes,cpuIDs]
      exact proper
    | mcToDRAM other =>
      rw [Proper,homes]
      exact proper
    | cpuToL2 core => exact proper
    | l2ToCPU core => exact proper
    | l2ToMC i => exact proper
    | mcToL2 i => exact proper
  · intro other pkt member
    rw [homes]
    unfold sendDRAM at member ⊢
    dsimp only at member ⊢
    by_cases same : other = channel
    · subst same
      rw [Function.update_self] at member ⊢
      split_ifs at member
      · exact stored pkt member
      · exact stored pkt member
    · rw [Function.update_of_ne same] at member ⊢
      exact homeward.stored other pkt member
  · intro other core member
    rw [homes]
    unfold sendDRAM at member
    dsimp only at member
    by_cases same : other = channel
    · subst same
      rw [Function.update_self] at member
      split_ifs at member
      · cases member
      · exact owing core member
    · rw [Function.update_of_ne same] at member
      exact homeward.owing other core member
  · intro other
    unfold sendDRAM
    dsimp only
    by_cases same : other = channel
    · subst same
      rw [Function.update_self]
      split_ifs
      · exact ⟨now.consistent,now.own⟩
      · exact now
    · rw [Function.update_of_ne same]
      exact homeward.stocked other

theorem Homeward.step {net net' : Net} {action : Action} (homeward : net.Homeward) (first : net.FromTheFirst action)
    (stepped : net.step action = some net') : net'.Homeward := by
  cases action with
  | request core pkt =>
    cases stepped
    refine ⟨proper_update homeward.link ?_,homeward.stored,homeward.owing,homeward.received,homeward.stocked⟩
    intro t member
    rcases List.mem_append.mp member with old | new
    · exact homeward.link _ t old
    · obtain rfl := List.mem_singleton.mp new
      rfl
  | receive core t =>
    simp only [Net.step,Option.ite_none_right_eq_some,Option.some.injEq] at stepped
    obtain ⟨there,rfl⟩ := stepped
    refine ⟨proper_update homeward.link ?_,homeward.stored,homeward.owing,?_,homeward.stocked⟩
    · exact fun t' member => homeward.link _ t' (List.mem_of_mem_erase member)
    · intro core' t' member
      dsimp only at member
      by_cases same : core' = core
      · subst same
        rw [Function.update_self] at member
        rcases List.mem_append.mp member with old | new
        · exact homeward.received core' t' old
        · obtain rfl := List.mem_singleton.mp new
          exact homeward.link _ t' there
      · rw [Function.update_of_ne same] at member
        exact homeward.received core' t' member
  | l2 i visit =>
    simp only [Net.step,Option.ite_none_right_eq_some,Option.some.injEq] at stepped
    obtain ⟨finds,rfl⟩ := stepped
    exact homeward.l2 finds first
  | mc visit =>
    simp only [Net.step,Option.ite_none_right_eq_some,Option.some.injEq] at stepped
    obtain ⟨finds,rfl⟩ := stepped
    exact homeward.mc finds first
  | dram channel visit batchRejected =>
    simp only [Net.step,Option.ite_none_right_eq_some,Option.some.injEq] at stepped
    obtain ⟨finds,rfl⟩ := stepped
    exact homeward.dram finds

/-- Responses return to those who asked in every run in which the shared caches send on only
    what their first cores ask for, and the controller only what comes from the cache to
    which the responses of the channel go. -/
theorem responses_return {start net : Net} (fresh : start.Fresh) (reach : Reaches Net.step FromTheFirst start net) :
    net.Returning := by
  have homeward : net.Homeward := reach.invariant fresh.homeward fun _ homeward first stepped => homeward.step first stepped
  refine ⟨?_,?_,homeward.received⟩
  · intro i t member
    have proper : t.core = ⟨i,0⟩ := homeward.link (.mcToL2 i) t member
    rw [proper]
  · exact fun core t member => homeward.link (.l2ToCPU core) t member

/-! ### Two cores under a shared cache -/

def smallCache : SetAssociativeCache := (SetAssociativeCache.newSetAssociativeCache {
  numSets := 1, numWays := 1, blockSize := 64, hitLatency := 1, fillLatency := 1, mshrSize := 1 }).toOption.get (by decide +kernel)

def quickConfig : Dram.DRAMConfig := { Dram.defaultDRAMConfig with tRP := 1, tRCD := 1, tCAS := 1, tRAS := 1 }

def quickChannel : Dram.DRAMChannel :=
  (Dram.DRAMChannel.newDRAMChannel quickConfig fun _ => Dram.readAt 0).toOption.get (by decide +kernel)

/-- The nodes have the numbers 10 and 11 for the cores, 1 for the cache, 2 for the
    controller and 3 for the channel, whose responses are for the controller. -/
def twoCores : Net where
  l2 _ := .newL2CacheNodeHandler 1 [10,11] 2 smallCache
  mc := { nodeID := 2, upstreamNodeIDs := [1], dramChannelIDs := [3], addressMapping := .mappingInterleaved }
  dram _ := .newDRAMNodeHandler 3 2 quickChannel
  link _ := []
  received _ := []
  stored _ _ := ⟨0,0⟩
  owing _ := []

theorem fresh_twoCores : twoCores.Fresh :=
  ⟨fun _ => rfl,fun _ => rfl,fun _ => rfl,
    fun _ => ⟨quickConfig,fun _ => Dram.readAt 0,quickChannel,3,2,rfl,rfl⟩⟩

def requestOn (sourceID targetID : Int) : Packet := newMemoryRequestPacket sourceID targetID 64 64 7 false 0

/-- The only packet that is found, in an input queue, in a cycle. -/
def visitOf (core : Core) (cycle queue : Nat) (pkt : Packet) : Visit :=
  ⟨cycle,List.replicate queue [] ++ [[⟨pkt,0,queue⟩]],fun _ => core,fun _ => false⟩

/-- The request of a core goes down to the channel, and its response comes back up. -/
def thereAndBack (cpu : Nat) : List Action :=
  let core : Core := ⟨0,cpu⟩
  [.request core (requestOn (10 + cpu) 1),.l2 0 (visitOf core 1 cpu (requestOn (10 + cpu) 1)),
    .mc (visitOf core 2 0 (requestOn 1 2)),.dram 0 (visitOf core 3 0 (requestOn 2 3)) false] ++
  (List.range' 4 9).map (fun cycle => .dram 0 ⟨cycle,[],fun _ => core,fun _ => false⟩ false) ++
  [.mc (visitOf core 13 1 (newMemoryResponsePacket 3 2 64 0 7 12)),
    .l2 0 (visitOf core 14 2 (newMemoryResponsePacket 2 1 64 0 7 13))]

def afterFirst : Net := (runActions Net.step FromTheFirst (thereAndBack 0) twoCores).get (by decide +kernel)

/-- The first core gets the response to its request. -/
theorem responses_return_first : afterFirst.link (.l2ToCPU ⟨0,0⟩) = [⟨newMemoryResponsePacket 1 10 64 0 7 14,⟨0,0⟩⟩] ∧
    afterFirst.Returning :=
  ⟨by decide +kernel,responses_return fresh_twoCores (reaches_runActions (thereAndBack 0) (Option.some_get _).symm)⟩

def afterSecond : Net := (runActions Net.step (fun _ _ => True) (thereAndBack 1) twoCores).get (by decide +kernel)

/-- The response to the second core's request goes to the first core. -/
theorem response_to_another : ¬ ∀ start net : Net, start.Fresh → Reachable Net.step start net → net.Returning := by
  intro returns
  have reach : Reachable Net.step twoCores afterSecond := reaches_runActions (thereAndBack 1) (Option.some_get _).symm
  have toFirst : (⟨newMemoryResponsePacket 1 10 64 0 7 14,⟨0,1⟩⟩ : Tagged) ∈ afterSecond.link (.l2ToCPU ⟨0,0⟩) := by
    decide +kernel
  exact absurd ((returns twoCores afterSecond fresh_twoCores reach).toCPU ⟨0,0⟩ _ toFirst) (by decide)

end Net
end FlowSim.MemSystem
