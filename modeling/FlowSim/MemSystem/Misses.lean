import FlowSim.Cpu.Bookkeeping
import FlowSim.MemSystem.Takes

/-!
Do misses wait for their blocks? A core answers its pending operations in the cycle that
the cache has foretold, and a response is handed to whatever load of its instruction is
left first, so it depends on when and in which order they come. A session keeps in mind
which accesses missed without a response for their blocks since.
-/
namespace FlowSim.MemSystem
open FlowSim.Lib FlowSim.Cpu FlowSim.Cache FlowSim.Node FlowSim.Queue
set_option linter.unusedSimpArgs false

/-! ### Accesses and their requests -/

/-- An access, what the cache found, and the request it made. -/
structure Lookup where
  access : CacheAccess
  accessed : Accessed
  request : Option MemoryRequest

/-- Accesses of a core, one after the other. -/
def lookups (l1dCache : SetAssociativeCache) : List CacheAccess → List Lookup
  | [] => []
  | access :: rest =>
    let (accessed,request,l1dCache) :=
      l1dCache.access access.addr access.vaddr access.instrID (CPUNodeHandler.accessTypeOf access.accessType) access.cycle
    ⟨access,accessed,request⟩ :: lookups l1dCache rest

/-- The adapter gets the requests. -/
theorem accessAll_lookups : ∀ (accesses : List CacheAccess) (l1dCache : SetAssociativeCache) (adapter : FlowSimMemoryAdapter),
    (CPUNodeHandler.accessAll l1dCache adapter accesses).1 = (lookups l1dCache accesses).map Lookup.accessed ∧
    (CPUNodeHandler.accessAll l1dCache adapter accesses).2.2 =
      ((lookups l1dCache accesses).filterMap Lookup.request).foldl FlowSimMemoryAdapter.sendRequest adapter
  | [], _, _ => ⟨rfl,rfl⟩
  | access :: rest, l1dCache, adapter => by
    rw [CPUNodeHandler.accessAll,lookups]
    rcases l1dCache.access access.addr access.vaddr access.instrID (CPUNodeHandler.accessTypeOf access.accessType) access.cycle with
      ⟨accessed,request,l1dCache'⟩
    dsimp only
    obtain ⟨results,requests⟩ := accessAll_lookups rest l1dCache' (request.elim adapter adapter.sendRequest)
    refine ⟨?_,?_⟩
    · rw [results]
      rfl
    · rw [requests]
      cases request with
      | none => rfl
      | some req => rfl

theorem access_lookups : ∀ (accesses : List CacheAccess) (l1dCache : SetAssociativeCache),
    (lookups l1dCache accesses).map Lookup.access = accesses
  | [], _ => rfl
  | access :: rest, l1dCache => by
    rw [lookups]
    rcases l1dCache.access access.addr access.vaddr access.instrID (CPUNodeHandler.accessTypeOf access.accessType) access.cycle with
      ⟨accessed,request,l1dCache'⟩
    rw [List.map_cons,access_lookups rest l1dCache']

/-- A request is one of the access's own instruction. -/
theorem access_request {c : SetAssociativeCache} {addr vaddr : UInt64} {instrID : Nat} {accessType : Cache.AccessType} {cycle : Nat}
    {req : MemoryRequest} (made : (c.access addr vaddr instrID accessType cycle).2.1 = some req) : req.instrID = instrID := by
  unfold SetAssociativeCache.access at made
  dsimp only at made
  split at made
  · cases made
  unfold SetAssociativeCache.handleMiss at made
  dsimp only at made
  split at made
  · cases made
  split at made
  · cases made
  split at made
  · cases made
    rfl
  split at made
  · cases made
  · cases made

theorem request_lookups {req : MemoryRequest} : ∀ {accesses : List CacheAccess} {l1dCache : SetAssociativeCache},
    req ∈ (lookups l1dCache accesses).filterMap Lookup.request → req.instrID ∈ accesses.map CacheAccess.instrID
  | access :: rest, l1dCache, member => by
    rw [lookups] at member
    rcases found : l1dCache.access access.addr access.vaddr access.instrID (CPUNodeHandler.accessTypeOf access.accessType)
      access.cycle with ⟨accessed,request,l1dCache'⟩
    rw [found] at member
    dsimp only at member
    rw [List.map_cons,List.mem_cons]
    obtain ⟨lookup,inside,made⟩ := List.mem_filterMap.mp member
    rcases List.mem_cons.mp inside with rfl | later
    · exact .inl (access_request (c := l1dCache) (by rw [found]; exact made))
    · exact .inr (request_lookups (List.mem_filterMap.mpr ⟨lookup,later,made⟩))

/-! ### Sessions -/

/-- A core's node, the accesses that missed without a response for their blocks since, and
    the requests made. -/
structure MissSession where
  node : CPUNodeHandler
  missed : List CacheAccess
  sent : List MemoryRequest

namespace MissSession

/-- What a cycle of the node comes down to: responses, and then a tick. -/
inductive Action where
  | response (cycle : Nat) (pkt : Packet)
  | tick (answers : Nat → Nat)

def new (nodeID dramID : Int) (traceReader : Nat → Option TraceInstr) (config : O3CPUConfig) (l1dCache : SetAssociativeCache) :
    MissSession where
  node := .newCPUNodeHandler nodeID dramID (.newO3CPU traceReader config) l1dCache
  missed := []
  sent := []

/-- The packet is a memory response to one of the requests. -/
def Responds (s : MissSession) (pkt : Packet) : Prop :=
  pkt.type = packetTypeMemoryResponse ∧ ∃ req ∈ s.sent, pkt.addr = req.address ∧ pkt.instrID.toNat = req.instrID

instance (s : MissSession) (pkt : Packet) : Decidable (s.Responds pkt) := inferInstanceAs (Decidable (_ ∧ _))

/-- The block of an address. -/
def block (s : MissSession) (addr : UInt64) : UInt64 := s.node.l1dCache.blockAddr addr

/-- What the cache finds for the accesses of a tick that leads to the node. -/
def made (s : MissSession) (node : CPUNodeHandler) : List Lookup :=
  lookups s.node.l1dCache (node.cpu.accesses.drop s.node.cpu.accesses.length)

/-- The requests of a tick are sent at its end. -/
def step (s : MissSession) : Action → Option MissSession
  | .response cycle pkt =>
    if s.Responds pkt then
      some { s with
        node := (s.node.handleMemoryResponse cycle pkt).2
        missed := s.missed.filter (fun access => s.block access.addr ≠ s.block pkt.addr) }
    else none
  | .tick answers => (s.node.tick answers).map fun node => {
      node := { node with memoryAdapter := .newFlowSimMemoryAdapter }
      missed := s.missed ++ ((s.made node).filter (fun lookup => !lookup.accessed.hit)).map Lookup.access
      sent := s.sent ++ (s.made node).filterMap Lookup.request }

/-- No load and no store that waits for its block is completed, and neither is an
    instruction that has one. -/
structure Waits (s : MissSession) : Prop where
  entries : ∀ accessType, ∀ entry ∈ s.node.cpu.lsq.queue accessType, Waiting s.missed accessType entry → entry.completed = false
  instrs : ∀ instr ∈ s.node.cpu.rob.buffer, instr.instrID ∈ s.missed.map CacheAccess.instrID → instr.completed = false

/-- After the step all that misses wait still, and the step has completed operations on the
    block of its response only, and retired no instruction that waits. -/
def Faithful (s : MissSession) (action : Action) (s' : MissSession) : Prop :=
  s'.Waits ∧ match action with
  | .response _ pkt => ∀ (accessType : Cpu.AccessType) (n : Nat) (entry entry' : LSQEntry), (s.node.cpu.lsq.queue accessType)[n]? = some entry →
      (s'.node.cpu.lsq.queue accessType)[n]? = some entry' → entry.completed = false → entry'.completed = true →
      s.block entry.virtualAddr = s.block pkt.addr
  | .tick _ => ∀ instr ∈ s.node.cpu.retiredIn .tick, instr.instrID ∉ s.missed.map CacheAccess.instrID

/-- The first load left of the response's instruction is on its block, if there is one.
    And of every instruction, the loads left first, as many as have their data foretold for
    this cycle, do not wait, and neither do the stores. -/
def InTime (s : MissSession) : Action → Prop
  | .response _ pkt => ∀ entry : LSQEntry, entry ∈ (left pkt.instrID.toNat (s.node.cpu.lsq.queue .load)).head? →
      s.block entry.virtualAddr = s.block pkt.addr
  | .tick _ => ∀ accessType id, ∀ entry ∈ (left id (s.node.cpu.lsq.queue accessType)).take
      ((s.node.cpu.due (s.node.cpu.currentCycle + 1) accessType).count id), ¬ Waiting s.missed accessType entry

/-! ### What is known of every session that has been in time -/

structure Sound (s : MissSession) : Prop where
  tracked : s.node.cpu.ledger.Tracked s.missed
  framework : s.node.cpu.standaloneMode = false
  sent : ∀ req ∈ s.sent, req.instrID ∈ s.node.cpu.accesses.map CacheAccess.instrID
  adapter : s.node.memoryAdapter = .newFlowSimMemoryAdapter

section
variable {s s' : MissSession}

theorem Sound.waits (sound : s.Sound) : s.Waits where
  entries := sound.tracked.open_
  instrs := by
    intro instr member waiting
    obtain ⟨access,missed,same⟩ := List.mem_map.mp waiting
    exact sound.tracked.unfinished access missed instr.work (List.mem_map_of_mem member) same

theorem sound_new (nodeID dramID : Int) (traceReader : Nat → Option TraceInstr) (config : O3CPUConfig)
    (l1dCache : SetAssociativeCache) : (new nodeID dramID traceReader config l1dCache).Sound where
  tracked := by
    have no_entries : ∀ accessType, (new nodeID dramID traceReader config l1dCache).node.cpu.ledger.entries accessType = [] := by
      intro accessType
      cases accessType with
      | load => rfl
      | store => rfl
    constructor
    case ordered => exact .nil
    case entered => exact fun accessType entry member => absurd (no_entries accessType ▸ member) List.not_mem_nil
    case accessed => exact fun accessType entry member => absurd (no_entries accessType ▸ member) List.not_mem_nil
    case open_ => exact fun accessType entry member => absurd (no_entries accessType ▸ member) List.not_mem_nil
    all_goals exact fun _ member => absurd member List.not_mem_nil
  framework := rfl
  sent _ member := absurd member List.not_mem_nil
  adapter := rfl

/-- The instructions that retire have no operation that waits. -/
theorem retirements_done {waits : List CacheAccess} (width : Nat) : ∀ {cpu : O3CPU}, cpu.ledger.Tracked waits →
    ∀ instr ∈ O3CPU.retirements width cpu, instr.instrID ∉ waits.map CacheAccess.instrID := by
  induction width with
  | zero => exact fun _ _ member => absurd member List.not_mem_nil
  | succ width ih =>
    intro cpu tracked instr member
    rw [O3CPU.retirements] at member
    split at member
    · cases member
    · next first rob taken =>
      rcases List.mem_cons.mp member with rfl | later
      · obtain ⟨buffer,_,completed⟩ := retire_some taken
        rintro waiting
        obtain ⟨access,missed,same⟩ := List.mem_map.mp waiting
        have inside : instr.work ∈ cpu.ledger.works := List.mem_map_of_mem (buffer ▸ List.mem_cons_self)
        rw [show instr.completed = false from tracked.unfinished access missed instr.work inside same] at completed
        cases completed
      · exact ih (tracked.leaves (leaves_retireInstr taken).ledger).1 instr later

/-! ### Responses -/

theorem step_response {cycle : Nat} {pkt : Packet} (stepped : s.step (.response cycle pkt) = some s') :
    s.Responds pkt ∧ s' = { s with
      node := { s.node with
        l1dCache := s.node.l1dCache.handleFill pkt.addr cycle
        cpu := (s.node.cpu.handleLoadResponse pkt.instrID.toNat cycle).1 }
      missed := s.missed.filter (fun access => s.block access.addr ≠ s.block pkt.addr) } := by
  unfold step at stepped
  dsimp only at stepped
  split at stepped
  · next responds =>
    refine ⟨responds,?_⟩
    cases stepped
    unfold CPUNodeHandler.handleMemoryResponse
    rw [if_neg (not_not.mpr responds.1)]
  · cases stepped

/-- A response that comes in time keeps what is known. -/
theorem Sound.response (sound : s.Sound) {cycle : Nat} {pkt : Packet} (stepped : s.step (.response cycle pkt) = some s')
    (inTime : s.InTime (.response cycle pkt)) : s'.Sound := by
  obtain ⟨⟨_,req,requested,_,instrID⟩,rfl⟩ := step_response stepped
  obtain ⟨⟨rob,lsq,same⟩,ledger⟩ := ledger_handleLoadResponse s.node.cpu pkt.instrID.toNat cycle
  have fewer : s.missed.filter (fun access => s.block access.addr ≠ s.block pkt.addr) ⊆ s.missed := List.filter_subset_self ..
  refine ⟨?_,?_,?_,sound.adapter⟩
  · dsimp only
    rw [ledger]
    refine (sound.tracked.mono fewer (List.Subset.refl _)).complete .load _ _ ?_ ?_
    · rw [instrID]
      exact sound.sent req requested
    · rintro entry first ⟨access,missed,_,_,addr⟩
      have other := (List.mem_filter.mp missed).2
      rw [addr] at other
      exact absurd (inTime entry first) (by simpa using other)
  · dsimp only
    rw [same]
    exact sound.framework
  · dsimp only
    rw [same]
    exact sound.sent

theorem faithful_response_iff (sound : s.Sound) {cycle : Nat} {pkt : Packet} (stepped : s.step (.response cycle pkt) = some s') :
    s.Faithful (.response cycle pkt) s' ↔ s.InTime (.response cycle pkt) := by
  have ledger := (ledger_handleLoadResponse s.node.cpu pkt.instrID.toNat cycle).2
  have after : s'.node.cpu.lsq.queue = (s.node.cpu.ledger.complete .load pkt.instrID.toNat cycle).entries := by
    obtain ⟨_,rfl⟩ := step_response stepped
    rw [← ledger]
    rfl
  rcases s.node.cpu.ledger.complete_cases .load pkt.instrID.toNat cycle with
    ⟨nothing,unchanged⟩ | ⟨before,entry,rest,split,nothing,mine,open_,changed⟩
  · have inTime : s.InTime (.response cycle pkt) := by
      intro entry first
      rw [show left pkt.instrID.toNat (s.node.cpu.lsq.queue .load) = [] from nothing] at first
      cases first
    refine iff_of_true ⟨(sound.response stepped inTime).waits,?_⟩ inTime
    intro accessType n entry entry' here here' open_ completed
    rw [after,unchanged] at here'
    obtain rfl := Option.some.inj (here.symm.trans here')
    rw [open_] at completed
    cases completed
  · have loads : s.node.cpu.lsq.queue .load = before ++ entry :: rest := split
    have first : left pkt.instrID.toNat (s.node.cpu.lsq.queue .load) = entry :: left pkt.instrID.toNat rest := by
      rw [loads,left_split nothing mine open_]
    have loads' : s'.node.cpu.lsq.queue .load = before ++ entry.done cycle :: rest := by
      rw [after,changed]
      dsimp only
      rw [Function.update_self]
    constructor
    · rintro ⟨_,own⟩ other isFirst
      rw [first] at isFirst
      obtain rfl := Option.some.inj isFirst
      exact own .load before.length entry (entry.done cycle) (by rw [loads]; simp) (by rw [loads']; simp) open_ rfl
    · intro inTime
      refine ⟨(sound.response stepped inTime).waits,?_⟩
      intro accessType n e e' here here' open_' completed
      cases accessType with
      | store =>
        rw [after,changed] at here'
        dsimp only at here'
        rw [Function.update_of_ne (by decide)] at here'
        obtain rfl := Option.some.inj (here.symm.trans here')
        rw [open_'] at completed
        cases completed
      | load =>
        rw [loads] at here
        rw [loads'] at here'
        rcases Nat.lt_trichotomy n before.length with early | rfl | late
        · rw [List.getElem?_append_left early] at here here'
          obtain rfl := Option.some.inj (here.symm.trans here')
          rw [open_'] at completed
          cases completed
        · rw [List.getElem?_append_right (Nat.le_refl _),Nat.sub_self] at here
          obtain rfl := Option.some.inj here
          exact inTime entry (by rw [first]; rfl)
        · obtain ⟨d,rfl⟩ := Nat.exists_eq_add_of_lt late
          rw [List.getElem?_append_right (by omega),show before.length + d + 1 - before.length = d + 1 by omega,
            List.getElem?_cons_succ] at here here'
          obtain rfl := Option.some.inj (here.symm.trans here')
          rw [open_'] at completed
          cases completed

/-! ### Ticks -/

theorem step_tick {answers : Nat → Nat} (stepped : s.step (.tick answers) = some s') : ∃ cpu l1dCache,
    (s.node.cpu.setL1DCache answers).tick = .ok cpu ∧
    let found := lookups s.node.l1dCache (cpu.accesses.drop s.node.cpu.accesses.length)
    s' = {
      node := { s.node with cpu, l1dCache, memoryAdapter := .newFlowSimMemoryAdapter }
      missed := s.missed ++ (found.filter (fun lookup => !lookup.accessed.hit)).map Lookup.access
      sent := s.sent ++ found.filterMap Lookup.request } := by
  unfold step at stepped
  obtain ⟨node,ticked,rfl⟩ := Option.map_eq_some_iff.mp stepped
  unfold CPUNodeHandler.tick at ticked
  rcases ran : (s.node.cpu.setL1DCache answers).tick with panic | cpu
  · rw [ran] at ticked
    cases ticked
  · rw [ran] at ticked
    dsimp only [Except.toOption,Option.bind_some] at ticked
    split at ticked
    · cases ticked
      exact ⟨cpu,_,rfl,rfl⟩
    · cases ticked

/-- A tick: instructions leave, the operations whose data was foretold are done, and the
    rest are moves. -/
theorem Sound.tick_ledger (sound : s.Sound) {answers : Nat → Nat} {cpu : O3CPU}
    (ticked : (s.node.cpu.setL1DCache answers).tick = .ok cpu) : ∃ (l : Ledger) (now : Nat) (awaited : List Nat), l.Tracked s.missed ∧
      (∀ accessType id, left id (l.entries accessType) = left id (s.node.cpu.lsq.queue accessType)) ∧
      l.accesses = s.node.cpu.accesses ∧
      l.awaited = s.node.cpu.ledger.awaited ∧ awaited ⊆ l.awaited ∧
      Relation.ReflTransGen Ledger.Move { (l.completeAll .load now (s.node.cpu.due (s.node.cpu.currentCycle + 1) .load)).completeAll
        .store now (s.node.cpu.due (s.node.cpu.currentCycle + 1) .store) with awaited } cpu.ledger ∧
      cpu.standaloneMode = false := by
  have attached : Attached (s.node.cpu.setL1DCache answers) := ⟨sound.framework,rfl⟩
  let started := { s.node.cpu.setL1DCache answers with currentCycle := s.node.cpu.currentCycle + 1 }
  have leaves : Leaves started started.retire := leaves_retireLoop _ started
  obtain ⟨awaited,fewer,mode,ledger⟩ := ledger_processPendingMemOps started.retire
  have moved := moves_after_answers attached ticked
  have due : ∀ accessType, started.retire.due started.retire.currentCycle accessType =
      s.node.cpu.due (s.node.cpu.currentCycle + 1) accessType := by
    intro accessType
    rw [leaves.time]
    cases accessType with
    | load =>
      show (started.retire.pendingLoads.filter _).map _ = _
      rw [leaves.pending.1]
      rfl
    | store =>
      show (started.retire.pendingStores.filter _).map _ = _
      rw [leaves.pending.2]
      rfl
  rw [due,due] at ledger
  obtain ⟨tracked,same⟩ := sound.tracked.leaves leaves.ledger
  obtain ⟨accesses,awaits⟩ := Ledger.accesses_of_leaves leaves.ledger
  refine ⟨started.retire.ledger,started.retire.currentCycle,awaited,tracked,same,accesses,awaits,fewer,ledger ▸ moved.1,?_⟩
  exact (Prod.mk.inj (moved.2.trans (mode.trans leaves.mode))).1.trans sound.framework

/-- The operations whose data was foretold are done in time. -/
theorem Sound.answered (sound : s.Sound) {answers : Nat → Nat} (inTime : s.InTime (.tick answers)) {l : Ledger}
    (tracked : l.Tracked s.missed)
    (same : ∀ accessType id, left id (l.entries accessType) = left id (s.node.cpu.lsq.queue accessType))
    (accesses : l.accesses = s.node.cpu.accesses) (now : Nat) :
    ((l.completeAll .load now (s.node.cpu.due (s.node.cpu.currentCycle + 1) .load)).completeAll .store now
      (s.node.cpu.due (s.node.cpu.currentCycle + 1) .store)).Tracked s.missed := by
  have pending : ∀ accessType, ∀ id ∈ s.node.cpu.due (s.node.cpu.currentCycle + 1) accessType,
      id ∈ l.accesses.map CacheAccess.instrID := by
    intro accessType id member
    rw [accesses]
    refine sound.tracked.awaited id ?_
    cases accessType with
    | load => exact List.mem_append_left _ ((List.filter_sublist.map _).subset member)
    | store => exact List.mem_append_right _ ((List.filter_sublist.map _).subset member)
  have loaded := tracked.completeAll .load now (s.node.cpu.due (s.node.cpu.currentCycle + 1) .load) (pending .load)
    fun id entry member => inTime .load id entry (by rw [← same]; exact member)
  refine loaded.completeAll .store now _ ?_ ?_
  · rw [(Ledger.completeAll_accesses ..).1]
    exact pending .store
  · intro id entry member
    rw [Ledger.left_completeAll (by decide),same] at member
    exact inTime .store id entry member

theorem missed_subset (l1dCache : SetAssociativeCache) (accesses : List CacheAccess) :
    ((lookups l1dCache accesses).filter (fun lookup => !lookup.accessed.hit)).map Lookup.access ⊆ accesses := by
  intro access member
  have listed := (List.filter_sublist.map Lookup.access).subset member
  rw [access_lookups] at listed
  exact listed

/-- A tick in time keeps what is known. -/
theorem Sound.tick (sound : s.Sound) {answers : Nat → Nat} (stepped : s.step (.tick answers) = some s')
    (inTime : s.InTime (.tick answers)) : s'.Sound := by
  obtain ⟨cpu,l1dCache,ticked,rfl⟩ := step_tick stepped
  obtain ⟨l,now,awaited,tracked,same,accesses,awaits,fewer,moved,framework⟩ := sound.tick_ledger ticked
  have answered := sound.answered inTime tracked same accesses now
  have settled := answered.mono (List.Subset.refl _) (show awaited ⊆ _ by
    rw [(Ledger.completeAll_accesses ..).2,(Ledger.completeAll_accesses ..).2]
    exact fewer)
  obtain ⟨made,grown,kept⟩ := settled.moves moved
  have grown' : cpu.accesses = s.node.cpu.accesses ++ made := by
    refine grown.trans ?_
    dsimp only
    rw [(Ledger.completeAll_accesses ..).1,(Ledger.completeAll_accesses ..).1,accesses]
  have new : cpu.accesses.drop s.node.cpu.accesses.length = made := by
    rw [grown',List.drop_left]
  refine ⟨?_,framework,?_,rfl⟩
  · dsimp only
    rw [new]
    refine kept.mono (l := cpu.ledger) ?_ (List.Subset.refl _)
    exact List.append_subset.mpr ⟨List.subset_append_left ..,
      fun access member => List.mem_append_right _ (missed_subset _ _ member)⟩
  · dsimp only
    rw [new]
    intro req member
    rw [grown',List.map_append]
    rcases List.mem_append.mp member with earlier | now_
    · exact List.mem_append_left _ (sound.sent req earlier)
    · exact List.mem_append_right _ (request_lookups now_)

/-- What was due is done, whether it waits or not. -/
theorem Sound.due_done (sound : s.Sound) {answers : Nat → Nat} (stepped : s.step (.tick answers) = some s')
    {accessType : Cpu.AccessType} {id : Nat} {entry : LSQEntry}
    (due : entry ∈ (left id (s.node.cpu.lsq.queue accessType)).take
      ((s.node.cpu.due (s.node.cpu.currentCycle + 1) accessType).count id)) :
    ∃ now, entry.done now ∈ s'.node.cpu.lsq.queue accessType := by
  obtain ⟨cpu,l1dCache,ticked,rfl⟩ := step_tick stepped
  obtain ⟨l,now,awaited,tracked,same,accesses,awaits,fewer,moved,framework⟩ := sound.tick_ledger ticked
  refine ⟨now,?_⟩
  refine Ledger.entries_of_moves moved ?_
  dsimp only
  rw [← same] at due
  cases accessType with
  | load => exact Ledger.stays_completeAll rfl _ (Ledger.done_completeAll _ due)
  | store =>
    refine @Ledger.done_completeAll .store now id entry _ _ ?_
    rw [Ledger.left_completeAll (by decide)]
    exact due

theorem faithful_tick_iff (sound : s.Sound) {answers : Nat → Nat} (stepped : s.step (.tick answers) = some s') :
    s.Faithful (.tick answers) s' ↔ s.InTime (.tick answers) := by
  constructor
  · rintro ⟨waits,_⟩ accessType id entry due ⟨access,missed,type,instrID,addr⟩
    obtain ⟨now,done⟩ := sound.due_done stepped due
    have still : access ∈ s'.missed := by
      obtain ⟨cpu,l1dCache,_,rfl⟩ := step_tick stepped
      exact List.mem_append_left _ missed
    have open_ := waits.entries accessType _ done ⟨access,still,type,instrID,addr⟩
    cases open_
  · intro inTime
    refine ⟨(sound.tick stepped inTime).waits,?_⟩
    have tracked : { s.node.cpu with currentCycle := s.node.cpu.currentCycle + 1 }.ledger.Tracked s.missed := sound.tracked
    exact retirements_done _ tracked

/-! ### Runs -/

theorem Sound.step (sound : s.Sound) {action : Action} (stepped : s.step action = some s') (inTime : s.InTime action) : s'.Sound := by
  cases action with
  | response cycle pkt => exact sound.response stepped inTime
  | tick answers => exact sound.tick stepped inTime

theorem faithful_iff (sound : s.Sound) {action : Action} (stepped : s.step action = some s') :
    s.Faithful action s' ↔ s.InTime action := by
  cases action with
  | response cycle pkt => exact faithful_response_iff sound stepped
  | tick answers => exact faithful_tick_iff sound stepped

end

/-- In a run of a core's node, misses wait for responses on their blocks, and responses
    complete loads on their blocks only, exactly when each step comes in time. -/
theorem misses_wait_iff (nodeID dramID : Int) (traceReader : Nat → Option TraceInstr) (config : O3CPUConfig)
    (l1dCache : SetAssociativeCache) (actions : List Action) :
    (∀ taken ∈ trace step (new nodeID dramID traceReader config l1dCache) actions, Faithful taken.1 taken.2.1 taken.2.2) ↔
      ∀ taken ∈ trace step (new nodeID dramID traceReader config l1dCache) actions, InTime taken.1 taken.2.1 :=
  @trace_forall_iff _ _ step Sound Faithful InTime (fun sound stepped => faithful_iff sound stepped)
    (fun sound stepped inTime => sound.step stepped inTime) _ _ (sound_new nodeID dramID traceReader config l1dCache)

/-! ### The node's cycle -/

theorem takes_responses (cycle : Nat) : ∀ (refs : List PacketRef) {s s' : MissSession},
    runActions step (fun _ _ => True) (refs.map fun ref => Action.response cycle ref.packet) s = some s' →
    (takeInputs (silent fun (h : CPUNodeHandler) pkt => h.handleMemoryResponse cycle pkt) s.node refs).error = none ∧
      (takeInputs (silent fun (h : CPUNodeHandler) pkt => h.handleMemoryResponse cycle pkt) s.node refs).state = s'.node
  | [], s, s', ran => by
    obtain rfl := Option.some.inj ran
    exact ⟨rfl,rfl⟩
  | ref :: refs, s, s', ran => by
    rw [List.map_cons,runActions,if_pos trivial] at ran
    obtain ⟨next,stepped,rest⟩ := Option.bind_eq_some_iff.mp ran
    obtain ⟨responds,rfl⟩ := step_response stepped
    have answered : silent (fun (h : CPUNodeHandler) pkt => h.handleMemoryResponse cycle pkt) s.node ref.packet =
        (.ok none,{ s.node with
          l1dCache := s.node.l1dCache.handleFill ref.packet.addr cycle
          cpu := (s.node.cpu.handleLoadResponse ref.packet.instrID.toNat cycle).1 }) := by
      unfold silent CPUNodeHandler.handleMemoryResponse
      dsimp only
      rw [if_neg (not_not.mpr responds.1)]
    rw [takeInputs,answered]
    exact takes_responses cycle refs rest

/-- A cycle of the node takes its responses in turn, ticks, and sends what it has asked for. -/
theorem runOn_process_session {s s' : MissSession} (cycle : Nat) (answers : Nat → Nat) (inputs : List (List PacketRef)) (qs : Queues)
    (ran : runActions step (fun _ _ => True)
      ((inputs.headD []).map (fun ref => Action.response cycle ref.packet) ++ [.tick answers]) s = some s') :
    (runOn (CPUNodeHandler.process answers cycle s.node inputs) qs).1 = (none,s'.node) := by
  have parts : ∀ (actions : List Action) {s : MissSession}, runActions step (fun _ _ => True) (actions ++ [.tick answers]) s = some s' →
      ∃ mid, runActions step (fun _ _ => True) actions s = some mid ∧ mid.step (.tick answers) = some s' := by
    intro actions
    induction actions with
    | nil =>
      intro s ran
      rw [List.nil_append,runActions,if_pos trivial] at ran
      obtain ⟨next,stepped,rest⟩ := Option.bind_eq_some_iff.mp ran
      obtain rfl := Option.some.inj rest
      exact ⟨s,rfl,stepped⟩
    | cons action actions ih =>
      intro s ran
      rw [List.cons_append,runActions,if_pos trivial] at ran
      obtain ⟨next,stepped,rest⟩ := Option.bind_eq_some_iff.mp ran
      obtain ⟨mid,before,last⟩ := ih rest
      refine ⟨mid,?_,last⟩
      rw [runActions,if_pos trivial,stepped]
      exact before
  obtain ⟨mid,responses,ticked⟩ := parts _ ran
  obtain ⟨no_error,state⟩ := takes_responses cycle _ responses
  unfold step at ticked
  obtain ⟨node,next,rfl⟩ := Option.map_eq_some_iff.mp ticked
  rw [CPUNodeHandler.runOn_process,Batching.result,Batching.prepared,Batching.takes,CPUNodeHandler.batching]
  dsimp only
  rw [no_error,state]
  dsimp only
  rw [next]
  rfl

/-! ### A load without a response -/

def oneLoad : Nat → Option TraceInstr
  | 0 => some { isBranch := false, branchMispredicted := false, destRegisters := [], srcRegisters := [],
                destMemory := [], srcMemory := [64] }
  | _ => none

def emptyL1D : SetAssociativeCache := (SetAssociativeCache.newSetAssociativeCache defaultL1DConfig).toOption.get (by decide)

/-- The load misses in cycle 5, and its data is foretold for cycle 9. -/
def waitForNothing : List Action := List.replicate 9 (.tick fun _ => 9)

/-- The load that missed is completed in cycle 9, and no response has come. -/
theorem completed_without_response :
    ¬ ∀ taken ∈ trace step (new 0 1 oneLoad defaultO3CPUConfig emptyL1D) waitForNothing,
      Faithful taken.1 taken.2.1 taken.2.2 := by
  intro faithful
  have early : ((runActions step (fun _ _ => True) (List.replicate 8 (.tick fun _ => 9))
      (new 0 1 oneLoad defaultO3CPUConfig emptyL1D)).bind fun s => s.step (.tick fun _ => 9)).any (fun s =>
        s.node.cpu.lsq.loadQueue.any (fun entry => entry.completed && s.missed.any (fun access =>
          access.accessType = .load && access.instrID = entry.instrID && access.addr = entry.virtualAddr))) = true := by
    decide +kernel
  rcases ran : runActions step (fun _ _ => True) (List.replicate 8 (.tick fun _ => 9))
    (new 0 1 oneLoad defaultO3CPUConfig emptyL1D) with _ | s
  · rw [ran] at early
    cases early
  rw [ran,Option.bind_some] at early
  rcases stepped : s.step (.tick fun _ => 9) with _ | s'
  · rw [stepped] at early
    cases early
  rw [stepped,Option.any_some,List.any_eq_true] at early
  obtain ⟨entry,member,both⟩ := early
  simp only [Bool.and_eq_true,List.any_eq_true,decide_eq_true_eq] at both
  obtain ⟨completed,access,missed,⟨type,id⟩,addr⟩ := both
  obtain ⟨waits,_⟩ := faithful _ (mem_trace_of_run stepped ran)
  have open_ := waits.entries .load entry member ⟨access,missed,type,id,addr⟩
  rw [open_] at completed
  cases completed

end MissSession
end FlowSim.MemSystem
