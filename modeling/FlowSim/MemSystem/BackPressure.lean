import FlowSim.MemSystem.Takes

/-!
Where requests to memory can go. The controller finds a channel for every address, except
where it divides the address space among one channel (`selectChannel_inRange_iff`). A DRAM
node has no back pressure: it stops with an error when a cycle brings more requests than its
channel has room for, and accepts every request once as long as no cycle does
(`dram_accepts_iff`).
-/
namespace FlowSim.MemSystem
open FlowSim.Node FlowSim.Queue
set_option linter.unusedSimpArgs false

/-! ### The channel of an address -/

namespace MemoryControllerHandler

/-- With two channels or more, and no more than an address can tell apart, the part of the
    address space for each of them is not empty. -/
theorem addressPerChannel_ne_zero {n : Nat} (several : 2 ≤ n) : 2 ^ (64 - log2 n) % 2 ^ 64 ≠ 0 := by
  have positive : 0 < log2 n := by
    unfold log2
    rw [if_neg (by omega)]
    exact Nat.succ_pos _
  have less : 2 ^ (64 - log2 n) < 2 ^ 64 := Nat.pow_lt_pow_right (by decide) (by omega)
  rw [Nat.mod_eq_of_lt less]
  exact Nat.pos_iff_ne_zero.mp (Nat.two_pow_pos _)

/-- The controller selects a channel that it has, for every address, exactly when it does not
    divide the address space among one channel: there the size of a part overflows to zero. -/
theorem selectChannel_inRange_iff (h : MemoryControllerHandler) (some_channel : 1 ≤ h.dramChannelIDs.length) (address : UInt64) :
    (∃ channelIndex, h.selectChannel address = some channelIndex ∧ channelIndex < h.dramChannelIDs.length) ↔
      ¬ (h.addressMapping = .mappingRanged ∧ h.dramChannelIDs.length = 1) := by
  unfold selectChannel
  rw [if_neg (Nat.ne_of_gt some_channel)]
  cases mapping : h.addressMapping with
  | mappingInterleaved => exact iff_of_true ⟨_,rfl,Nat.mod_lt _ some_channel⟩ (by simp)
  | other strategy => exact iff_of_true ⟨_,rfl,Nat.mod_lt _ some_channel⟩ (by simp)
  | mappingRanged =>
    by_cases one : h.dramChannelIDs.length = 1
    · refine iff_of_false ?_ (by simp [one])
      rintro ⟨channelIndex,selected,-⟩
      rw [one] at selected
      cases selected
    · have several : 2 ≤ h.dramChannelIDs.length := by omega
      refine iff_of_true ⟨_,if_neg (addressPerChannel_ne_zero several),Nat.mod_lt _ some_channel⟩ ?_
      exact fun both => one both.2

theorem selectChannel_inRange_two :
    ∃ channelIndex, (newMemoryControllerHandler 2 [1] [3,4] .mappingRanged).selectChannel 64 = some channelIndex ∧ channelIndex < 2 :=
  (selectChannel_inRange_iff (newMemoryControllerHandler 2 [1] [3,4] .mappingRanged) (by decide) 64).mpr (by decide)

/-- One channel with the address space divided: no channel is selected. -/
theorem ranged_divides_by_zero : ¬ ∀ (h : MemoryControllerHandler) (address : UInt64), 1 ≤ h.dramChannelIDs.length →
    ∃ channelIndex, h.selectChannel address = some channelIndex ∧ channelIndex < h.dramChannelIDs.length := by
  intro always
  obtain ⟨channelIndex,selected,-⟩ := always (newMemoryControllerHandler 2 [1] [3] .mappingRanged) 0 (by decide)
  cases selected

end MemoryControllerHandler

/-! ### The room of a channel -/

namespace DRAMNodeHandler

def readRoom (h : DRAMNodeHandler) : Nat := h.dramChannel.dc.config.rqSize.toNat - h.dramChannel.dc.rq.length

def writeRoom (h : DRAMNodeHandler) : Nat := h.dramChannel.dc.config.wqSize.toNat - h.dramChannel.dc.wq.length

/-- The queues have room for these requests. -/
def RoomFor (h : DRAMNodeHandler) (pkts : List Packet) : Prop :=
  pkts.countP (fun pkt => pkt.op ≠ opWrite) ≤ h.readRoom ∧ pkts.countP (fun pkt => pkt.op = opWrite) ≤ h.writeRoom

theorem setReadyTime_queues (dc : Dram.DRAMChannel) (ref : Dram.PacketRef) : (dc.setReadyTime ref).config = dc.config ∧
    (dc.setReadyTime ref).rq = dc.rq ∧ (dc.setReadyTime ref).wq = dc.wq := by
  unfold Dram.DRAMChannel.setReadyTime
  split <;> exact ⟨rfl,rfl,rfl⟩

theorem addRequest_write (dc : Dram.DRAMChannel) (ref : Dram.PacketRef) (write : (dc.packets ref).isWrite = true) :
    ((dc.addRequest ref).1 = true ↔ dc.wq.length < dc.config.wqSize.toNat) ∧
      ((dc.addRequest ref).1 = true → (dc.addRequest ref).2.config = dc.config ∧ (dc.addRequest ref).2.rq = dc.rq ∧
        (dc.addRequest ref).2.wq = dc.wq ++ [ref]) := by
  obtain ⟨config,rq,-⟩ := setReadyTime_queues dc ref
  unfold Dram.DRAMChannel.addRequest
  rw [if_pos write]
  by_cases full : dc.wq.length ≥ dc.config.wqSize.toNat
  · rw [if_pos full]
    exact ⟨iff_of_false Bool.false_ne_true (Nat.not_lt.mpr full),fun success => absurd success Bool.false_ne_true⟩
  · rw [if_neg full]
    exact ⟨iff_of_true rfl (Nat.lt_of_not_le full),fun _ => ⟨config,rq,rfl⟩⟩

theorem addRequest_read (dc : Dram.DRAMChannel) (ref : Dram.PacketRef) (read : (dc.packets ref).isWrite = false) :
    ((dc.addRequest ref).1 = true ↔ dc.rq.length < dc.config.rqSize.toNat) ∧
      ((dc.addRequest ref).1 = true → (dc.addRequest ref).2.config = dc.config ∧ (dc.addRequest ref).2.wq = dc.wq ∧
        (dc.addRequest ref).2.rq = dc.rq ++ [ref]) := by
  obtain ⟨config,-,wq⟩ := setReadyTime_queues dc ref
  unfold Dram.DRAMChannel.addRequest
  rw [if_neg (ne_true_of_eq_false read)]
  by_cases full : dc.rq.length ≥ dc.config.rqSize.toNat
  · rw [if_pos full]
    exact ⟨iff_of_false Bool.false_ne_true (Nat.not_lt.mpr full),fun success => absurd success Bool.false_ne_true⟩
  · rw [if_neg full]
    exact ⟨iff_of_true rfl (Nat.lt_of_not_le full),fun _ => ⟨config,wq,rfl⟩⟩

theorem added_write (h : DRAMNodeHandler) (write : pkt.op = opWrite) :
    ((h.dramChannel.addRequest h.nextPkt (requestOf pkt)).1 = true ↔ 0 < h.writeRoom) ∧
      ((h.dramChannel.addRequest h.nextPkt (requestOf pkt)).1 = true →
        (h.added pkt).readRoom = h.readRoom ∧ (h.added pkt).writeRoom = h.writeRoom - 1) := by
  have content : (h.dramChannel.dc.setPacket h.nextPkt (requestOf pkt)).packets h.nextPkt = requestOf pkt :=
    Dram.packets_setPacket_self ..
  obtain ⟨success,queues⟩ := addRequest_write (h.dramChannel.dc.setPacket h.nextPkt (requestOf pkt))
    h.nextPkt (by rw [content]; exact decide_eq_true write)
  refine ⟨success.trans Nat.sub_pos_iff_lt.symm,fun added => ?_⟩
  obtain ⟨config,rq,wq⟩ := queues added
  have config' : (h.added pkt).dramChannel.dc.config = h.dramChannel.dc.config := config
  have rq' : (h.added pkt).dramChannel.dc.rq = h.dramChannel.dc.rq := rq
  have wq' : (h.added pkt).dramChannel.dc.wq = h.dramChannel.dc.wq ++ [h.nextPkt] := wq
  rw [readRoom,writeRoom,config',rq',wq',List.length_append]
  exact ⟨rfl,Nat.sub_add_eq ..⟩

theorem added_read (h : DRAMNodeHandler) (read : pkt.op ≠ opWrite) :
    ((h.dramChannel.addRequest h.nextPkt (requestOf pkt)).1 = true ↔ 0 < h.readRoom) ∧
      ((h.dramChannel.addRequest h.nextPkt (requestOf pkt)).1 = true →
        (h.added pkt).writeRoom = h.writeRoom ∧ (h.added pkt).readRoom = h.readRoom - 1) := by
  have content : (h.dramChannel.dc.setPacket h.nextPkt (requestOf pkt)).packets h.nextPkt = requestOf pkt :=
    Dram.packets_setPacket_self ..
  obtain ⟨success,queues⟩ := addRequest_read (h.dramChannel.dc.setPacket h.nextPkt (requestOf pkt))
    h.nextPkt (by rw [content]; exact decide_eq_false read)
  refine ⟨success.trans Nat.sub_pos_iff_lt.symm,fun added => ?_⟩
  obtain ⟨config,wq,rq⟩ := queues added
  have config' : (h.added pkt).dramChannel.dc.config = h.dramChannel.dc.config := config
  have wq' : (h.added pkt).dramChannel.dc.wq = h.dramChannel.dc.wq := wq
  have rq' : (h.added pkt).dramChannel.dc.rq = h.dramChannel.dc.rq ++ [h.nextPkt] := rq
  rw [readRoom,writeRoom,config',rq',wq',List.length_append]
  exact ⟨rfl,Nat.sub_add_eq ..⟩

/-- A request is added where its queue has room, and takes a place of it. -/
theorem roomFor_cons (h : DRAMNodeHandler) (pkt : Packet) (pkts : List Packet) : h.RoomFor (pkt :: pkts) ↔
    (h.dramChannel.addRequest h.nextPkt (requestOf pkt)).1 = true ∧ (h.added pkt).RoomFor pkts := by
  unfold RoomFor
  by_cases write : pkt.op = opWrite
  · obtain ⟨success,rooms⟩ := added_write h write
    rw [List.countP_cons_of_neg (by simpa using write),List.countP_cons_of_pos (by simpa using write)]
    constructor
    · rintro ⟨reads,writes⟩
      have added := success.mpr (Nat.lt_of_lt_of_le (Nat.succ_pos _) writes)
      obtain ⟨readRoom,writeRoom⟩ := rooms added
      exact ⟨added,by omega,by omega⟩
    · rintro ⟨added,reads,writes⟩
      obtain ⟨readRoom,writeRoom⟩ := rooms added
      have := success.mp added
      exact ⟨by omega,by omega⟩
  · obtain ⟨success,rooms⟩ := added_read h write
    rw [List.countP_cons_of_pos (by simpa using write),List.countP_cons_of_neg (by simpa using write)]
    constructor
    · rintro ⟨reads,writes⟩
      have added := success.mpr (Nat.lt_of_lt_of_le (Nat.succ_pos _) reads)
      obtain ⟨writeRoom,readRoom⟩ := rooms added
      exact ⟨added,by omega,by omega⟩
    · rintro ⟨added,reads,writes⟩
      obtain ⟨writeRoom,readRoom⟩ := rooms added
      have := success.mp added
      exact ⟨by omega,by omega⟩

/-! ### What is accepted -/

/-- The channel has accepted one request for each packet, in turn, with what it asks for. -/
structure Accepts (h : DRAMNodeHandler) (pkts : List Packet) : Prop where
  stocked : Stocked h
  counted : h.nextPkt = pkts.length
  accepted : h.dramChannel.accepted = List.range pkts.length
  asks : ∀ {i : Nat} {pkt : Packet}, pkts[i]? = some pkt → (h.dramChannel.dc.packets i).asks = (requestOf pkt).asks

theorem Accepts.new {config : Dram.DRAMConfig} {packets : Dram.PacketRef → Dram.DRAMPacket} {dc : Dram.DRAMChannel}
    (created : Dram.DRAMChannel.newDRAMChannel config packets = .ok dc) (nodeID cpuID : Int) :
    Accepts (newDRAMNodeHandler nodeID cpuID dc) [] :=
  ⟨.new created nodeID cpuID,rfl,rfl,fun found => by cases found⟩

theorem Accepts.added {h : DRAMNodeHandler} {pkts : List Packet} (accepts : h.Accepts pkts) {pkt : Packet}
    (success : (h.dramChannel.addRequest h.nextPkt (requestOf pkt)).1 = true) : (h.added pkt).Accepts (pkts ++ [pkt]) := by
  have quiet := Dram.Quiet.addRequest (h.dramChannel.dc.setPacket h.nextPkt (requestOf pkt)) h.nextPkt
  refine ⟨accepts.stocked.added pkt,?_,?_,?_⟩
  · rw [List.length_append]
    exact congrArg (· + 1) accepts.counted
  · rw [accepted_added,if_pos success,accepts.accepted,accepts.counted,List.length_append,List.length_singleton,List.range_succ]
  · intro i other found
    refine (quiet.asks i).trans ?_
    by_cases here : i = h.nextPkt
    · subst here
      rw [accepts.counted,List.getElem?_concat_length] at found
      cases found
      rw [Dram.packets_setPacket_self]
    · rw [Dram.packets_setPacket_of_ne _ here]
      rw [accepts.counted] at here
      have before : i < pkts.length := by
        have inside := (List.getElem?_eq_some_iff.mp found).choose
        rw [List.length_append,List.length_singleton] at inside
        omega
      rw [List.getElem?_append_left before] at found
      exact accepts.asks found

/-- What the packets taken in a cycle come to: all are accepted where there is room for all,
    and where there is not, the cycle fails for a full queue. -/
theorem takes_accepts : ∀ (refs : List PacketRef) {h : DRAMNodeHandler} {pkts : List Packet}, h.Accepts pkts →
    (∀ ref ∈ refs, ref.packet.type = packetTypeMemoryRequest) →
    (h.RoomFor (refs.map PacketRef.packet) → (takeInputs (silent handleMemoryRequest) h refs).error = none ∧
      (takeInputs (silent handleMemoryRequest) h refs).state.Accepts (pkts ++ refs.map PacketRef.packet)) ∧
    (¬ h.RoomFor (refs.map PacketRef.packet) → ∃ addr, (takeInputs (silent handleMemoryRequest) h refs).error = some (queueFull addr))
  | [], h, pkts, accepts, _ => by
    refine ⟨fun _ => ⟨rfl,?_⟩,fun full => absurd ⟨Nat.zero_le _,Nat.zero_le _⟩ full⟩
    rw [List.map_nil,List.append_nil]
    exact accepts
  | ref :: refs, h, pkts, accepts, typed => by
    rw [List.map_cons,roomFor_cons,takeInputs,silent]
    have type := typed ref (List.mem_cons_self ..)
    have worked : h.handleMemoryRequest ref.packet =
        (if (h.dramChannel.addRequest h.nextPkt (requestOf ref.packet)).1 = true then none else some (queueFull ref.packet.addr),
          h.added ref.packet) := by
      unfold handleMemoryRequest
      rw [if_neg (not_not_intro type)]
      by_cases success : (h.dramChannel.addRequest h.nextPkt (requestOf ref.packet)).1 = true
      · rw [if_pos success]
        exact if_pos success
      · rw [if_neg success]
        exact if_neg success
    by_cases success : (h.dramChannel.addRequest h.nextPkt (requestOf ref.packet)).1 = true
    · obtain ⟨fits,full⟩ := takes_accepts refs (accepts.added success) fun other member => typed other (List.mem_cons_of_mem _ member)
      rw [worked,if_pos success]
      refine ⟨?_,?_⟩
      · rintro ⟨-,room⟩
        obtain ⟨no_error,accepted⟩ := fits room
        rw [List.append_assoc] at accepted
        exact ⟨no_error,accepted⟩
      · intro none_left
        exact full fun room => none_left ⟨success,room⟩
    · rw [worked,if_neg success]
      exact ⟨fun both => absurd both.1 success,fun _ => ⟨_,rfl⟩⟩

theorem Accepts.tick {h h' : DRAMNodeHandler} {pkts : List Packet} (accepts : h.Accepts pkts) {cycle : Nat}
    (ticked : h.tick cycle = some h') : h'.Accepts pkts := by
  obtain ⟨stocked,-,same,-,-⟩ := accepts.stocked.tick ticked
  obtain ⟨dc,moved,rfl⟩ := Option.map_eq_some_iff.mp ticked
  obtain ⟨asks,-⟩ := Dram.tick_calls accepts.stocked.consistent moved
  exact ⟨stocked,accepts.counted,same.trans accepts.accepted,fun found => (asks _).trans (accepts.asks found)⟩

end DRAMNodeHandler

/-! ### Runs -/

/-- A cycle of the node: its number, the packets that arrive, and the node's queues. -/
structure DRAMCycle where
  cycle : Nat
  inputs : List (List PacketRef)
  queues : Queues

/-- The requests that arrive. -/
def DRAMCycle.arriving (c : DRAMCycle) : List PacketRef := c.inputs.headD []

namespace DRAMNodeHandler

def errorIn (h : DRAMNodeHandler) (c : DRAMCycle) : Option String := (runOn (process c.cycle h c.inputs) c.queues).1.1

def afterCycle (h : DRAMNodeHandler) (c : DRAMCycle) : DRAMNodeHandler := (runOn (process c.cycle h c.inputs) c.queues).1.2

/-- No cycle fails because a queue of the channel is full. -/
def NeverFull : DRAMNodeHandler → List DRAMCycle → Prop
  | _, [] => True
  | h, c :: cycles =>
    (∀ addr, h.errorIn c ≠ some ("failed to handle memory request: " ++ queueFull addr)) ∧ NeverFull (h.afterCycle c) cycles

/-- In every cycle there is room for the requests that arrive in it. -/
def AllFit : DRAMNodeHandler → List DRAMCycle → Prop
  | _, [] => True
  | h, c :: cycles => h.RoomFor (c.arriving.map PacketRef.packet) ∧ AllFit (h.afterCycle c) cycles

instance (h : DRAMNodeHandler) (pkts : List Packet) : Decidable (h.RoomFor pkts) := inferInstanceAs (Decidable (_ ∧ _))

instance decidableAllFit : ∀ (h : DRAMNodeHandler) (cycles : List DRAMCycle), Decidable (h.AllFit cycles)
  | _, [] => isTrue trivial
  | h, c :: cycles => @instDecidableAnd _ _ inferInstance (decidableAllFit (h.afterCycle c) cycles)

def received (cycles : List DRAMCycle) : List Packet := cycles.flatMap fun c => c.arriving.map PacketRef.packet

/-- The channel has accepted each request exactly once. -/
def AcceptedOnce (h : DRAMNodeHandler) (pkts : List Packet) : Prop :=
  h.dramChannel.accepted.Nodup ∧
    h.dramChannel.accepted.map (fun ref => (h.dramChannel.dc.packets ref).asks) = pkts.map fun pkt => (requestOf pkt).asks

theorem Accepts.once {h : DRAMNodeHandler} {pkts : List Packet} (accepts : h.Accepts pkts) : h.AcceptedOnce pkts := by
  refine ⟨accepts.accepted ▸ List.nodup_range,List.ext_getElem? fun i => ?_⟩
  rw [accepts.accepted,List.getElem?_map,List.getElem?_map]
  rcases Nat.lt_or_ge i pkts.length with inside | outside
  · rw [List.getElem?_range inside,List.getElem?_eq_getElem inside]
    exact congrArg some (accepts.asks (List.getElem?_eq_getElem inside))
  · rw [List.getElem?_eq_none outside,List.getElem?_eq_none (by rwa [List.length_range])]
    rfl

theorem indexOutOfRange_ne (addr : UInt64) : indexOutOfRange ≠ "failed to handle memory request: " ++ queueFull addr := by
  intro same
  have first := congrArg (fun text : String => text.toList.head?) same
  have letter : indexOutOfRange.toList.head? = some 'r' := by decide
  have other : "failed to handle memory request: ".toList.head? = some 'f' := by decide
  rw [String.toList_append,List.head?_append,letter,other,Option.some_or] at first
  exact absurd first (by decide)

/-- A cycle accepts what arrives where there is room for it, and fails where there is not. -/
theorem cycle_accepts {h : DRAMNodeHandler} {pkts : List Packet} (accepts : h.Accepts pkts) {c : DRAMCycle}
    (typed : ∀ ref ∈ c.arriving, ref.packet.type = packetTypeMemoryRequest) :
    (h.RoomFor (c.arriving.map PacketRef.packet) →
      (∀ addr, h.errorIn c ≠ some ("failed to handle memory request: " ++ queueFull addr)) ∧
        (h.afterCycle c).Accepts (pkts ++ c.arriving.map PacketRef.packet)) ∧
    (¬ h.RoomFor (c.arriving.map PacketRef.packet) →
      ∃ addr, h.errorIn c = some ("failed to handle memory request: " ++ queueFull addr)) := by
  obtain ⟨fits,full⟩ := takes_accepts c.arriving accepts typed
  unfold errorIn afterCycle
  rw [runOn_process]
  refine ⟨fun room => ?_,fun none_left => ?_⟩
  · obtain ⟨no_error,accepted⟩ := fits room
    have took : ((batching c.cycle).takes h c.inputs).error = none := no_error
    rw [Batching.result,Batching.prepared,took]
    dsimp only
    cases ticked : (batching c.cycle).tick ((batching c.cycle).takes h c.inputs).state with
    | none => exact ⟨fun addr failed => indexOutOfRange_ne addr (Option.some.inj failed),accepted⟩
    | some h' =>
      have now : h'.Accepts (pkts ++ c.arriving.map PacketRef.packet) := accepted.tick ticked
      have cleared : ((batching c.cycle).clear h').Accepts (pkts ++ c.arriving.map PacketRef.packet) :=
        ⟨⟨now.stocked.consistent,now.stocked.own⟩,now.counted,now.accepted,fun found => now.asks found⟩
      exact ⟨fun _ => (Option.some_ne_none _).symm,cleared⟩
  · obtain ⟨addr,failed⟩ := full none_left
    have took : ((batching c.cycle).takes h c.inputs).error = some (queueFull addr) := failed
    refine ⟨addr,?_⟩
    rw [Batching.result,Batching.prepared,took]
    rfl

theorem run_accepts : ∀ (cycles : List DRAMCycle) {h : DRAMNodeHandler} {pkts : List Packet}, h.Accepts pkts →
    (∀ c ∈ cycles, ∀ ref ∈ c.arriving, ref.packet.type = packetTypeMemoryRequest) →
    (h.AllFit cycles → h.NeverFull cycles ∧ (cycles.foldl afterCycle h).Accepts (pkts ++ received cycles)) ∧
      (h.NeverFull cycles → h.AllFit cycles)
  | [], _, pkts, accepts, _ => ⟨fun _ => ⟨trivial,(List.append_nil pkts).symm ▸ accepts⟩,fun _ => trivial⟩
  | c :: cycles, h, pkts, accepts, typed => by
    obtain ⟨fits,full⟩ := cycle_accepts accepts (typed c (List.mem_cons_self ..))
    have rest := fun (now : (h.afterCycle c).Accepts (pkts ++ c.arriving.map PacketRef.packet)) => run_accepts cycles now
      fun other member => typed other (List.mem_cons_of_mem _ member)
    refine ⟨?_,?_⟩
    · rintro ⟨room,later⟩
      obtain ⟨no_error,now⟩ := fits room
      obtain ⟨never,accepted⟩ := (rest now).1 later
      rw [List.append_assoc] at accepted
      exact ⟨⟨no_error,never⟩,accepted⟩
    · rintro ⟨no_error,never⟩
      have room : h.RoomFor (c.arriving.map PacketRef.packet) := by
        by_contra none_left
        obtain ⟨addr,failed⟩ := full none_left
        exact no_error addr failed
      exact ⟨room,(rest (fits room).2).2 never⟩

/-- In a run of a new node, no cycle fails for a full queue, and every request that arrives is
    accepted exactly once, just if in every cycle there is room for the requests that arrive. -/
theorem dram_accepts_iff {config : Dram.DRAMConfig} {packets : Dram.PacketRef → Dram.DRAMPacket} {dc : Dram.DRAMChannel}
    (created : Dram.DRAMChannel.newDRAMChannel config packets = .ok dc) (nodeID cpuID : Int) (cycles : List DRAMCycle)
    (typed : ∀ c ∈ cycles, ∀ ref ∈ c.arriving, ref.packet.type = packetTypeMemoryRequest) :
    (newDRAMNodeHandler nodeID cpuID dc).NeverFull cycles ∧
        (cycles.foldl afterCycle (newDRAMNodeHandler nodeID cpuID dc)).AcceptedOnce (received cycles) ↔
      (newDRAMNodeHandler nodeID cpuID dc).AllFit cycles := by
  obtain ⟨fits,never⟩ := run_accepts cycles (Accepts.new created nodeID cpuID) typed
  refine ⟨fun both => never both.1,fun fit => ?_⟩
  obtain ⟨never_full,accepts⟩ := fits fit
  exact ⟨never_full,accepts.once⟩

/-- A channel with room for two reads. -/
def twoReads : Dram.DRAMConfig := { Dram.defaultDRAMConfig with rqSize := 2 }

def narrowChannel : Dram.DRAMChannel :=
  (Dram.DRAMChannel.newDRAMChannel twoReads fun _ => Dram.readAt 0).toOption.get (by decide +kernel)

/-- A cycle that brings requests for some addresses, the writes marked. -/
def bringing (cycle : Nat) (requests : List (UInt64 × Bool)) : DRAMCycle :=
  ⟨cycle,[requests.map fun r => ⟨newMemoryRequestPacket 2 3 r.1 r.1 0 r.2 0,0,0⟩],⟨[],[.newOutputQueue 4 1 Nat.one_pos]⟩⟩

/-- Two reads and a write arrive, which leave no room for reads; another read and another
    write arrive when the first read is done. -/
def readsAndWrites : List DRAMCycle :=
  [bringing 0 [(0,false),(64,true),(1048576,false)],bringing 32 [],bringing 33 [],bringing 50 [],bringing 51 [],
    bringing 52 [(128,false),(192,true)]]

theorem dram_accepts_iff_full :
    ((newDRAMNodeHandler 3 2 narrowChannel).afterCycle (bringing 0 [(0,false),(64,true),(1048576,false)])).readRoom = 0 ∧
    (received readsAndWrites).map Packet.op = [opRead,opWrite,opRead,opRead,opWrite] ∧
    (newDRAMNodeHandler 3 2 narrowChannel).NeverFull readsAndWrites ∧
      (readsAndWrites.foldl afterCycle (newDRAMNodeHandler 3 2 narrowChannel)).AcceptedOnce (received readsAndWrites) :=
  ⟨by decide +kernel,by decide +kernel,
    (@dram_accepts_iff twoReads (fun _ => Dram.readAt 0) narrowChannel rfl 3 2 readsAndWrites (by decide +kernel)).mpr
      (by decide +kernel)⟩

/-- A cycle that brings one read more than the channel has room for. -/
def burst : DRAMCycle :=
  ⟨0,[List.replicate 65 ⟨{ sourceID := 2, targetID := 3, type := packetTypeMemoryRequest, op := opRead },0,0⟩],⟨[],[]⟩⟩

/-- The node is stopped by a burst of reads. -/
theorem burst_stops_node : ¬ ∀ (nodeID cpuID : Int) (cycles : List DRAMCycle),
    (∀ c ∈ cycles, ∀ ref ∈ c.arriving, ref.packet.type = packetTypeMemoryRequest) →
    (newDRAMNodeHandler nodeID cpuID Dram.newChannel).NeverFull cycles ∧
      (cycles.foldl afterCycle (newDRAMNodeHandler nodeID cpuID Dram.newChannel)).AcceptedOnce (received cycles) := by
  intro always
  have typed : ∀ ref ∈ burst.arriving, ref.packet.type = packetTypeMemoryRequest := by
    intro ref member
    rw [List.eq_of_mem_replicate member]
  have accepts := @Accepts.new Dram.defaultDRAMConfig (fun _ => Dram.readAt 0) Dram.newChannel rfl 3 2
  have none_left : ¬ (newDRAMNodeHandler 3 2 Dram.newChannel).RoomFor (burst.arriving.map PacketRef.packet) := by
    rintro ⟨reads,-⟩
    exact absurd reads (by decide +kernel)
  obtain ⟨addr,failed⟩ := (cycle_accepts accepts typed).2 none_left
  have never := (always 3 2 [burst] fun c member => by rw [List.mem_singleton.mp member]; exact typed).1
  exact never.1 addr failed

end DRAMNodeHandler
end FlowSim.MemSystem
