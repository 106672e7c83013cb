import FlowSim.Dram.Contents
import FlowSim.Dram.Location
import FlowSim.Dram.Scheduling
import FlowSim.Dram.Steps

/-!
A channel drains. A switch of the mode settles it, so that it is not switched again before a
request is finished; and with every packet ready, a channel that has packets has one on the
data bus or in a bank, and this one is finished in a time that the configuration bounds.
-/
namespace FlowSim.Dram
open FlowSim.Lib DRAMChannel
set_option linter.unusedSimpArgs false

namespace DRAMConfig

/-- How far ahead of the clock banks and data bus are busy at most. -/
def busyTime (config : DRAMConfig) : Nat := config.bankTime + config.tRAS.toNat + 8

/-- The time from one finished request to the next. -/
def serviceTime (config : DRAMConfig) : Nat := config.busyTime + 8

end DRAMConfig

/-! ### Mode switches -/

/-- After a switch the mode is right, unless the write queue is so small that its marks are one. -/
theorem shouldSwitch_switched {dc : DRAMChannel} (writes : 2 ≤ dc.config.wqSize.toNat) (due : dc.shouldSwitch = true)
    {dc' : DRAMChannel} (rq : dc'.rq = dc.rq) (wq : dc'.wq = dc.wq) (config : dc'.config = dc.config)
    (mode : dc'.writeMode = !dc.writeMode) : dc'.shouldSwitch = false := by
  unfold shouldSwitch at *
  rw [rq,wq,config,mode]
  cases writeMode : dc.writeMode with
  | false =>
    simp only [writeMode,Bool.not_false,Bool.not_true,if_true,Bool.false_eq_true,if_false,Bool.or_eq_true,Bool.and_eq_true,
      decide_eq_true_eq,Bool.or_eq_false_iff,Bool.and_eq_false_iff,decide_eq_false_iff_not] at *
    omega
  | true =>
    simp only [writeMode,Bool.not_false,Bool.not_true,if_true,Bool.false_eq_true,if_false,Bool.or_eq_true,Bool.and_eq_true,
      decide_eq_true_eq,Bool.or_eq_false_iff,Bool.and_eq_false_iff,decide_eq_false_iff_not] at *
    omega

theorem shouldSwitch_congr {dc dc' : DRAMChannel} (rq : dc'.rq = dc.rq) (wq : dc'.wq = dc.wq) (config : dc'.config = dc.config)
    (mode : dc'.writeMode = dc.writeMode) : dc'.shouldSwitch = dc.shouldSwitch := by
  unfold shouldSwitch
  rw [rq,wq,config,mode]

/-- The queues and the mode are the same. -/
structure SameQueues (dc dc' : DRAMChannel) : Prop where
  rq : dc'.rq = dc.rq
  wq : dc'.wq = dc.wq
  writeMode : dc'.writeMode = dc.writeMode

theorem SameQueues.trans {dc dc' dc'' : DRAMChannel} (first : SameQueues dc dc') (second : SameQueues dc' dc'') :
    SameQueues dc dc'' :=
  ⟨second.rq.trans first.rq,second.wq.trans first.wq,second.writeMode.trans first.writeMode⟩

theorem SameQueues.queued {dc dc' : DRAMChannel} (same : SameQueues dc dc') : dc'.queued = dc.queued := by
  rw [DRAMChannel.queued,DRAMChannel.queued,same.rq,same.wq]

theorem sameQueues_populateDBus (dc : DRAMChannel) : SameQueues dc dc.populateDBus := by
  rcases populateDBus_cases dc with ⟨same,_⟩ | ⟨i,bank,_,_,_,_,_,populated⟩
  · rw [same]
    exact ⟨rfl,rfl,rfl⟩
  · rw [populated]
    exact ⟨rfl,rfl,rfl⟩

theorem sameQueues_servicePacket {dc dc' : DRAMChannel} {chosen : Option PacketRef} {success : Bool}
    (served : dc.servicePacket chosen = some (success,dc')) : SameQueues dc dc' := by
  rcases servicePacket_cases served with same | ⟨pkt,bank,_,_,_,_,_,same⟩
  · cases same
    exact ⟨rfl,rfl,rfl⟩
  · cases same
    exact ⟨rfl,rfl,rfl⟩

theorem queued_swapWriteMode (dc : DRAMChannel) : dc.swapWriteMode.rq = dc.rq ∧ dc.swapWriteMode.wq = dc.wq := by
  rcases swapWriteMode_cases dc with ⟨_,same⟩ | ⟨_,switched⟩
  · rw [same]
    exact ⟨rfl,rfl⟩
  · rw [switched.rest]
    exact ⟨rfl,rfl⟩

theorem shouldSwitch_swapWriteMode {dc : DRAMChannel} (writes : 2 ≤ dc.config.wqSize.toNat) :
    dc.swapWriteMode.shouldSwitch = false := by
  rcases swapWriteMode_cases dc with ⟨stays,same⟩ | ⟨due,switched⟩
  · rw [same]
    exact stays
  · obtain ⟨rq,wq⟩ := queued_swapWriteMode dc
    refine shouldSwitch_switched writes due rq wq switched.same.1 ?_
    rw [switched.rest]

/-- After a tick the mode is right. -/
theorem shouldSwitch_tick {dc dc' : DRAMChannel} (writes : 2 ≤ dc.config.wqSize.toNat) (ticked : dc.tick = some dc') :
    dc'.shouldSwitch = false := by
  obtain ⟨finished,chosen,success,finishes,_,serves⟩ := tick_cases ticked
  have same := (sameQueues_populateDBus finished.swapWriteMode).trans (sameQueues_servicePacket serves)
  have board := (sameBoard_populateDBus finished.swapWriteMode).trans (sameBoard_servicePacket serves)
  rw [shouldSwitch_congr same.rq same.wq board.config same.writeMode]
  apply shouldSwitch_swapWriteMode
  rw [(sameBoard_finishDBusRequest finishes).config]
  exact writes

theorem swapWriteMode_settled {dc : DRAMChannel} (settled : dc.shouldSwitch = false) : dc.swapWriteMode = dc := by
  rcases swapWriteMode_cases dc with ⟨_,same⟩ | ⟨due,_⟩
  · exact same
  · rw [settled] at due
    cases due

/-- A tick finishes a request, or goes on with the channel as it was before. -/
theorem tick_outcome {dc dc' : DRAMChannel} {accepted : List PacketRef} (consistent : Consistent dc accepted)
    (ticked : dc.tick = some dc') : (∃ pkt ∈ dc.queued, dc'.queued = dc.queued.erase pkt) ∨ ∃ chosen success,
      ({ dc with currentCycle := dc.currentCycle + 1 } : DRAMChannel).swapWriteMode.populateDBus.servicePacket chosen =
        some (success,dc') ∧
      ∀ {i bank}, dc.activeRequest = some i → dc.bankRequest[i]? = some bank → dc.currentCycle + 1 < bank.readyTime := by
  obtain ⟨finished,chosen,success,finishes,_,serves⟩ := tick_cases ticked
  rcases finishDBusRequest_cases finishes with ⟨rfl,early⟩ | ⟨i,bank,pkt,_,found,_,has,rfl⟩
  · exact .inr ⟨chosen,success,serves,early⟩
  · have valid : bank.valid = true := by
      rw [consistent.valid bank (List.mem_of_getElem? found),has]
      rfl
    refine .inl ⟨pkt,(consistent.held ⟨bank,found,valid,has⟩).1,?_⟩
    obtain ⟨rq,wq⟩ := queued_swapWriteMode (finish { dc with currentCycle := dc.currentCycle + 1 } i bank pkt)
    rw [((sameQueues_populateDBus _).trans (sameQueues_servicePacket serves)).queued,DRAMChannel.queued,rq,wq]
    exact queued_finish { dc with currentCycle := dc.currentCycle + 1 } i bank pkt

/-- A tick finishes a request, or leaves the queues and, when the mode is right, the mode. -/
theorem tick_queues {dc dc' : DRAMChannel} {accepted : List PacketRef} (consistent : Consistent dc accepted)
    (ticked : dc.tick = some dc') : (∃ pkt ∈ dc.queued, dc'.queued = dc.queued.erase pkt) ∨
      (dc'.queued = dc.queued ∧ (dc.shouldSwitch = false → dc'.writeMode = dc.writeMode)) := by
  rcases tick_outcome consistent ticked with finishes | ⟨chosen,success,serves,_⟩
  · exact .inl finishes
  have same := (sameQueues_populateDBus _).trans (sameQueues_servicePacket serves)
  obtain ⟨rq,wq⟩ := queued_swapWriteMode { dc with currentCycle := dc.currentCycle + 1 }
  refine .inr ⟨?_,?_⟩
  · rw [same.queued,DRAMChannel.queued,rq,wq]
    rfl
  · intro settled
    rw [same.writeMode,@swapWriteMode_settled { dc with currentCycle := dc.currentCycle + 1 } settled]

/-! ### Bounds -/

/-- The channel has the banks of its configuration, and they and the data bus are not busy
    for long. -/
structure Orderly (config : DRAMConfig) (mapping : AddressMapping) (dc : DRAMChannel) : Prop where
  configured : dc.config = config
  mapped : dc.mapping = mapping
  banks : dc.bankRequest.length = mapping.totalBanks.toNat
  refresh : ∀ bank ∈ dc.bankRequest, bank.underRefresh = false
  bank : ∀ bank ∈ dc.bankRequest, bank.valid = true → bank.readyTime.toNat ≤ dc.currentCycle.toNat + config.bankTime + 8
  active : ∀ {i : Nat} {bank : BankRequest}, dc.activeRequest = some i → dc.bankRequest[i]? = some bank →
    bank.readyTime.toNat ≤ dc.currentCycle.toNat + 8
  dbus : dc.dbusAvailable.toNat ≤ dc.currentCycle.toNat + 8 + config.tRAS.toNat

section
variable {config : DRAMConfig} {mapping : AddressMapping} {dc dc' : DRAMChannel} {cycle : UInt64} {time : Nat}

theorem Orderly.later (orderly : Orderly config mapping dc) (cycle : UInt64) (later : dc.currentCycle.toNat ≤ cycle.toNat) :
    Orderly config mapping { dc with currentCycle := cycle } := by
  refine ⟨orderly.configured,orderly.mapped,orderly.banks,orderly.refresh,?_,?_,?_⟩
  · intro bank member valid
    have before := orderly.bank bank member valid
    dsimp only
    omega
  · intro i bank active found
    have before := orderly.active active found
    dsimp only
    omega
  · have before := orderly.dbus
    dsimp only
    omega

theorem Orderly.finishDBusRequest (orderly : Orderly config mapping dc) (finished : dc.finishDBusRequest = some dc') :
    Orderly config mapping dc' := by
  rcases finishDBusRequest_cases finished with ⟨rfl,_⟩ | ⟨i,bank,pkt,active,found,_,_,rfl⟩
  · exact orderly
  rw [finish_rest]
  have member := List.mem_of_getElem? found
  refine ⟨orderly.configured,orderly.mapped,List.length_set.trans orderly.banks,?_,?_,?_,orderly.dbus⟩
  · intro other here
    rcases List.mem_or_eq_of_mem_set here with before | rfl
    · exact orderly.refresh other before
    · exact orderly.refresh bank member
  · intro other here valid
    rcases List.mem_or_eq_of_mem_set here with before | rfl
    · exact orderly.bank other before valid
    · cases valid
  · rintro j other ⟨⟩

theorem Orderly.swapWriteMode (orderly : Orderly config mapping dc) : Orderly config mapping dc.swapWriteMode := by
  rcases swapWriteMode_cases dc with ⟨_,same⟩ | ⟨_,switched⟩
  · rw [same]
    exact orderly
  generalize dc.swapWriteMode = dc' at *
  obtain ⟨same_config,same_mapping,cycle,active,_⟩ := switched.same
  refine ⟨same_config.trans orderly.configured,same_mapping.trans orderly.mapped,switched.length.trans orderly.banks,?_,?_,?_,?_⟩
  · intro bank' member
    obtain ⟨i,found'⟩ := List.mem_iff_getElem?.mp member
    obtain ⟨bank,found,refresh,_⟩ := switched.bank found'
    rw [refresh]
    exact orderly.refresh bank (List.mem_of_getElem? found)
  · intro bank' member valid
    obtain ⟨i,found'⟩ := List.mem_iff_getElem?.mp member
    obtain ⟨bank,found,_,rfl | invalid⟩ := switched.bank found'
    · rw [cycle]
      exact orderly.bank bank' (List.mem_of_getElem? found) valid
    · rw [invalid] at valid
      cases valid
  · intro i bank here found
    rw [active] at here
    rw [switched.kept here] at found
    rw [cycle]
    exact orderly.active here found
  · -- the data bus is free a while after its request, or after now
    have free : ((dc.activeRequest.bind (fun i => dc.bankRequest[i]?)).elim dc.currentCycle BankRequest.readyTime).toNat ≤
        dc.currentCycle.toNat + 8 := by
      cases here : dc.activeRequest with
      | none => exact Nat.le_add_right _ _
      | some i =>
        rw [Option.bind_some]
        cases found : dc.bankRequest[i]? with
        | none => exact Nat.le_add_right _ _
        | some bank => exact orderly.active here found
    rw [switched.dbusAvailable,cycle,UInt64.toNat_add,orderly.configured]
    exact (Nat.mod_le _ _).trans (Nat.add_le_add_right free _)

theorem Orderly.populateDBus (orderly : Orderly config mapping dc) (room : dc.currentCycle.toNat + config.busyTime < 2 ^ 64) :
    Orderly config mapping dc.populateDBus := by
  rcases populateDBus_cases dc with ⟨same,_⟩ | ⟨i,bank,_,_,found,_,_,populated⟩
  · rw [same]
    exact orderly
  obtain ⟨inside,_⟩ := List.getElem?_eq_some_iff.mp found
  have burst : (dc.currentCycle + burstTime).toNat = dc.currentCycle.toNat + 8 :=
    burst_toNat (by unfold DRAMConfig.busyTime at room; omega)
  rw [populated]
  refine ⟨orderly.configured,orderly.mapped,List.length_set.trans orderly.banks,?_,?_,?_,?_⟩
  · intro other here
    rcases List.mem_or_eq_of_mem_set here with before | rfl
    · exact orderly.refresh other before
    · exact orderly.refresh bank (List.mem_of_getElem? found)
  · intro other here valid
    rcases List.mem_or_eq_of_mem_set here with before | rfl
    · exact orderly.bank other before valid
    · dsimp only
      omega
  · intro j other here found'
    cases here
    rw [List.getElem?_set_self inside] at found'
    cases found'
    exact burst.le
  · dsimp only
    omega

theorem Orderly.servicePacket {accepted : List PacketRef} {chosen : Option PacketRef} {success : Bool}
    (orderly : Orderly config mapping dc) (consistent : Consistent dc accepted)
    (room : dc.currentCycle.toNat + config.busyTime < 2 ^ 64) (served : dc.servicePacket chosen = some (success,dc')) :
    Orderly config mapping dc' := by
  rcases servicePacket_cases served with same | ⟨pkt,bank,_,found,idle,_,_,same⟩
  · cases same
    exact orderly
  cases same
  have bounds := @serve_toNat dc (by rw [orderly.configured]; unfold DRAMConfig.busyTime at room; omega) bank pkt
  obtain ⟨_,_,refresh,_⟩ := serve_readyTime dc bank pkt
  refine ⟨orderly.configured,orderly.mapped,List.length_set.trans orderly.banks,?_,?_,?_,orderly.dbus⟩
  · intro other here
    rcases List.mem_or_eq_of_mem_set here with before | rfl
    · exact orderly.refresh other before
    · rw [refresh]
      exact orderly.refresh bank (List.mem_of_getElem? found)
  · intro other here valid
    rcases List.mem_or_eq_of_mem_set here with before | rfl
    · exact orderly.bank other before valid
    · have upper := bounds.2
      rw [orderly.configured] at upper
      exact upper.trans (Nat.le_add_right _ _)
  · intro j other active found'
    have elsewhere : dc.bankIndex pkt ≠ j := by
      rintro rfl
      exact consistent.not_active found idle active
    rw [setPacket,setBank,List.getElem?_set_ne elsewhere] at found'
    exact orderly.active active found'

theorem Orderly.beforeScheduling (orderly : Orderly config mapping dc)
    (room : dc.currentCycle.toNat + 1 + config.busyTime < 2 ^ 64) (before : dc.beforeScheduling = some dc') :
    Orderly config mapping dc' ∧ dc'.currentCycle.toNat = dc.currentCycle.toNat + 1 := by
  obtain ⟨finished,finishes,rfl⟩ := Option.map_eq_some_iff.mp before
  have clock : (dc.currentCycle + 1).toNat = dc.currentCycle.toNat + 1 := toNat_succ (by omega)
  have board := (sameBoard_finishDBusRequest finishes).trans (sameBoard_swapWriteMode finished)
  have first := (orderly.later (dc.currentCycle + 1) (by omega)).finishDBusRequest finishes
  constructor
  · apply first.swapWriteMode.populateDBus
    rw [board.currentCycle]
    dsimp only
    omega
  · rw [(board.trans (sameBoard_populateDBus _)).currentCycle]
    exact clock

theorem Consistent.beforeScheduling {accepted : List PacketRef} (consistent : Consistent dc accepted)
    (before : dc.beforeScheduling = some dc') : Consistent dc' accepted := by
  obtain ⟨finished,finishes,rfl⟩ := Option.map_eq_some_iff.mp before
  have later := consistent.modes (dc.currentCycle + 1) dc.writeMode dc.dbusAvailable
  exact (later.finishDBusRequest finishes).swapWriteMode.populateDBus

/-- A tick is its steps up to the scheduling step, and that. -/
theorem tick_scheduled (ticked : dc.tick = some dc') : ∃ dc₁ chosen success, dc.beforeScheduling = some dc₁ ∧
    dc₁.schedule = some (success,dc') ∧ dc₁.servicePacket chosen = some (success,dc') := by
  rw [tick_eq] at ticked
  obtain ⟨dc₁,before,scheduled⟩ := Option.bind_eq_some_iff.mp ticked
  obtain ⟨⟨success,dc₂⟩,schedules,rfl⟩ := Option.map_eq_some_iff.mp scheduled
  obtain ⟨chosen,_,serves⟩ := Option.bind_eq_some_iff.mp schedules
  exact ⟨dc₁,chosen,success,before,schedules,serves⟩

theorem Orderly.tick {accepted : List PacketRef} (orderly : Orderly config mapping dc) (consistent : Consistent dc accepted)
    (room : dc.currentCycle.toNat + 1 + config.busyTime < 2 ^ 64) (ticked : dc.tick = some dc') : Orderly config mapping dc' := by
  obtain ⟨dc₁,chosen,success,before,_,serves⟩ := tick_scheduled ticked
  obtain ⟨orderly₁,clock⟩ := orderly.beforeScheduling room before
  exact orderly₁.servicePacket (consistent.beforeScheduling before) (by omega) serves

/-! ### Ready times -/

theorem readyTime_servicePacket {chosen : Option PacketRef} {success : Bool} (served : dc.servicePacket chosen = some (success,dc'))
    (pkt : PacketRef) : (dc'.packets pkt).readyTime = (dc.packets pkt).readyTime := by
  rcases servicePacket_cases served with same | ⟨own,bank,_,_,_,_,_,same⟩
  · cases same
    rfl
  · cases same
    by_cases here : pkt = own
    · subst here
      simp [setPacket]
    · simp [setPacket,setBank,here]

/-- All packets in the queues are ready when the latest is. -/
def ReadyBy (latest : Nat) (dc : DRAMChannel) : Prop :=
  ∀ pkt ∈ dc.queued, (dc.packets pkt).readyTime.toNat ≤ max latest dc.currentCycle.toNat

theorem ReadyBy.tick {latest : Nat} {accepted : List PacketRef} (readyBy : ReadyBy latest dc) (consistent : Consistent dc accepted)
    (room : dc.currentCycle.toNat + 1 < 2 ^ 64) (ticked : dc.tick = some dc') : ReadyBy latest dc' := by
  obtain ⟨finished,chosen,success,finishes,_,serves⟩ := tick_cases ticked
  have board := sameBoard_tick ticked
  have board₁ := sameBoard_finishDBusRequest finishes
  have clock : dc'.currentCycle.toNat = dc.currentCycle.toNat + 1 := by
    rw [board.currentCycle]
    exact toNat_succ room
  -- only a switch gives another ready time, and that is now
  have times : ∀ pkt, (dc'.packets pkt).readyTime = (dc.packets pkt).readyTime ∨ (dc'.packets pkt).readyTime = dc'.currentCycle := by
    intro pkt
    have served : (dc'.packets pkt).readyTime = (finished.swapWriteMode.packets pkt).readyTime := by
      rw [readyTime_servicePacket serves]
      rcases populateDBus_cases finished.swapWriteMode with ⟨same,_⟩ | ⟨i,bank,_,_,_,_,_,same⟩ <;> rw [same]
    have before : finished.packets = dc.packets := by
      rcases finishDBusRequest_cases finishes with ⟨rfl,_⟩ | ⟨i,bank,own,_,_,_,_,rfl⟩
      · rfl
      · exact packets_finish _ i bank own
    rw [served]
    rcases swapWriteMode_cases finished with ⟨_,same⟩ | ⟨_,switched⟩
    · rw [same,before]
      exact .inl rfl
    · rcases switched.packet pkt with same | again
      · rw [same,before]
        exact .inl rfl
      · rw [again,board.currentCycle]
        exact .inr board₁.currentCycle
  intro pkt queued
  have inside : pkt ∈ dc.queued := by
    rcases tick_queues consistent ticked with ⟨other,_,erased⟩ | ⟨same,_⟩
    · rw [erased] at queued
      exact List.mem_of_mem_erase queued
    · rwa [same] at queued
  rcases times pkt with same | now
  · have before := readyBy pkt inside
    rw [same,clock]
    omega
  · rw [now]
    exact le_max_right _ _

/-! ### Ticks -/

/-- With a bank for every address a tick comes to its end. -/
theorem tick_isSome {accepted : List PacketRef} (consistent : Consistent dc accepted)
    (inside : ∀ addr, (dc.mapping.getBankIndex addr).toNat < dc.bankRequest.length) : ∃ dc', dc.tick = some dc' := by
  obtain ⟨finished,finishes⟩ :=
    (consistent.modes (dc.currentCycle + 1) dc.writeMode dc.dbusAvailable).finishDBusRequest_isSome
  have board := ((sameBoard_finishDBusRequest finishes).trans (sameBoard_swapWriteMode finished)).trans
    (sameBoard_populateDBus _)
  have before : dc.beforeScheduling = some finished.swapWriteMode.populateDBus := by
    rw [beforeScheduling,finishes]
    rfl
  rw [tick_eq,before,Option.bind_some]
  generalize finished.swapWriteMode.populateDBus = dc₁ at board
  have there : ∀ pkt, dc₁.bankIndex pkt < dc₁.bankRequest.length := by
    intro pkt
    rw [board.banks,bankIndex,board.mapping]
    exact inside _
  obtain ⟨chosen,chooses⟩ := Option.isSome_iff_exists.mp
    ((scheduleLoop_isSome_iff dc₁).mpr fun pkt (_ : pkt ∈ dc₁.activeQueue) _ => there pkt)
  have scheduled : dc₁.schedulePacket = some chosen := chooses
  rw [schedule,scheduled,Option.bind_some]
  cases chosen with
  | none => exact ⟨_,rfl⟩
  | some pkt =>
    rw [DRAMChannel.servicePacket]
    split_ifs
    · exact ⟨_,rfl⟩
    · rw [List.getElem?_eq_getElem (there pkt)]
      exact ⟨_,rfl⟩

/-- A service leaves the valid banks and the data bus. -/
theorem servicePacket_kept {chosen : Option PacketRef} {success : Bool} (served : dc.servicePacket chosen = some (success,dc')) :
    dc'.activeRequest = dc.activeRequest ∧ dc'.dbusAvailable = dc.dbusAvailable ∧
      ∀ {i : Nat} {bank : BankRequest}, dc.bankRequest[i]? = some bank → bank.valid = true → dc'.bankRequest[i]? = some bank := by
  rcases servicePacket_cases served with same | ⟨pkt,bank,_,found,idle,_,_,same⟩
  · cases same
    exact ⟨rfl,rfl,fun found _ => found⟩
  · cases same
    refine ⟨rfl,rfl,?_⟩
    intro i bank' found' valid
    have elsewhere : dc.bankIndex pkt ≠ i := by
      rintro rfl
      cases found.symm.trans found'
      rw [idle] at valid
      cases valid
    rw [setPacket,setBank,List.getElem?_set_ne elsewhere]
    exact found'

/-! ### The next request -/

/-- A request will be finished in the given time when nothing is cancelled: it is on the
    data bus, or in a bank and the data bus is free in time. -/
inductive Due (dc : DRAMChannel) (time : Nat) : Prop where
  | onBus {i : Nat} {bank : BankRequest} (active : dc.activeRequest = some i) (found : dc.bankRequest[i]? = some bank)
      (ready : bank.readyTime.toNat ≤ dc.currentCycle.toNat + time) (pos : 0 < time)
  | inBank {i : Nat} {bank : BankRequest} {wait : Nat} (idle : dc.activeRequest = none) (found : dc.bankRequest[i]? = some bank)
      (valid : bank.valid = true) (ready : bank.readyTime.toNat ≤ dc.currentCycle.toNat + wait)
      (free : dc.dbusAvailable.toNat ≤ dc.currentCycle.toNat + wait) (pos : 0 < wait) (fits : wait + 8 ≤ time)

/-- Without a finished request and without a switch, one cycle of the time passes. -/
theorem Due.populated (due : Due dc (time + 1)) (room : cycle.toNat + 8 < 2 ^ 64 - 1)
    (clock : cycle.toNat = dc.currentCycle.toNat + 1)
    (early : ∀ {i bank}, dc.activeRequest = some i → dc.bankRequest[i]? = some bank → cycle < bank.readyTime) :
    Due ({ dc with currentCycle := cycle } : DRAMChannel).populateDBus time := by
  rcases populateDBus_cases { dc with currentCycle := cycle } with ⟨same,why⟩ | ⟨j,bank_j,none,_,found_j,_,_,same⟩
  · rw [same]
    cases due with
    | @onBus i bank active found ready pos =>
      have later := UInt64.lt_iff_toNat_lt.mp (early active found)
      exact .onBus active found (by dsimp only; omega) (by omega)
    | @inBank i bank wait idle found valid ready free pos fits =>
      have longer : 1 < wait := by
        rcases why with busy | late | none
        · rw [show ({ dc with currentCycle := cycle } : DRAMChannel).activeRequest = none from idle] at busy
          cases busy
        · have late := UInt64.lt_iff_toNat_lt.mp late
          dsimp only at late
          omega
        · by_contra short
          have now : bank.readyTime.toNat ≤ cycle.toNat := by omega
          have next := @nextRequest_isSome { dc with currentCycle := cycle } i bank found valid (UInt64.le_iff_toNat_le.mpr now)
            (UInt64.lt_iff_toNat_lt.mpr (lt_of_le_of_lt now (by show _ < 18446744073709551615; omega)))
          rw [none] at next
          cases next
      refine @Due.inBank _ time i bank (wait - 1) idle found valid ?_ ?_ (by omega) (by omega)
      · dsimp only
        omega
      · dsimp only
        omega
  · rw [same]
    obtain ⟨inside,_⟩ := List.getElem?_eq_some_iff.mp found_j
    have fits : 8 ≤ time := by
      cases due with
      | onBus active => cases none.symm.trans active
      | inBank _ _ _ _ _ pos fits => omega
    refine @Due.onBus _ time j { bank_j with readyTime := cycle + burstTime } rfl (List.getElem?_set_self inside) ?_ (by omega)
    dsimp only
    rw [burst_toNat (by omega)]
    omega

theorem Due.servicePacket {chosen : Option PacketRef} {success : Bool} (due : Due dc time) (valid : ∀ {i bank},
    dc.activeRequest = some i → dc.bankRequest[i]? = some bank → bank.valid = true)
    (served : dc.servicePacket chosen = some (success,dc')) : Due dc' time := by
  obtain ⟨active',dbus,kept⟩ := servicePacket_kept served
  have clock := (sameBoard_servicePacket served).currentCycle
  cases due with
  | onBus active found ready pos =>
    exact .onBus (active'.trans active) (kept found (valid active found)) (by rw [clock]; exact ready) pos
  | inBank idle found isValid ready free pos fits =>
    refine .inBank (active'.trans idle) (kept found isValid) isValid ?_ ?_ pos fits
    · rw [clock]
      exact ready
    · rw [dbus,clock]
      exact free

/-- A tick finishes a request or the time of the next one passes. -/
theorem Due.tick {accepted : List PacketRef} (due : Due dc (time + 1)) (consistent : Consistent dc accepted)
    (settled : dc.shouldSwitch = false) (room : dc.currentCycle.toNat + 1 + 8 < 2 ^ 64 - 1) (ticked : dc.tick = some dc') :
    dc'.queued.length < dc.queued.length ∨ Due dc' time := by
  rcases tick_outcome consistent ticked with ⟨pkt,queued,erased⟩ | ⟨chosen,success,serves,early⟩
  · rw [erased,List.length_erase_of_mem queued]
    exact .inl (Nat.sub_lt (List.length_pos_of_mem queued) Nat.one_pos)
  have later := consistent.modes (dc.currentCycle + 1) dc.writeMode dc.dbusAvailable
  have clock : (dc.currentCycle + 1).toNat = dc.currentCycle.toNat + 1 := toNat_succ (by omega)
  have settled' : ({ dc with currentCycle := dc.currentCycle + 1 } : DRAMChannel).shouldSwitch = false := settled
  rw [swapWriteMode_settled settled'] at serves
  refine .inr ((due.populated (by omega) clock early).servicePacket ?_ serves)
  intro i bank active found
  obtain ⟨_,bank',found',valid,_⟩ := later.populateDBus.active active
  cases found.symm.trans found'
  exact valid

/-! ### Work -/

theorem score_nonneg {pkt : PacketRef} (ready : dc.Ready pkt) (room : dc.currentCycle.toNat + 1100 < 2 ^ 63) :
    0 ≤ dc.score pkt := by
  have waited : (dc.packets pkt).readyTime.toNat ≤ dc.currentCycle.toNat := UInt64.le_iff_toNat_le.mp ready
  unfold score
  rw [Int.bmod_eq_of_le]
  · split <;> omega
  · rw [show Int64.size = 2 ^ 64 from rfl]
    split <;> omega
  · rw [show Int64.size = 2 ^ 64 from rfl]
    split <;> omega

/-- With all packets ready and the mode right, a bank has a packet once one was scheduled. -/
theorem schedule_works {accepted : List PacketRef} {success : Bool} (consistent : Consistent dc accepted)
    (inside : ∀ pkt, dc.bankIndex pkt < dc.bankRequest.length) (refresh : ∀ bank ∈ dc.bankRequest, bank.underRefresh = false)
    (ready : ∀ pkt ∈ dc.queued, dc.Ready pkt) (room : dc.currentCycle.toNat + 1100 < 2 ^ 63) (settled : dc.shouldSwitch = false)
    (some_queued : dc.queued ≠ []) (scheduled : dc.schedule = some (success,dc')) :
    ∃ bank ∈ dc'.bankRequest, bank.valid = true := by
  obtain ⟨chosen,_,serves⟩ := Option.bind_eq_some_iff.mp scheduled
  by_cases busy : ∃ bank ∈ dc.bankRequest, bank.valid = true
  · obtain ⟨bank,member,valid⟩ := busy
    obtain ⟨i,found⟩ := List.mem_iff_getElem?.mp member
    exact ⟨bank,List.mem_of_getElem? ((servicePacket_kept serves).2.2 found valid),valid⟩
  simp only [not_exists,not_and,Bool.not_eq_true] at busy
  -- no bank has a packet, so all packets of the queue wait, and the first is not hindered
  have of_active : ∀ {pkt}, pkt ∈ dc.activeQueue → pkt ∈ dc.queued := by
    intro pkt member
    unfold activeQueue at member
    split at member
    · exact List.mem_append_right _ member
    · exact List.mem_append_left _ member
  have waiting : ∀ {pkt}, pkt ∈ dc.queued → dc.Waiting pkt := by
    intro pkt queued
    have bank_of := List.getElem?_eq_getElem (inside pkt)
    have member := List.mem_of_getElem? bank_of
    refine ⟨?_,_,bank_of,busy _ member,refresh _ member⟩
    by_contra isScheduled
    obtain ⟨i,bank,found,valid,_⟩ := consistent.scheduled queued (by simpa using isScheduled)
    rw [busy bank (List.mem_of_getElem? found)] at valid
    cases valid
  have unhindered : dc.Unhindered := by
    refine ⟨fun pkt _ _ => inside pkt,?_⟩
    cases queue : dc.activeQueue with
    | nil =>
      exfalso
      apply some_queued
      unfold activeQueue at queue
      unfold shouldSwitch at settled
      unfold DRAMChannel.queued
      cases mode : dc.writeMode with
      | true =>
        rw [mode,if_pos rfl] at queue
        simp [mode,queue] at settled
      | false =>
        rw [mode] at queue
        simp only [Bool.false_eq_true,if_false] at queue
        simp [mode,queue] at settled
        simp [queue,settled]
    | cons pkt rest =>
      have queued := of_active (queue ▸ List.mem_cons_self .. : pkt ∈ dc.activeQueue)
      refine ⟨[],pkt,rest,rfl,waiting queued,ready pkt queued,score_nonneg (ready pkt queued) room,?_,?_⟩
      · exact fun _ member => absurd member List.not_mem_nil
      · intro other member _ unready
        exact absurd (ready other (of_active (queue ▸ List.mem_cons_of_mem _ member))) unready
  obtain ⟨dc'',served⟩ := schedule_serves_iff.mpr unhindered
  cases scheduled.symm.trans served
  rcases servicePacket_cases serves with same | ⟨pkt,bank,_,found,_,_,_,same⟩
  · cases same
  · cases same
    obtain ⟨inside,_⟩ := List.getElem?_eq_some_iff.mp found
    exact ⟨dc.serve bank pkt,List.mem_of_getElem? (List.getElem?_set_self inside),(serve_spec dc bank pkt).1⟩

/-! ### Runs of ticks -/

/-- A number of ticks. -/
def ticks : Nat → DRAMChannel → Option DRAMChannel
  | 0, dc => some dc
  | n + 1, dc => dc.tick.bind (ticks n)

theorem ticks_add (m n : Nat) (dc : DRAMChannel) : ticks (m + n) dc = (ticks m dc).bind (ticks n) := by
  induction m generalizing dc with
  | zero => rw [Nat.zero_add]; rfl
  | succ m ih =>
    rw [Nat.succ_add,ticks,ticks,Option.bind_assoc]
    exact Option.bind_congr fun dc' _ => ih dc'

variable {accepted : List PacketRef} {latest : Nat}

/-- What holds of a channel that gets no more requests. -/
structure Draining (config : DRAMConfig) (mapping : AddressMapping) (accepted : List PacketRef) (latest : Nat) (dc : DRAMChannel) :
    Prop where
  consistent : Consistent dc accepted
  orderly : Orderly config mapping dc
  readyBy : ReadyBy latest dc

/-- And after a tick with all packets ready: the mode is right, and a request is under way. -/
structure Draining.Busy (config : DRAMConfig) (mapping : AddressMapping) (accepted : List PacketRef) (latest : Nat)
    (dc : DRAMChannel) : Prop extends Draining config mapping accepted latest dc where
  late : latest ≤ dc.currentCycle.toNat
  settled : dc.shouldSwitch = false
  due : dc.queued ≠ [] → Due dc config.serviceTime

section
variable (made : AddressMapping.newAddressMapping config = .ok mapping) (few : config.bankSizes.prod < 2 ^ 32)
include made few

/-- A tick of the channel, before the clock is near its end. -/
theorem Draining.tick (draining : Draining config mapping accepted latest dc)
    (room : dc.currentCycle.toNat + 1 + config.serviceTime + 1100 < 2 ^ 63) : ∃ dc', dc.tick = some dc' ∧
      dc'.currentCycle.toNat = dc.currentCycle.toNat + 1 ∧ dc'.queued.length ≤ dc.queued.length ∧
      Draining config mapping accepted latest dc' := by
  obtain ⟨consistent,orderly,readyBy⟩ := draining
  have time : config.serviceTime = config.busyTime + 8 := rfl
  obtain ⟨dc',ticked⟩ := tick_isSome consistent fun addr => by
    rw [orderly.mapped,orderly.banks]
    exact getBankIndex_lt made few addr
  refine ⟨dc',ticked,?_,?_,consistent.tick ticked,orderly.tick consistent (by omega) ticked,
    readyBy.tick consistent (by omega) ticked⟩
  · rw [(sameBoard_tick ticked).currentCycle]
    exact toNat_succ (by omega)
  · rcases tick_queues consistent ticked with ⟨pkt,_,erased⟩ | ⟨same,_⟩
    · rw [erased]
      exact List.length_erase_le
    · rw [same]

/-- A tick with all packets ready has a request under way. -/
theorem Draining.busy (draining : Draining config mapping accepted latest dc) (writes : 2 ≤ config.wqSize.toNat)
    (room : dc.currentCycle.toNat + 1 + config.serviceTime + 1100 < 2 ^ 63) (late : latest ≤ dc.currentCycle.toNat + 1)
    (ticked : dc.tick = some dc') : Draining.Busy config mapping accepted latest dc' := by
  obtain ⟨dc'',ticked',clock,_,after⟩ := draining.tick made few room
  cases ticked.symm.trans ticked'
  have settled : dc'.shouldSwitch = false := shouldSwitch_tick (by rw [draining.orderly.configured]; exact writes) ticked
  refine ⟨after,late.trans clock.ge,settled,?_⟩
  intro some_queued
  have time : config.serviceTime = config.busyTime + 8 := rfl
  obtain ⟨consistent,orderly,readyBy⟩ := after
  -- a bank is valid; it is on the data bus, or waits for it
  have works : ∃ bank ∈ dc'.bankRequest, bank.valid = true := by
    obtain ⟨dc₁,chosen,success,before,schedules,serves⟩ := tick_scheduled ticked
    obtain ⟨orderly₁,_⟩ := draining.orderly.beforeScheduling (by omega) before
    have board := sameBoard_servicePacket serves
    have same := sameQueues_servicePacket serves
    refine schedule_works (draining.consistent.beforeScheduling before) ?_ orderly₁.refresh ?_ ?_ ?_ ?_ schedules
    · intro pkt
      rw [orderly₁.banks,bankIndex,orderly₁.mapped]
      exact getBankIndex_lt made few _
    · intro pkt queued
      have ready := readyBy pkt (by rw [same.queued]; exact queued)
      rw [readyTime_servicePacket serves] at ready
      apply UInt64.le_iff_toNat_le.mpr
      rw [← board.currentCycle]
      omega
    · rw [← board.currentCycle]
      omega
    · rw [← shouldSwitch_congr same.rq same.wq board.config same.writeMode]
      exact settled
    · rw [← same.queued]
      exact some_queued
  cases active : dc'.activeRequest with
  | some i =>
    obtain ⟨_,bank,found,_⟩ := consistent.active active
    have ready := orderly.active active found
    exact .onBus active found (by omega) (by omega)
  | none =>
    obtain ⟨bank,member,valid⟩ := works
    obtain ⟨i,found⟩ := List.mem_iff_getElem?.mp member
    have ready := orderly.bank bank member valid
    have free := orderly.dbus
    have busy : config.busyTime = config.bankTime + config.tRAS.toNat + 8 := rfl
    exact @Due.inBank _ _ i bank config.busyTime active found valid (by omega) (by omega) (by omega) (by omega)

/-- Any number of ticks of the channel. -/
theorem Draining.ticks : ∀ {n : Nat} {dc : DRAMChannel}, Draining config mapping accepted latest dc →
    dc.currentCycle.toNat + n + config.serviceTime + 1100 < 2 ^ 63 → ∃ dc', Dram.ticks n dc = some dc' ∧
      dc'.currentCycle.toNat = dc.currentCycle.toNat + n ∧ dc'.queued.length ≤ dc.queued.length ∧
      Draining config mapping accepted latest dc'
  | 0, dc, draining, _ => ⟨dc,rfl,rfl,le_refl _,draining⟩
  | n + 1, dc, draining, room => by
    obtain ⟨dc₁,ticked,clock,fewer,draining₁⟩ := draining.tick made few (by omega)
    obtain ⟨dc',rest,clock',fewer',draining'⟩ := Draining.ticks draining₁ (by omega : _ + n + _ + 1100 < 2 ^ 63)
    refine ⟨dc',?_,by omega,fewer'.trans fewer,draining'⟩
    rw [Dram.ticks,ticked,Option.bind_some,rest]

variable (writes : 2 ≤ config.wqSize.toNat)
include writes

/-- A request that is due is finished in its time. -/
theorem Draining.Busy.finishes : ∀ {time : Nat} {dc : DRAMChannel}, Draining.Busy config mapping accepted latest dc → Due dc time →
    dc.currentCycle.toNat + time + config.serviceTime + 1100 < 2 ^ 63 → ∃ n ≤ time, ∃ dc', Dram.ticks n dc = some dc' ∧
      dc'.currentCycle.toNat = dc.currentCycle.toNat + n ∧ dc'.queued.length < dc.queued.length ∧
      Draining.Busy config mapping accepted latest dc'
  | 0, _, _, due, _ => by
    cases due with
    | onBus _ _ _ pos => omega
    | inBank _ _ _ _ _ _ fits => omega
  | time + 1, dc, busy, due, room => by
    obtain ⟨dc₁,ticked,clock,fewer,_⟩ := busy.tick made few (by omega)
    have busy₁ := busy.toDraining.busy made few writes (by omega) (busy.late.trans (Nat.le_succ _)) ticked
    rcases due.tick busy.consistent busy.settled (by omega) ticked with finished | due₁
    · refine ⟨1,by omega,dc₁,?_,clock,finished,busy₁⟩
      rw [Dram.ticks,ticked]
      rfl
    · obtain ⟨n,short,dc',rest,clock',finished,busy'⟩ := busy₁.finishes due₁ (by omega)
      refine ⟨n + 1,by omega,dc',?_,by omega,finished.trans_le fewer,busy'⟩
      rw [Dram.ticks,ticked,Option.bind_some,rest]

/-- All requests are finished, one after the other. -/
theorem Draining.Busy.drains : ∀ {count : Nat} {dc : DRAMChannel}, Draining.Busy config mapping accepted latest dc →
    dc.queued.length ≤ count → dc.currentCycle.toNat + count * config.serviceTime + config.serviceTime + 1100 < 2 ^ 63 →
    ∃ n ≤ count * config.serviceTime, ∃ dc', Dram.ticks n dc = some dc' ∧ dc'.currentCycle.toNat = dc.currentCycle.toNat + n ∧
      dc'.queued = [] ∧ Draining.Busy config mapping accepted latest dc'
  | 0, dc, busy, nothing, _ => ⟨0,Nat.zero_le _,dc,rfl,rfl,List.length_eq_zero_iff.mp (Nat.le_zero.mp nothing),busy⟩
  | count + 1, dc, busy, counted, room => by
    by_cases some_queued : dc.queued = []
    · exact ⟨0,Nat.zero_le _,dc,rfl,rfl,some_queued,busy⟩
    have product : (count + 1) * config.serviceTime = count * config.serviceTime + config.serviceTime := Nat.succ_mul ..
    obtain ⟨n,short,dc₁,first,clock₁,fewer,busy₁⟩ := busy.finishes made few writes (busy.due some_queued) (by omega)
    obtain ⟨m,short',dc',rest,clock',empty,busy'⟩ := busy₁.drains (by omega : dc₁.queued.length ≤ count) (by omega)
    refine ⟨n + m,by omega,dc',?_,by omega,empty,busy'⟩
    rw [ticks_add,first,Option.bind_some,rest]

end

end

/-! ### Draining -/

/-- The ticks in which a channel drains: until the latest packet is ready, and then for each
    packet. -/
def drainTime (config : DRAMConfig) (latest : Nat) (dc : DRAMChannel) : Nat :=
  latest - dc.currentCycle.toNat + 1 + dc.queued.length * config.serviceTime

/-- What a packet asks for stays, whatever the number of ticks. -/
theorem asks_ticks {accepted : List PacketRef} : ∀ {n : Nat} {dc dc' : DRAMChannel}, Consistent dc accepted →
    ticks n dc = some dc' → Consistent dc' accepted ∧ ∀ pkt, (dc'.packets pkt).asks = (dc.packets pkt).asks
  | 0, _, _, consistent, ran => by
    obtain rfl := Option.some.inj ran
    exact ⟨consistent,fun _ => rfl⟩
  | n + 1, dc, dc', consistent, ran => by
    obtain ⟨dc₁,ticked,rest⟩ := Option.bind_eq_some_iff.mp ran
    obtain ⟨consistent',same⟩ := asks_ticks (consistent.tick ticked) rest
    exact ⟨consistent',fun pkt => (same pkt).trans ((tick_calls consistent ticked).1 pkt)⟩

theorem config_ticks : ∀ {n : Nat} {dc dc' : DRAMChannel}, ticks n dc = some dc' → dc'.config = dc.config
  | 0, _, _, ran => by
    obtain rfl := Option.some.inj ran
    rfl
  | n + 1, dc, dc', ran => by
    obtain ⟨dc₁,ticked,rest⟩ := Option.bind_eq_some_iff.mp ran
    exact (config_ticks rest).trans (sameBoard_tick ticked).config

/-- After the first of them, a tick that switches the mode has finished a request. -/
theorem switches_finish {accepted : List PacketRef} {dc dc₁ dc₂ : DRAMChannel} {n : Nat} (consistent : Consistent dc accepted)
    (writes : 2 ≤ dc.config.wqSize.toNat) (some_ticks : 0 < n) (ran : ticks n dc = some dc₁) (ticked : dc₁.tick = some dc₂)
    (switched : dc₂.writeMode ≠ dc₁.writeMode) : dc₂.queued.length < dc₁.queued.length := by
  obtain ⟨m,rfl⟩ := Nat.exists_eq_add_of_lt some_ticks
  rw [Nat.zero_add,ticks_add] at ran
  obtain ⟨dc₀,before,last⟩ := Option.bind_eq_some_iff.mp ran
  obtain ⟨dc₁',last_tick,same⟩ := Option.bind_eq_some_iff.mp last
  obtain rfl := Option.some.inj same
  have consistent₁ := (asks_ticks consistent before).1.tick last_tick
  rcases tick_queues consistent₁ ticked with ⟨pkt,queued,erased⟩ | ⟨_,stays⟩
  · rw [erased,List.length_erase_of_mem queued]
    exact Nat.sub_lt (List.length_pos_of_mem queued) Nat.one_pos
  · exact absurd (stays (shouldSwitch_tick (by rw [config_ticks before]; exact writes) last_tick)) switched

theorem orderly_new {config : DRAMConfig} {mapping : AddressMapping} {packets : PacketRef → DRAMPacket} : Orderly config mapping
    { config, mapping, rq := [], wq := [], bankRequest := List.replicate mapping.totalBanks.toNat idleBank,
      activeRequest := none, currentCycle := 0, writeMode := false, dbusAvailable := 0, packets, calls := [] } := by
  refine ⟨rfl,rfl,List.length_replicate,?_,?_,?_,Nat.zero_le _⟩
  · intro bank member
    rw [List.eq_of_mem_replicate member]
    rfl
  · intro bank member valid
    rw [List.eq_of_mem_replicate member] at valid
    cases valid
  · rintro i bank ⟨⟩

/-- A channel that runs of requests and ticks have reached, with fewer than 2³² banks and a
    write queue of two places or more, drains: when no more requests are added, its queues are
    empty after a number of ticks that its queues, the latest packet and the timing give, with
    every callback called, and no mode switch after the first tick is without a finished
    request. This is so while that time ends before the clock's signed half. -/
theorem channel_drains {config : DRAMConfig} {packets : PacketRef → DRAMPacket} {dc : DRAMChannel}
    (created : newDRAMChannel config packets = .ok dc) (writes : 2 ≤ config.wqSize.toNat)
    (few : config.ranks.toNat * config.bankGroups.toNat * config.banks.toNat < 2 ^ 32) {s : Session}
    (reached : Reaches Session.step Unwrapped ⟨dc,[]⟩ s) {latest : Nat}
    (ready : ∀ pkt ∈ s.dc.queued, (s.dc.packets pkt).readyTime.toNat ≤ latest)
    (room : s.dc.currentCycle.toNat + drainTime config latest s.dc + config.serviceTime + 1100 < 2 ^ 63) :
    (∃ dc', ticks (drainTime config latest s.dc) s.dc = some dc' ∧ dc'.queued = [] ∧
      ∀ pkt ∈ s.dc.queued, (s.dc.packets pkt).callback = true → called dc' pkt = 1) ∧
    ∀ n dc₁ dc₂, 0 < n → ticks n s.dc = some dc₁ → dc₁.tick = some dc₂ → dc₂.writeMode ≠ dc₁.writeMode →
      dc₂.queued.length < dc₁.queued.length := by
  obtain ⟨mapping,made,rfl⟩ := newDRAMChannel_spec created
  have few_banks : config.bankSizes.prod < 2 ^ 32 := by
    simp only [DRAMConfig.bankSizes,List.prod_cons,List.prod_nil]
    linarith
  have consistent := consistent_run reached (consistent_new created)
  have same_config := config_run reached
  have time : config.serviceTime = config.busyTime + 8 := rfl
  refine ⟨?_,?_⟩
  · have orderly : Orderly config mapping s.dc := by
      refine @keeps_while_roomy (Orderly config mapping) (fun _ => config.busyTime) ?_ ?_ _ _ reached (consistent_new created)
        orderly_new ?_
      · rintro _ _ _ _ ⟨configured,mapped,banks,refresh,bank,active,dbus⟩
        exact ⟨configured,mapped,banks,refresh,bank,active,dbus⟩
      · exact fun orderly consistent room ticked => orderly.tick consistent room ticked
      · unfold Roomy
        dsimp only
        omega
    have draining : Draining config mapping s.accepted latest s.dc :=
      ⟨consistent,orderly,fun pkt queued => (ready pkt queued).trans (le_max_left _ _)⟩
    unfold drainTime at *
    -- first the latest packet gets ready, with one more tick a request is under way
    obtain ⟨dc₁,waited,clock₁,fewer₁,draining₁⟩ :=
      draining.ticks made few_banks (by omega : _ + (latest - s.dc.currentCycle.toNat) + _ + 1100 < 2 ^ 63)
    obtain ⟨dc₂,ticked,clock₂,fewer₂,_⟩ := draining₁.tick made few_banks (by omega)
    have busy := draining₁.busy made few_banks writes (by omega) (by omega) ticked
    obtain ⟨n,short,dc₃,finished,clock₃,empty,busy'⟩ := busy.drains made few_banks writes (fewer₂.trans fewer₁) (by omega)
    -- and an empty channel stays so
    obtain ⟨dc₄,rest,_,fewer₄,draining₄⟩ := busy'.toDraining.ticks made few_banks
      (by omega : _ + (s.dc.queued.length * config.serviceTime - n) + _ + 1100 < 2 ^ 63)
    have all : ticks (latest - s.dc.currentCycle.toNat + 1 + s.dc.queued.length * config.serviceTime) s.dc = some dc₄ := by
      have whole : s.dc.queued.length * config.serviceTime = n + (s.dc.queued.length * config.serviceTime - n) := by omega
      rw [whole,ticks_add,ticks_add,waited,Option.bind_some,ticks,ticked,Option.bind_some,ticks,Option.bind_some,ticks_add,finished,
        Option.bind_some,rest]
    have none_left : dc₄.queued = [] := by
      rw [empty] at fewer₄
      exact List.length_eq_zero_iff.mp (Nat.le_zero.mp fewer₄)
    refine ⟨dc₄,all,none_left,?_⟩
    intro pkt queued set
    have asks := congrArg (fun asked => asked.2.2.2) ((asks_ticks consistent all).2 pkt)
    exact draining₄.consistent.finished (consistent.kept pkt queued).1 (by rw [none_left]; exact List.not_mem_nil) (asks.trans set)
  · intro n dc₁ dc₂ some_ticks ran ticked switched
    exact switches_finish consistent (by rw [same_config]; exact writes) some_ticks ran ticked switched

/-- A read on its way, and a write that is not ready before cycle 5. -/
def readAndWrite : List Op :=
  [.addRequest 0 (readAt 0),.tick,.addRequest 1 { readAt 64 with isWrite := true, readyTime := 5 }]

def afterReadAndWrite : Session := (runActions Session.step Unwrapped readAndWrite ⟨newChannel,[]⟩).get (by decide +kernel)

theorem channel_drains_read_and_write :
    (∃ dc', ticks (drainTime defaultDRAMConfig 5 afterReadAndWrite.dc) afterReadAndWrite.dc = some dc' ∧ dc'.queued = [] ∧
      ∀ pkt ∈ afterReadAndWrite.dc.queued, (afterReadAndWrite.dc.packets pkt).callback = true → called dc' pkt = 1) ∧
    ∀ n dc₁ dc₂, 0 < n → ticks n afterReadAndWrite.dc = some dc₁ → dc₁.tick = some dc₂ → dc₂.writeMode ≠ dc₁.writeMode →
      dc₂.queued.length < dc₁.queued.length :=
  @channel_drains defaultDRAMConfig (fun _ => readAt 0) newChannel rfl (by decide) (by decide) afterReadAndWrite
    (reaches_runActions readAndWrite (Option.some_get _).symm) 5 (by decide +kernel) (by decide +kernel)

/-- A read that is in a bank which is ready in the last cycle of all. -/
structure Stuck (dc : DRAMChannel) : Prop where
  rq : dc.rq = [0]
  wq : dc.wq = []
  writeMode : dc.writeMode = false
  wqSize : dc.config.wqSize = 64
  active : dc.activeRequest = none
  scheduled : (dc.packets 0).scheduled = true
  last : ∀ bank ∈ dc.bankRequest, bank.valid = true → bank.readyTime = 18446744073709551615

/-- The limit of the banks that are asked for is that cycle, so none is found. -/
theorem Stuck.tick {dc dc' : DRAMChannel} (stuck : Stuck dc) (ticked : dc.tick = some dc') : Stuck dc' := by
  obtain ⟨finished,chosen,success,finishes,chooses,serves⟩ := tick_cases ticked
  rcases finishDBusRequest_cases finishes with ⟨rfl,_⟩ | ⟨_,_,_,active,_⟩
  case inr => cases stuck.active.symm.trans active
  have settled : ({ dc with currentCycle := dc.currentCycle + 1 } : DRAMChannel).shouldSwitch = false := by
    simp [shouldSwitch,stuck.rq,stuck.wq,stuck.writeMode,stuck.wqSize]
  rw [swapWriteMode_settled settled] at chooses serves
  have idle : ({ dc with currentCycle := dc.currentCycle + 1 } : DRAMChannel).populateDBus =
      { dc with currentCycle := dc.currentCycle + 1 } := by
    have none_next : ({ dc with currentCycle := dc.currentCycle + 1 } : DRAMChannel).nextRequest.1 = none := by
      cases next : ({ dc with currentCycle := dc.currentCycle + 1 } : DRAMChannel).nextRequest.1 with
      | none => rfl
      | some i =>
        obtain ⟨bank,found,valid,_,early⟩ := nextRequest_spec next
        rw [stuck.last bank (List.mem_of_getElem? found) valid] at early
        exact absurd early (UInt64.lt_irrefl _)
    unfold DRAMChannel.populateDBus
    rw [none_next]
    split_ifs <;> rfl
  rw [idle] at chooses serves
  have nobody : chosen = none := by
    simpa [schedulePacket,scheduleLoop,stuck.rq,stuck.writeMode,stuck.scheduled,eq_comm] using chooses
  subst nobody
  cases serves
  exact ⟨stuck.rq,stuck.wq,stuck.writeMode,stuck.wqSize,stuck.active,stuck.scheduled,stuck.last⟩

theorem Stuck.ticks : ∀ {n : Nat} {dc dc' : DRAMChannel}, Stuck dc → Dram.ticks n dc = some dc' → Stuck dc'
  | 0, _, _, stuck, ran => by
    obtain rfl := Option.some.inj ran
    exact stuck
  | n + 1, _, _, stuck, ran => by
    obtain ⟨dc₁,ticked,rest⟩ := Option.bind_eq_some_iff.mp ran
    exact (stuck.tick ticked).ticks rest

/-- As many ranks and bank groups that the number of banks is no 32-bit number. -/
def manyBanks : DRAMConfig := { defaultDRAMConfig with ranks := 65536, bankGroups := 65536, banks := 1 }

/-- A read of an idle bank is ready in the last cycle of all when it is served in the first. -/
def lastCycle : DRAMConfig := { defaultDRAMConfig with tRCD := 0, tCAS := 18446744073709551614 }

/-- A tick fails when banks are missing; and a read that is ready in the last cycle of all is
    never finished. -/
theorem never_drains :
    (∃ dc s, newDRAMChannel manyBanks (fun _ => readAt 0) = .ok dc ∧ Reaches Session.step Unwrapped ⟨dc,[]⟩ s ∧
      s.dc.queued ≠ [] ∧ ∀ n, ticks (n + 1) s.dc = none) ∧
    ∃ dc s, newDRAMChannel lastCycle (fun _ => readAt 0) = .ok dc ∧ Reaches Session.step Unwrapped ⟨dc,[]⟩ s ∧
      ∀ n dc', ticks n s.dc = some dc' → dc'.queued ≠ [] := by
  have created : ∀ {config : DRAMConfig} {dc : DRAMChannel}, (newDRAMChannel config fun _ => readAt 0).toOption = some dc →
      newDRAMChannel config (fun _ => readAt 0) = .ok dc := by
    intro config dc made
    cases result : newDRAMChannel config fun _ => readAt 0 with
    | error => rw [result] at made; cases made
    | ok dc' => rw [result] at made; cases made; rfl
  constructor
  · have ends : (newDRAMChannel manyBanks fun _ => readAt 0).toOption.bind (fun dc =>
        (runActions Session.step Unwrapped [.addRequest 0 (readAt 0)] ⟨dc,[]⟩).map fun s => (s.dc.queued,s.dc.tick.isNone)) =
        some ([0],true) := by decide +kernel
    obtain ⟨dc,made,ran⟩ := Option.bind_eq_some_iff.mp ends
    obtain ⟨s,ran,all⟩ := Option.map_eq_some_iff.mp ran
    obtain ⟨queued,fails⟩ := Prod.mk.inj all
    refine ⟨dc,s,created made,reaches_runActions _ ran,by rw [queued]; exact List.cons_ne_nil _ _,?_⟩
    intro n
    rw [ticks,Option.isNone_iff_eq_none.mp fails]
    rfl
  · have ends : (newDRAMChannel lastCycle fun _ => readAt 0).toOption.bind (fun dc =>
        (runActions Session.step Unwrapped [.addRequest 0 (readAt 0),.tick] ⟨dc,[]⟩).map fun s =>
          ((s.dc.rq,s.dc.wq,s.dc.writeMode,s.dc.config.wqSize),(s.dc.activeRequest,(s.dc.packets 0).scheduled),
            s.dc.bankRequest.all fun bank => !bank.valid || bank.readyTime == 18446744073709551615)) =
        some (([0],[],false,64),(none,true),true) := by decide +kernel
    obtain ⟨dc,made,ran⟩ := Option.bind_eq_some_iff.mp ends
    obtain ⟨s,ran,all⟩ := Option.map_eq_some_iff.mp ran
    simp only [Prod.mk.injEq] at all
    obtain ⟨⟨rq,wq,writeMode,wqSize⟩,⟨active,scheduled⟩,last⟩ := all
    have stuck : Stuck s.dc := by
      refine ⟨rq,wq,writeMode,wqSize,active,scheduled,?_⟩
      intro bank member valid
      simpa [valid] using List.all_eq_true.mp last bank member
    refine ⟨dc,s,created made,reaches_runActions _ ran,?_⟩
    intro n dc' ran'
    have still := (stuck.ticks ran').rq
    simp [DRAMChannel.queued,still]

end FlowSim.Dram
