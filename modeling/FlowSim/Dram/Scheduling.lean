import FlowSim.Dram.Conservation

/-!
Which packet a channel serves. The scheduling step of a tick goes over the queue of the
mode for the first packet of highest priority whose bank is idle, and only then asks
whether that packet is ready; so a packet that is not ready can stand before one that is.
-/
namespace FlowSim.Dram
open FlowSim.Lib
set_option linter.unusedSimpArgs false

namespace DRAMChannel

/-- The queue that packets are taken from. -/
def activeQueue (dc : DRAMChannel) : List PacketRef := if dc.writeMode then dc.wq else dc.rq

/-- A tick up to the scheduling step. -/
def beforeScheduling (dc : DRAMChannel) : Option DRAMChannel :=
  ({ dc with currentCycle := dc.currentCycle + 1 } : DRAMChannel).finishDBusRequest.map fun dc => dc.swapWriteMode.populateDBus

/-- The scheduling step, and whether it serves a packet. -/
def schedule (dc : DRAMChannel) : Option (Bool × DRAMChannel) := dc.schedulePacket.bind dc.servicePacket

theorem tick_eq (dc : DRAMChannel) : dc.tick = dc.beforeScheduling.bind fun dc => dc.schedule.map Prod.snd := by
  unfold tick operate beforeScheduling schedule
  rw [Option.bind_map]
  apply Option.bind_congr
  intro dc' _
  show _ = Option.map Prod.snd (Option.bind _ _)
  rw [Option.map_bind]
  rfl

/-- An unscheduled packet with an idle bank. -/
def Waiting (dc : DRAMChannel) (pkt : PacketRef) : Prop :=
  (dc.packets pkt).scheduled = false ∧
    ∃ bank, dc.bankRequest[dc.bankIndex pkt]? = some bank ∧ bank.valid = false ∧ bank.underRefresh = false

def Ready (dc : DRAMChannel) (pkt : PacketRef) : Prop := (dc.packets pkt).readyTime ≤ dc.currentCycle

/-- The row of the packet is open in its bank. -/
def rowOpen (dc : DRAMChannel) (pkt : PacketRef) : Bool :=
  (dc.bankRequest[dc.bankIndex pkt]?).any fun bank => dc.rowHit bank pkt

/-- How long a packet has been ready, and 1000 more when its row is open, as a signed number
    of 64 bits. -/
def score (dc : DRAMChannel) (pkt : PacketRef) : Int :=
  (100 + (if dc.rowOpen pkt then 1000 else 0) + ((dc.currentCycle.toNat : Int) - (dc.packets pkt).readyTime.toNat)).bmod
    Int64.size

/-- When a ready packet of the queue waits, the scheduling step serves a packet. -/
def ServesReady (dc : DRAMChannel) : Prop :=
  (∃ pkt ∈ dc.activeQueue, dc.Waiting pkt ∧ dc.Ready pkt) → ∃ dc', dc.schedule = some (true,dc')

/-- The packets of the queue have banks, and one that waits and is ready comes before all
    those that wait and are not. -/
structure Unhindered (dc : DRAMChannel) : Prop where
  banks : ∀ pkt ∈ dc.activeQueue, (dc.packets pkt).scheduled = false → dc.bankIndex pkt < dc.bankRequest.length
  first : ∃ before pkt after, dc.activeQueue = before ++ pkt :: after ∧ dc.Waiting pkt ∧ dc.Ready pkt ∧ 0 ≤ dc.score pkt ∧
    (∀ other ∈ before, dc.Waiting other → ¬ dc.Ready other → dc.score other < dc.score pkt) ∧
    ∀ other ∈ after, dc.Waiting other → ¬ dc.Ready other → dc.score other ≤ dc.score pkt

/-- When a ready packet of the queue waits, one is unhindered by the others. -/
def Admits (dc : DRAMChannel) : Prop := (∃ pkt ∈ dc.activeQueue, dc.Waiting pkt ∧ dc.Ready pkt) → dc.Unhindered

end DRAMChannel
open DRAMChannel

section
variable (dc : DRAMChannel)

/-! ### Priorities -/

theorem toInt64_eq (n : UInt64) : n.toInt64 = Int64.ofInt n.toNat := by
  apply Int64.toInt_inj.mp
  rw [Int64.toInt_ofInt]
  exact BitVec.toInt_eq_toNat_bmod _

/-- The priority of a packet is its score. -/
theorem toInt_priority {pkt : PacketRef} {bank : BankRequest} (found : dc.bankRequest[dc.bankIndex pkt]? = some bank) :
    (dc.priority bank pkt).toInt = dc.score pkt := by
  have bonus : (if dc.rowHit bank pkt then (1000 : Int64) else 0) = Int64.ofInt (if dc.rowOpen pkt then 1000 else 0) := by
    rw [rowOpen,found,Option.any_some]
    split <;> rfl
  have base : (100 : Int64) = Int64.ofInt 100 := rfl
  rw [priority,bonus,base,UInt64.toInt64_sub,toInt64_eq,toInt64_eq,← Int64.ofInt_sub,← Int64.ofInt_add,← Int64.ofInt_add,
    Int64.toInt_ofInt]
  rfl

/-! ### The choice -/

/-- No packet is chosen because one has no bank. -/
theorem scheduleLoop_isSome_iff : ∀ {queue : List PacketRef} {best : Option PacketRef} {priority : Int64},
    (dc.scheduleLoop queue best priority).isSome ↔
      ∀ pkt ∈ queue, (dc.packets pkt).scheduled = false → dc.bankIndex pkt < dc.bankRequest.length := by
  intro queue
  induction queue with
  | nil => simp [scheduleLoop]
  | cons pkt queue ih =>
    intro best priority
    rw [scheduleLoop,List.forall_mem_cons]
    by_cases scheduled : (dc.packets pkt).scheduled = true
    · rw [if_pos scheduled,ih]
      simp [scheduled]
    · rw [if_neg scheduled]
      by_cases inside : dc.bankIndex pkt < dc.bankRequest.length
      · rw [List.getElem?_eq_getElem inside,Option.bind_some]
        split_ifs <;> rw [ih] <;> simp [inside]
      · rw [List.getElem?_eq_none (not_lt.mp inside)]
        simp [inside,scheduled]

/-- The packet is the first of highest score among those of the queue that wait. -/
structure FirstOf (queue : List PacketRef) (pkt : PacketRef) : Prop where
  waiting : dc.Waiting pkt
  split : ∃ before after, queue = before ++ pkt :: after ∧
    (∀ other ∈ before, dc.Waiting other → dc.score other < dc.score pkt) ∧
    ∀ other ∈ after, dc.Waiting other → dc.score other ≤ dc.score pkt

variable {dc}

theorem FirstOf.cons {queue : List PacketRef} {pkt first : PacketRef} (chosen : FirstOf dc queue pkt)
    (lower : dc.Waiting first → dc.score first < dc.score pkt) : FirstOf dc (first :: queue) pkt := by
  obtain ⟨waiting,before,after,rfl,earlier,later⟩ := chosen
  refine ⟨waiting,first :: before,after,rfl,?_,later⟩
  intro other member
  rcases List.mem_cons.mp member with rfl | inside
  · exact lower
  · exact earlier other inside

/-- What is chosen is what was best before, or the first packet of highest score. -/
theorem scheduleLoop_chosen : ∀ {queue : List PacketRef} {best : Option PacketRef} {priority : Int64} {chosen : Option PacketRef},
    dc.scheduleLoop queue best priority = some chosen →
      (chosen = best ∧ ∀ pkt ∈ queue, dc.Waiting pkt → dc.score pkt ≤ priority.toInt) ∨
        ∃ pkt, chosen = some pkt ∧ priority.toInt < dc.score pkt ∧ FirstOf dc queue pkt := by
  intro queue
  induction queue with
  | nil =>
    intro best priority chosen ended
    exact .inl ⟨(Option.some.inj ended).symm,fun _ member => absurd member List.not_mem_nil⟩
  | cons first queue ih =>
    intro best priority chosen ended
    rw [scheduleLoop] at ended
    -- a first packet that is passed over is lower than what is chosen
    have passed : (dc.Waiting first → dc.score first ≤ priority.toInt) →
        dc.scheduleLoop queue best priority = some chosen →
        (chosen = best ∧ ∀ pkt ∈ first :: queue, dc.Waiting pkt → dc.score pkt ≤ priority.toInt) ∨
          ∃ pkt, chosen = some pkt ∧ priority.toInt < dc.score pkt ∧ FirstOf dc (first :: queue) pkt := by
      intro low rest
      rcases ih rest with ⟨same,lower⟩ | ⟨pkt,is_pkt,above,isFirst⟩
      · exact .inl ⟨same,List.forall_mem_cons.mpr ⟨low,lower⟩⟩
      · exact .inr ⟨pkt,is_pkt,above,isFirst.cons fun waiting => (low waiting).trans_lt above⟩
    split at ended
    · next scheduled => exact passed (fun waiting => by rw [waiting.1] at scheduled; cases scheduled) ended
    next unscheduled =>
    obtain ⟨bank,found,ended⟩ := Option.bind_eq_some_iff.mp ended
    split at ended
    · next busy =>
      refine passed ?_ ended
      rintro ⟨_,bank',found',valid,refresh⟩
      cases found.symm.trans found'
      rw [valid,refresh] at busy
      cases busy
    next idle =>
    simp only [Bool.or_eq_true,not_or,Bool.not_eq_true] at idle
    have waiting : dc.Waiting first := ⟨by simpa using unscheduled,bank,found,idle⟩
    split at ended
    · next better =>
      rw [gt_iff_lt,Int64.lt_iff_toInt_lt,toInt_priority dc found] at better
      rcases ih ended with ⟨same,lower⟩ | ⟨pkt,is_pkt,above,isFirst⟩
      · rw [toInt_priority dc found] at lower
        exact .inr ⟨first,same,better,waiting,[],queue,rfl,fun _ member => absurd member List.not_mem_nil,lower⟩
      · rw [toInt_priority dc found] at above
        exact .inr ⟨pkt,is_pkt,better.trans above,isFirst.cons fun _ => above⟩
    · next worse =>
      rw [gt_iff_lt,Int64.lt_iff_toInt_lt,toInt_priority dc found] at worse
      exact passed (fun _ => not_lt.mp worse) ended

theorem schedulePacket_chosen {chosen : Option PacketRef} (ended : dc.schedulePacket = some chosen) :
    (chosen = none ∧ ∀ pkt ∈ dc.activeQueue, dc.Waiting pkt → dc.score pkt < 0) ∨
      ∃ pkt, chosen = some pkt ∧ 0 ≤ dc.score pkt ∧ FirstOf dc dc.activeQueue pkt := by
  have minus_one : (-1 : Int64).toInt = -1 := by decide
  rcases scheduleLoop_chosen ended with ⟨none,lower⟩ | ⟨pkt,is_pkt,above,isFirst⟩
  · rw [minus_one] at lower
    exact .inl ⟨none,fun pkt member waiting => by have := lower pkt member waiting; omega⟩
  · rw [minus_one] at above
    exact .inr ⟨pkt,is_pkt,by omega,isFirst⟩

/-! ### The service -/

theorem servicePacket_waiting {pkt : PacketRef} (waiting : dc.Waiting pkt) :
    (∃ dc', dc.servicePacket (some pkt) = some (true,dc')) ↔ dc.Ready pkt := by
  obtain ⟨_,bank,found,valid,refresh⟩ := waiting
  rw [servicePacket,Ready]
  by_cases ready : (dc.packets pkt).readyTime ≤ dc.currentCycle
  · simp [UInt64.not_lt.mpr ready,found,ready,valid,refresh]
  · simp [UInt64.not_le.mp ready,ready]

/-- The scheduling step serves a ready packet just when one is unhindered. -/
theorem schedule_serves_iff : (∃ dc', dc.schedule = some (true,dc')) ↔ dc.Unhindered := by
  have isSome_iff := @scheduleLoop_isSome_iff dc dc.activeQueue none (-1)
  constructor
  · rintro ⟨dc',served⟩
    obtain ⟨chosen,ended,served⟩ := Option.bind_eq_some_iff.mp served
    refine ⟨isSome_iff.mp (Option.isSome_of_eq_some ended),?_⟩
    rcases schedulePacket_chosen ended with ⟨rfl,_⟩ | ⟨pkt,rfl,above,waiting,before,after,whole,earlier,later⟩
    · cases served
    · exact ⟨before,pkt,after,whole,waiting,(servicePacket_waiting waiting).mp ⟨dc',served⟩,above,
        fun other member waits _ => earlier other member waits,fun other member waits _ => later other member waits⟩
  · rintro ⟨banks,before,pkt,after,whole,waiting,ready,above,earlier,later⟩
    obtain ⟨chosen,ended⟩ := Option.isSome_iff_exists.mp (isSome_iff.mpr banks)
    have inside : pkt ∈ dc.activeQueue := by simp [whole]
    rcases schedulePacket_chosen ended with ⟨rfl,lower⟩ | ⟨first,rfl,_,waits,before',after',whole',earlier',later'⟩
    · have := lower pkt inside waiting
      omega
    · -- of the first of all and the ready one, which is ahead of all that are not, neither is higher
      have isReady : dc.Ready first := by
        by_contra unready
        rcases List.append_eq_append_iff.mp (whole.symm.trans whole') with ⟨gap,rfl,rest⟩ | ⟨gap,rfl,rest⟩
        · cases gap with
          | nil =>
            obtain ⟨rfl,_⟩ := List.cons.inj rest
            exact unready ready
          | cons _ gap =>
            obtain ⟨rfl,rfl⟩ := List.cons.inj rest
            have first_le := later first (by simp) waits unready
            have pkt_lt := earlier' pkt (by simp) waiting
            omega
        · cases gap with
          | nil =>
            obtain ⟨rfl,_⟩ := List.cons.inj rest
            exact unready ready
          | cons _ gap =>
            obtain ⟨rfl,rfl⟩ := List.cons.inj rest
            have first_lt := earlier first (by simp) waits unready
            have pkt_le := later' pkt (by simp) waiting
            omega
      obtain ⟨dc',served⟩ := (servicePacket_waiting waits).mpr isReady
      exact ⟨dc',Option.bind_eq_some_iff.mpr ⟨_,ended,served⟩⟩

end

/-! ### Runs -/

theorem Consistent.finishDBusRequest_isSome {dc : DRAMChannel} {accepted : List PacketRef} (consistent : Consistent dc accepted) :
    ∃ dc', dc.finishDBusRequest = some dc' := by
  unfold DRAMChannel.finishDBusRequest
  split
  · exact ⟨_,rfl⟩
  next i active =>
  obtain ⟨pkt,bank,found,_,has⟩ := consistent.active active
  rw [found,Option.bind_some]
  split
  · exact ⟨_,rfl⟩
  · rw [has]
    exact ⟨_,rfl⟩

theorem Consistent.reachable {config : DRAMConfig} {packets : PacketRef → DRAMPacket} {dc : DRAMChannel}
    (created : newDRAMChannel config packets = .ok dc) {s : Session} (reached : Reachable Session.step ⟨dc,[]⟩ s) :
    Consistent s.dc s.accepted :=
  reached.invariant (P := fun s => Consistent s.dc s.accepted) (consistent_new created)
    (fun _ consistent _ stepped => consistent.step stepped)

/-- In every state that runs reach, a tick gets to its scheduling step, and this serves a
    packet whenever a ready one waits just when one that is ready comes before all those
    that wait and are not. -/
theorem serves_ready_iff {config : DRAMConfig} {packets : PacketRef → DRAMPacket} {dc : DRAMChannel}
    (created : newDRAMChannel config packets = .ok dc) {s : Session} (reached : Reachable Session.step ⟨dc,[]⟩ s) :
    ∃ dc', s.dc.beforeScheduling = some dc' ∧ (dc'.ServesReady ↔ dc'.Admits) := by
  have consistent := (Consistent.reachable created reached).modes (s.dc.currentCycle + 1) s.dc.writeMode s.dc.dbusAvailable
  obtain ⟨finished,ends⟩ := consistent.finishDBusRequest_isSome
  refine ⟨finished.swapWriteMode.populateDBus,?_,?_⟩
  · rw [beforeScheduling,ends]
    rfl
  · rw [ServesReady,Admits,schedule_serves_iff]

/-- A read is done and has left its row open; two more reads are added, the one of the same
    row not ready before cycle 200, the one of another bank ready at once. -/
def hitNotReady : List Op :=
  [.addRequest 0 (readAt 0)] ++ List.replicate 39 .tick ++
    [.addRequest 1 { readAt 128 with readyTime := 200 },.addRequest 2 (readAt 8)]

def afterFirstRead : Session :=
  (runActions Session.step (fun _ _ => True) hitNotReady ⟨newChannel,[]⟩).get (by decide +kernel)

theorem serves_ready_after_first_read :
    ∃ dc', afterFirstRead.dc.beforeScheduling = some dc' ∧ (dc'.ServesReady ↔ dc'.Admits) :=
  @serves_ready_iff defaultDRAMConfig (fun _ => readAt 0) newChannel rfl afterFirstRead
    (reaches_runActions hitNotReady (Option.some_get _).symm)

/-- The read of the open row is chosen and not ready, so that the other one is not served. -/
theorem ready_read_waits : ¬ ∀ (s : Session) (dc' : DRAMChannel), Reachable Session.step ⟨newChannel,[]⟩ s →
    s.dc.beforeScheduling = some dc' → dc'.ServesReady := by
  intro serves
  have ends : ((runActions Session.step (fun _ _ => True) hitNotReady ⟨newChannel,[]⟩).bind fun s =>
      s.dc.beforeScheduling.map fun dc' => ((dc'.writeMode,dc'.rq,(dc'.packets 2).scheduled,dc'.bankIndex 2),
        dc'.bankRequest[4]?,decide ((dc'.packets 2).readyTime ≤ dc'.currentCycle),dc'.schedule.map Prod.fst)) =
      some ((false,[1,2],false,4),some idleBank,true,some false) := by decide +kernel
  obtain ⟨s,ran,last⟩ := Option.bind_eq_some_iff.mp ends
  obtain ⟨dc',before,all⟩ := Option.map_eq_some_iff.mp last
  simp only [Prod.mk.injEq] at all
  obtain ⟨⟨mode,queue,unscheduled,index⟩,idle,ready,scheduled⟩ := all
  have waiting : dc'.Waiting 2 := ⟨unscheduled,idleBank,by rw [index]; exact idle,rfl,rfl⟩
  have inside : 2 ∈ dc'.activeQueue := by simp [activeQueue,mode,queue]
  have isReady : (dc'.packets 2).readyTime ≤ dc'.currentCycle := of_decide_eq_true ready
  obtain ⟨served,serving⟩ := serves s dc' (reaches_runActions hitNotReady ran) before ⟨2,inside,waiting,isReady⟩
  rw [serving] at scheduled
  cases scheduled

end FlowSim.Dram
