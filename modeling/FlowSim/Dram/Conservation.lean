import FlowSim.Dram.DRAMChannel
import FlowSim.Lib.Transition

/-!
A channel keeps the requests it has accepted. A packet is referred to from a queue,
from a bank and, through it, from the data bus; `Consistent` says how these agree.
Only three things are done to the references: a bank takes a queued packet, a bank
gives its packet up again, and the request on the data bus is finished.
-/
namespace FlowSim.Dram
open FlowSim.Lib
set_option linter.unusedSimpArgs false

namespace DRAMChannel

/-- The packets in either queue. -/
def queued (dc : DRAMChannel) : List PacketRef := dc.rq ++ dc.wq

/-- The queue of the packet's kind. -/
def queueOf (dc : DRAMChannel) (pkt : PacketRef) : List PacketRef := if (dc.packets pkt).isWrite then dc.wq else dc.rq

/-- The bank request at the place is valid and has the packet. -/
def Holds (dc : DRAMChannel) (i : Nat) (pkt : PacketRef) : Prop :=
  ∃ bank, dc.bankRequest[i]? = some bank ∧ bank.valid = true ∧ bank.pkt = some pkt

end DRAMChannel
open DRAMChannel

/-- How often the callback of a packet was called. -/
def called (dc : DRAMChannel) (pkt : PacketRef) : Nat := (dc.calls.map Call.pkt).count pkt

/-- Queues, banks, the data bus and the callbacks agree. -/
structure Consistent (dc : DRAMChannel) (accepted : List PacketRef) : Prop where
  nodup : dc.queued.Nodup
  kept : ∀ pkt ∈ dc.queued, pkt ∈ accepted ∧ pkt ∈ dc.queueOf pkt
  held : ∀ {i pkt}, dc.Holds i pkt → pkt ∈ dc.queued ∧ (dc.packets pkt).scheduled = true
  once : ∀ {i j pkt}, dc.Holds i pkt → dc.Holds j pkt → i = j
  scheduled : ∀ {pkt}, pkt ∈ dc.queued → (dc.packets pkt).scheduled = true → ∃ i, dc.Holds i pkt
  valid : ∀ bank ∈ dc.bankRequest, bank.valid = bank.pkt.isSome
  active : ∀ {i}, dc.activeRequest = some i → ∃ pkt, dc.Holds i pkt
  calls : ∀ {pkt}, pkt ∈ dc.queued ∨ pkt ∉ accepted → called dc pkt = 0
  finished : ∀ {pkt}, pkt ∈ accepted → pkt ∉ dc.queued → (dc.packets pkt).callback = true → called dc pkt = 1
  bounded : ∀ pkt, called dc pkt ≤ 1

/-- Nothing that the queues, banks and callbacks are about differs. -/
structure SameRefs (dc dc' : DRAMChannel) : Prop where
  rq : dc'.rq = dc.rq
  wq : dc'.wq = dc.wq
  calls : dc'.calls = dc.calls
  kind : ∀ pkt, (dc'.packets pkt).isWrite = (dc.packets pkt).isWrite
  callback : ∀ pkt, (dc'.packets pkt).callback = (dc.packets pkt).callback

theorem SameRefs.queued {dc dc' : DRAMChannel} (same : SameRefs dc dc') : dc'.queued = dc.queued := by
  rw [DRAMChannel.queued,DRAMChannel.queued,same.rq,same.wq]

theorem SameRefs.queueOf {dc dc' : DRAMChannel} (same : SameRefs dc dc') (pkt : PacketRef) :
    dc'.queueOf pkt = dc.queueOf pkt := by
  rw [DRAMChannel.queueOf,DRAMChannel.queueOf,same.rq,same.wq,same.kind]

theorem SameRefs.called {dc dc' : DRAMChannel} (same : SameRefs dc dc') (pkt : PacketRef) :
    called dc' pkt = called dc pkt := by
  rw [FlowSim.Dram.called,FlowSim.Dram.called,same.calls]

/-- What the banks do to the references is the only thing to check when the rest stays. -/
theorem Consistent.rebank {dc dc' : DRAMChannel} {accepted : List PacketRef} (consistent : Consistent dc accepted)
    (same : SameRefs dc dc')
    (held : ∀ {i pkt}, dc'.Holds i pkt → pkt ∈ dc.queued ∧ (dc'.packets pkt).scheduled = true)
    (once : ∀ {i j pkt}, dc'.Holds i pkt → dc'.Holds j pkt → i = j)
    (scheduled : ∀ {pkt}, pkt ∈ dc.queued → (dc'.packets pkt).scheduled = true → ∃ i, dc'.Holds i pkt)
    (valid : ∀ bank ∈ dc'.bankRequest, bank.valid = bank.pkt.isSome)
    (active : ∀ {i}, dc'.activeRequest = some i → ∃ pkt, dc'.Holds i pkt) : Consistent dc' accepted where
  nodup := by rw [same.queued]; exact consistent.nodup
  kept pkt := by rw [same.queued,same.queueOf]; exact consistent.kept pkt
  held := by rw [same.queued]; exact held
  once := once
  scheduled := by rw [same.queued]; exact scheduled
  valid := valid
  active := active
  calls := by intro pkt; rw [same.queued,same.called]; exact consistent.calls
  finished := by intro pkt; rw [same.queued,same.called,same.callback]; exact consistent.finished
  bounded pkt := by rw [same.called]; exact consistent.bounded pkt

/-! ### Banks -/

theorem holds_setBank {dc : DRAMChannel} {i : Nat} {old bank : BankRequest} (found : dc.bankRequest[i]? = some old)
    {j : Nat} {pkt : PacketRef} : (dc.setBank i bank).Holds j pkt ↔
      if j = i then bank.valid = true ∧ bank.pkt = some pkt else dc.Holds j pkt := by
  obtain ⟨inside,_⟩ := List.getElem?_eq_some_iff.mp found
  by_cases here : j = i
  · subst here
    rw [if_pos rfl]
    simp [Holds,setBank,List.getElem?_set_self inside]
  · rw [if_neg here]
    simp [Holds,setBank,List.getElem?_set_ne (Ne.symm here)]

theorem valid_setBank {dc : DRAMChannel} {i : Nat} {bank : BankRequest} (fits : bank.valid = bank.pkt.isSome)
    (valid : ∀ other ∈ dc.bankRequest, other.valid = other.pkt.isSome) :
    ∀ other ∈ (dc.setBank i bank).bankRequest, other.valid = other.pkt.isSome := by
  intro other member
  rcases List.mem_or_eq_of_mem_set member with old | rfl
  · exact valid other old
  · exact fits

/-- A valid bank has a packet. -/
theorem Consistent.holds_of_valid {dc : DRAMChannel} {accepted : List PacketRef} (consistent : Consistent dc accepted)
    {i : Nat} {bank : BankRequest} (found : dc.bankRequest[i]? = some bank) (valid : bank.valid = true) :
    ∃ pkt, bank.pkt = some pkt ∧ dc.Holds i pkt := by
  have some := consistent.valid bank (List.mem_of_getElem? found)
  rw [valid] at some
  obtain ⟨pkt,has⟩ := Option.isSome_iff_exists.mp some.symm
  exact ⟨pkt,has,bank,found,valid,has⟩

/-- A bank that is not on the data bus gives up its packet, which is unscheduled again. -/
theorem Consistent.resetBank {dc : DRAMChannel} {accepted : List PacketRef} (consistent : Consistent dc accepted)
    (i : Nat) : Consistent (dc.resetBank i) accepted := by
  unfold DRAMChannel.resetBank
  split
  · exact consistent
  next bank found =>
  split
  case isFalse => exact consistent
  next cancelled =>
  obtain ⟨idle,valid⟩ := cancelled
  obtain ⟨pkt,has,holds⟩ := consistent.holds_of_valid found valid
  dsimp only
  rw [has,Option.elim_some]
  have found' : (dc.unschedule pkt).bankRequest[i]? = some bank := found
  have gone : ∀ {j other}, (dc.unschedule pkt).Holds j other ↔ dc.Holds j other := Iff.rfl
  have released : ∀ other, other ≠ pkt → (((dc.unschedule pkt).packets other) = dc.packets other) := by
    intro other different
    simp [unschedule,setPacket,different]
  refine consistent.rebank ⟨rfl,rfl,rfl,?_,?_⟩ ?_ ?_ ?_ ?_ ?_
  · intro other
    by_cases here : other = pkt
    · subst here; simp [setBank,unschedule,setPacket]
    · simp [setBank,released other here]
  · intro other
    by_cases here : other = pkt
    · subst here; simp [setBank,unschedule,setPacket]
    · simp [setBank,released other here]
  · intro j other holds'
    rw [holds_setBank found'] at holds'
    split at holds'
    · exact absurd holds'.1 (by simp)
    · next elsewhere =>
      have different : other ≠ pkt := fun same => elsewhere (consistent.once (same ▸ gone.mp holds') holds)
      obtain ⟨queued,scheduled⟩ := consistent.held (gone.mp holds')
      refine ⟨queued,?_⟩
      show ((dc.unschedule pkt).packets other).scheduled = true
      rw [released other different]
      exact scheduled
  · intro j k other first second
    rw [holds_setBank found'] at first second
    split at first
    · exact absurd first.1 (by simp)
    · split at second
      · exact absurd second.1 (by simp)
      · exact consistent.once (gone.mp first) (gone.mp second)
  · intro other queued scheduled
    have different : other ≠ pkt := by
      rintro rfl
      simp [setBank,unschedule,setPacket] at scheduled
    have before : (dc.packets other).scheduled = true := by
      rw [← released other different]
      exact scheduled
    obtain ⟨j,holds'⟩ := consistent.scheduled queued before
    refine ⟨j,(holds_setBank found').mpr ?_⟩
    split
    · next here =>
      subst here
      obtain ⟨_,found'',_,has'⟩ := holds'
      cases found.symm.trans found''
      exact absurd (Option.some.inj (has'.symm.trans has)) different
    · exact gone.mpr holds'
  · exact valid_setBank (by simp) consistent.valid
  · intro j active
    obtain ⟨other,holds'⟩ := consistent.active active
    refine ⟨other,(holds_setBank found').mpr ?_⟩
    split
    · next here =>
      subst here
      exact absurd active idle
    · exact gone.mpr holds'

/-- A bank without a packet takes one that is queued and not scheduled. -/
theorem Consistent.serve {dc : DRAMChannel} {accepted : List PacketRef} (consistent : Consistent dc accepted)
    {i : Nat} {pkt : PacketRef} {bank served : BankRequest} (found : dc.bankRequest[i]? = some bank)
    (idle : bank.valid = false) (queued : pkt ∈ dc.queued) (waiting : (dc.packets pkt).scheduled = false)
    (valid : served.valid = true) (has : served.pkt = some pkt) :
    Consistent ((dc.setBank i served).setPacket pkt { dc.packets pkt with scheduled := true }) accepted := by
  have nobody : ∀ {j}, ¬ dc.Holds j pkt := by
    intro j holds
    rw [(consistent.held holds).2] at waiting
    cases waiting
  have empty : ∀ {other}, ¬ dc.Holds i other := by
    rintro other ⟨_,found',valid',_⟩
    cases found.symm.trans found'
    rw [idle] at valid'
    cases valid'
  have holds_iff : ∀ {j other}, ((dc.setBank i served).setPacket pkt
      { dc.packets pkt with scheduled := true }).Holds j other ↔ (j = i ∧ other = pkt) ∨ dc.Holds j other := by
    intro j other
    have moved : ((dc.setBank i served).setPacket pkt { dc.packets pkt with scheduled := true }).Holds j other ↔
        (dc.setBank i served).Holds j other := Iff.rfl
    rw [moved,holds_setBank found]
    split
    · next here =>
      subst here
      simp [valid,has,empty,eq_comm]
    · next elsewhere => simp [elsewhere]
  have others : ∀ other, other ≠ pkt → ((dc.setBank i served).setPacket pkt
      { dc.packets pkt with scheduled := true }).packets other = dc.packets other := by
    intro other different
    simp [setPacket,setBank,different]
  refine consistent.rebank ⟨rfl,rfl,rfl,?_,?_⟩ ?_ ?_ ?_ ?_ ?_
  · intro other
    by_cases here : other = pkt
    · subst here; simp [setPacket]
    · rw [others other here]
  · intro other
    by_cases here : other = pkt
    · subst here; simp [setPacket]
    · rw [others other here]
  · intro j other holds
    rcases holds_iff.mp holds with ⟨_,rfl⟩ | before
    · exact ⟨queued,by simp [setPacket]⟩
    · rw [others other (fun same => nobody (same ▸ before))]
      exact consistent.held before
  · intro j k other first second
    rcases holds_iff.mp first with ⟨rfl,rfl⟩ | before
    · rcases holds_iff.mp second with ⟨rfl,_⟩ | before'
      · rfl
      · exact absurd before' nobody
    · rcases holds_iff.mp second with ⟨rfl,rfl⟩ | before'
      · exact absurd before nobody
      · exact consistent.once before before'
  · intro other inside scheduled
    by_cases here : other = pkt
    · exact ⟨i,holds_iff.mpr (.inl ⟨rfl,here⟩)⟩
    · rw [others other here] at scheduled
      obtain ⟨j,holds⟩ := consistent.scheduled inside scheduled
      exact ⟨j,holds_iff.mpr (.inr holds)⟩
  · exact valid_setBank (by rw [valid,has]; rfl) consistent.valid
  · intro j active
    obtain ⟨other,holds⟩ := consistent.active active
    exact ⟨other,holds_iff.mpr (.inr holds)⟩

/-- A bank that only gets another time keeps the references, whichever bank is put
    on the data bus. -/
theorem Consistent.retime {dc : DRAMChannel} {accepted : List PacketRef} (consistent : Consistent dc accepted)
    {i : Nat} {bank retimed : BankRequest} (found : dc.bankRequest[i]? = some bank) (valid : retimed.valid = bank.valid)
    (has : retimed.pkt = bank.pkt) (active : Option Nat) (dbusAvailable : UInt64)
    (holds : ∀ {j}, active = some j → ∃ pkt, dc.Holds j pkt) :
    Consistent { dc.setBank i retimed with activeRequest := active, dbusAvailable } accepted := by
  have holds_iff : ∀ {j other}, ({ dc.setBank i retimed with activeRequest := active, dbusAvailable } :
      DRAMChannel).Holds j other ↔ dc.Holds j other := by
    intro j other
    have moved : ({ dc.setBank i retimed with activeRequest := active, dbusAvailable } : DRAMChannel).Holds j other ↔
        (dc.setBank i retimed).Holds j other := Iff.rfl
    rw [moved,holds_setBank found]
    split
    · next here =>
      subst here
      rw [valid,has]
      exact ⟨fun both => ⟨bank,found,both⟩,fun ⟨_,found',both⟩ => by cases found.symm.trans found'; exact both⟩
    · rfl
  refine consistent.rebank ⟨rfl,rfl,rfl,fun _ => rfl,fun _ => rfl⟩ ?_ ?_ ?_ ?_ ?_
  · exact fun held => consistent.held (holds_iff.mp held)
  · exact fun first second => consistent.once (holds_iff.mp first) (holds_iff.mp second)
  · intro pkt queued scheduled
    obtain ⟨j,held⟩ := consistent.scheduled queued scheduled
    exact ⟨j,holds_iff.mpr held⟩
  · refine valid_setBank ?_ consistent.valid
    rw [valid,has]
    exact consistent.valid bank (List.mem_of_getElem? found)
  · intro j active
    obtain ⟨pkt,held⟩ := holds active
    exact ⟨pkt,holds_iff.mpr held⟩

/-- The clock, the mode and the time the bus is free from are about no packet. -/
theorem Consistent.modes {dc : DRAMChannel} {accepted : List PacketRef} (consistent : Consistent dc accepted)
    (currentCycle : UInt64) (writeMode : Bool) (dbusAvailable : UInt64) :
    Consistent { dc with currentCycle, writeMode, dbusAvailable } accepted :=
  ⟨consistent.nodup,consistent.kept,consistent.held,consistent.once,consistent.scheduled,consistent.valid,
    consistent.active,consistent.calls,consistent.finished,consistent.bounded⟩

/-! ### Finishing a request -/

theorem queued_removeFromQueue (dc : DRAMChannel) (pkt : PacketRef) :
    (dc.removeFromQueue pkt).queued = dc.queued.erase pkt := by
  unfold removeFromQueue queued
  rw [List.erase_append]
  split <;> rfl

theorem mem_queueOf_removeFromQueue {dc : DRAMChannel} {pkt other : PacketRef} (different : other ≠ pkt)
    (queued : other ∈ dc.queueOf other) : other ∈ (dc.removeFromQueue pkt).queueOf other := by
  unfold removeFromQueue
  split
  · unfold queueOf at queued ⊢
    split at queued
    · next isWrite => rwa [if_pos isWrite]
    · next isRead =>
      rw [if_neg isRead]
      exact (List.mem_erase_of_ne different).mpr queued
  · unfold queueOf at queued ⊢
    split at queued
    · next isWrite =>
      rw [if_pos isWrite]
      exact (List.mem_erase_of_ne different).mpr queued
    · next isRead => rwa [if_neg isRead]

theorem called_callback (dc : DRAMChannel) (pkt other : PacketRef) : called (dc.callback pkt) other =
    called dc other + if (dc.packets pkt).callback = true ∧ other = pkt then 1 else 0 := by
  unfold callback called
  split
  · next set =>
    rw [List.map_append,List.count_append,List.map_singleton,List.count_singleton]
    by_cases here : other = pkt
    · simp [here,set]
    · simp [here,Ne.symm here]
  · next unset => simp [unset]

/-- The channel after the request of bank `i`, which is on the data bus, is finished. -/
def finish (dc : DRAMChannel) (i : Nat) (bank : BankRequest) (pkt : PacketRef) : DRAMChannel :=
  { (dc.callback pkt).setBank i { bank with valid := false, pkt := none } with activeRequest := none }.removeFromQueue pkt

theorem queued_finish (dc : DRAMChannel) (i : Nat) (bank : BankRequest) (pkt : PacketRef) :
    (finish dc i bank pkt).queued = dc.queued.erase pkt := by
  rw [finish,queued_removeFromQueue]
  unfold callback
  split <;> rfl

theorem packets_finish (dc : DRAMChannel) (i : Nat) (bank : BankRequest) (pkt : PacketRef) :
    (finish dc i bank pkt).packets = dc.packets := by
  unfold finish removeFromQueue callback
  split_ifs <;> rfl

theorem called_finish (dc : DRAMChannel) (i : Nat) (bank : BankRequest) (pkt other : PacketRef) :
    called (finish dc i bank pkt) other = called dc other +
      if (dc.packets pkt).callback = true ∧ other = pkt then 1 else 0 := by
  rw [← called_callback]
  unfold finish removeFromQueue
  split <;> rfl

theorem bankRequest_finish (dc : DRAMChannel) (i : Nat) (bank : BankRequest) (pkt : PacketRef) :
    (finish dc i bank pkt).bankRequest = (dc.setBank i { bank with valid := false, pkt := none }).bankRequest ∧
      (finish dc i bank pkt).activeRequest = none := by
  unfold finish removeFromQueue callback
  split_ifs <;> exact ⟨rfl,rfl⟩

/-- The packet leaves its queue and its bank, and its callback has been called. -/
theorem Consistent.finish {dc : DRAMChannel} {accepted : List PacketRef} (consistent : Consistent dc accepted)
    {i : Nat} {bank : BankRequest} {pkt : PacketRef} (found : dc.bankRequest[i]? = some bank)
    (has : bank.pkt = some pkt) : Consistent (finish dc i bank pkt) accepted := by
  have valid : bank.valid = true := by
    rw [consistent.valid bank (List.mem_of_getElem? found),has]
    rfl
  have holds : dc.Holds i pkt := ⟨bank,found,valid,has⟩
  obtain ⟨queued,_⟩ := consistent.held holds
  obtain ⟨accepted_pkt,_⟩ := consistent.kept pkt queued
  have holds_iff : ∀ {j other}, (Dram.finish dc i bank pkt).Holds j other ↔ j ≠ i ∧ dc.Holds j other := by
    intro j other
    have moved : (Dram.finish dc i bank pkt).Holds j other ↔
        (dc.setBank i { bank with valid := false, pkt := none }).Holds j other := by
      rw [Holds,(bankRequest_finish dc i bank pkt).1]
      rfl
    rw [moved,holds_setBank found]
    split
    · next here => simp [here]
    · next elsewhere => simp [elsewhere]
  have queued_iff : ∀ {other}, other ∈ (Dram.finish dc i bank pkt).queued ↔ other ≠ pkt ∧ other ∈ dc.queued := by
    intro other
    rw [queued_finish]
    exact consistent.nodup.mem_erase_iff
  refine ⟨?_,?_,?_,?_,?_,?_,?_,?_,?_,?_⟩
  · rw [queued_finish]
    exact consistent.nodup.erase pkt
  · intro other queued'
    obtain ⟨different,before⟩ := queued_iff.mp queued'
    obtain ⟨isAccepted,own⟩ := consistent.kept other before
    refine ⟨isAccepted,?_⟩
    have own' : other ∈ ({ (dc.callback pkt).setBank i { bank with valid := false, pkt := none } with
        activeRequest := none } : DRAMChannel).queueOf other := by
      unfold callback
      split <;> exact own
    exact mem_queueOf_removeFromQueue different own'
  · intro j other holds'
    obtain ⟨elsewhere,before⟩ := holds_iff.mp holds'
    obtain ⟨queued',scheduled⟩ := consistent.held before
    rw [packets_finish]
    refine ⟨queued_iff.mpr ⟨?_,queued'⟩,scheduled⟩
    rintro rfl
    exact elsewhere (consistent.once before holds)
  · intro j k other first second
    exact consistent.once (holds_iff.mp first).2 (holds_iff.mp second).2
  · intro other queued' scheduled
    obtain ⟨different,before⟩ := queued_iff.mp queued'
    rw [packets_finish] at scheduled
    obtain ⟨j,holds'⟩ := consistent.scheduled before scheduled
    refine ⟨j,holds_iff.mpr ⟨?_,holds'⟩⟩
    rintro rfl
    obtain ⟨_,found',_,has'⟩ := holds'
    cases found.symm.trans found'
    exact different (Option.some.inj (has'.symm.trans has))
  · rw [(bankRequest_finish dc i bank pkt).1]
    exact valid_setBank rfl consistent.valid
  · rw [(bankRequest_finish dc i bank pkt).2]
    rintro j ⟨⟩
  · intro other case
    have different : other ≠ pkt := by
      rintro rfl
      rcases case with queued' | new
      · exact (queued_iff.mp queued').1 rfl
      · exact new accepted_pkt
    rw [called_finish,if_neg (fun both => different both.2)]
    exact consistent.calls (case.imp_left fun queued' => (queued_iff.mp queued').2)
  · intro other isAccepted absent set
    rw [packets_finish] at set
    rw [called_finish]
    by_cases here : other = pkt
    · subst here
      rw [if_pos ⟨set,rfl⟩,consistent.calls (.inl queued)]
    · rw [if_neg (fun both => here both.2)]
      exact consistent.finished isAccepted (fun before => absent (queued_iff.mpr ⟨here,before⟩)) set
  · intro other
    rw [called_finish]
    by_cases here : other = pkt
    · subst here
      rw [consistent.calls (.inl queued)]
      split <;> omega
    · rw [if_neg (fun both => here both.2)]
      exact consistent.bounded other

theorem Consistent.finishDBusRequest {dc dc' : DRAMChannel} {accepted : List PacketRef}
    (consistent : Consistent dc accepted) (finished : dc.finishDBusRequest = some dc') : Consistent dc' accepted := by
  unfold DRAMChannel.finishDBusRequest at finished
  split at finished
  · cases finished
    exact consistent
  · obtain ⟨bank,found,finished⟩ := Option.bind_eq_some_iff.mp finished
    split at finished
    · cases finished
      exact consistent
    · obtain ⟨pkt,has,rfl⟩ := Option.map_eq_some_iff.mp finished
      exact consistent.finish found has

/-! ### The other steps of a tick -/

theorem Consistent.resetBanks {accepted : List PacketRef} : ∀ (places : List Nat) {dc : DRAMChannel},
    Consistent dc accepted → Consistent (places.foldl DRAMChannel.resetBank dc) accepted
  | [], _, consistent => consistent
  | i :: places, _, consistent => resetBanks places (consistent.resetBank i)

theorem Consistent.swapWriteMode {dc : DRAMChannel} {accepted : List PacketRef} (consistent : Consistent dc accepted) :
    Consistent dc.swapWriteMode accepted := by
  unfold DRAMChannel.swapWriteMode
  split
  · have switched := consistent.modes dc.currentCycle (!dc.writeMode) dc.dbusAvailable
    exact (switched.resetBanks (List.range dc.bankRequest.length)).modes _ _ _
  · exact consistent

/-- The bank that is next is valid and ready, before the last cycle of all. -/
theorem nextRequest_spec {dc : DRAMChannel} {i : Nat} (next : dc.nextRequest.1 = some i) : ∃ bank, dc.bankRequest[i]? = some bank ∧
    bank.valid = true ∧ bank.readyTime ≤ dc.currentCycle ∧ bank.readyTime < 18446744073709551615 := by
  unfold DRAMChannel.nextRequest at next
  generalize List.range dc.bankRequest.length = places at next
  -- the best so far is as told, and not later than the last cycle
  suffices loop : ∀ best : Option Nat × UInt64, (∀ {i}, best.1 = some i → ∃ bank, dc.bankRequest[i]? = some bank ∧
      bank.valid = true ∧ bank.readyTime ≤ dc.currentCycle ∧ bank.readyTime < 18446744073709551615) →
      best.2 ≤ 18446744073709551615 → (places.foldl _ best).1 = some i → _ from
    loop (none,18446744073709551615) (fun none => by cases none) (UInt64.le_refl _) next
  clear next
  induction places with
  | nil => exact fun best told _ => told
  | cons j places ih =>
    intro best told early next
    rw [List.foldl_cons] at next
    refine ih _ ?_ ?_ next
    · intro k found
      split at found
      · next bank found' =>
        split at found
        · next better =>
          cases found
          simp only [Bool.and_eq_true,decide_eq_true_eq] at better
          exact ⟨bank,found',better.1.1,better.1.2,UInt64.lt_of_lt_of_le better.2 early⟩
        · exact told found
      · exact told found
    · split
      · split
        · next better =>
          simp only [Bool.and_eq_true,decide_eq_true_eq] at better
          exact UInt64.le_trans (UInt64.le_of_lt better.2) early
        · exact early
      · exact early

theorem Consistent.populateDBus {dc : DRAMChannel} {accepted : List PacketRef} (consistent : Consistent dc accepted) :
    Consistent dc.populateDBus accepted := by
  unfold DRAMChannel.populateDBus
  split
  · exact consistent
  split
  · exact consistent
  split
  · exact consistent
  next i next =>
  split
  · exact consistent
  next bank found =>
  refine @Consistent.retime dc accepted consistent i bank { bank with readyTime := dc.currentCycle + burstTime }
    found rfl rfl (some i) _ ?_
  rintro j ⟨⟩
  obtain ⟨bank',found',valid,_⟩ := nextRequest_spec next
  obtain ⟨pkt,_,holds⟩ := consistent.holds_of_valid found' valid
  exact ⟨pkt,holds⟩

/-- What is chosen is in the queue and not scheduled. -/
theorem scheduleLoop_spec (dc : DRAMChannel) {pkt : PacketRef} : ∀ {queue : List PacketRef} {best : Option PacketRef}
    {priority : Int64}, dc.scheduleLoop queue best priority = some (some pkt) →
    best = some pkt ∨ pkt ∈ queue ∧ (dc.packets pkt).scheduled = false := by
  intro queue
  induction queue with
  | nil =>
    intro best priority chosen
    exact .inl (Option.some.inj chosen)
  | cons first queue ih =>
    intro best priority chosen
    have later : ∀ {best priority}, dc.scheduleLoop queue best priority = some (some pkt) →
        best = some pkt ∨ pkt ∈ first :: queue ∧ (dc.packets pkt).scheduled = false :=
      fun chosen => (ih chosen).imp_right fun ⟨member,waiting⟩ => ⟨List.mem_cons_of_mem _ member,waiting⟩
    rw [scheduleLoop] at chosen
    split at chosen
    · exact later chosen
    · next waiting =>
      obtain ⟨bank,_,chosen⟩ := Option.bind_eq_some_iff.mp chosen
      split at chosen
      · exact later chosen
      split at chosen
      · rcases later chosen with here | there
        · obtain rfl := Option.some.inj here
          exact .inr ⟨List.mem_cons_self ..,by simpa using waiting⟩
        · exact .inr there
      · exact later chosen

theorem schedulePacket_spec {dc : DRAMChannel} {pkt : PacketRef} (chosen : dc.schedulePacket = some (some pkt)) :
    pkt ∈ dc.queued ∧ (dc.packets pkt).scheduled = false := by
  rcases scheduleLoop_spec dc chosen with none | ⟨member,waiting⟩
  · cases none
  · refine ⟨List.mem_append.mpr ?_,waiting⟩
    split at member
    · exact .inr member
    · exact .inl member

theorem serve_spec (dc : DRAMChannel) (bank : BankRequest) (pkt : PacketRef) :
    (dc.serve bank pkt).valid = true ∧ (dc.serve bank pkt).pkt = some pkt := by
  unfold DRAMChannel.serve
  split <;> exact ⟨rfl,rfl⟩

theorem Consistent.servicePacket {dc : DRAMChannel} {accepted : List PacketRef} (consistent : Consistent dc accepted)
    {chosen : Option PacketRef} (waits : ∀ pkt, chosen = some pkt → pkt ∈ dc.queued ∧ (dc.packets pkt).scheduled = false)
    {result : Bool × DRAMChannel} (served : dc.servicePacket chosen = some result) : Consistent result.2 accepted := by
  unfold DRAMChannel.servicePacket at served
  split at served
  · cases served
    exact consistent
  next pkt =>
  split at served
  · cases served
    exact consistent
  obtain ⟨bank,found,rfl⟩ := Option.map_eq_some_iff.mp served
  split
  · exact consistent
  · next idle =>
    simp only [Bool.or_eq_true,not_or,Bool.not_eq_true] at idle
    obtain ⟨queued,waiting⟩ := waits pkt rfl
    exact consistent.serve found idle.1 queued waiting (serve_spec dc bank pkt).1 (serve_spec dc bank pkt).2

theorem Consistent.tick {dc dc' : DRAMChannel} {accepted : List PacketRef} (consistent : Consistent dc accepted)
    (ticked : dc.tick = some dc') : Consistent dc' accepted := by
  obtain ⟨dc₁,finished,ticked⟩ := Option.bind_eq_some_iff.mp ticked
  have later := consistent.modes (dc.currentCycle + 1) dc.writeMode dc.dbusAvailable
  have populated := (later.finishDBusRequest finished).swapWriteMode.populateDBus
  obtain ⟨chosen,scheduled,ticked⟩ := Option.bind_eq_some_iff.mp ticked
  obtain ⟨result,served,rfl⟩ := Option.map_eq_some_iff.mp ticked
  refine populated.servicePacket ?_ served
  rintro pkt rfl
  exact schedulePacket_spec scheduled

/-! ### Adding a request -/

/-- The packets' memory matters for accepted packets only. -/
theorem Consistent.setPacket {dc : DRAMChannel} {accepted : List PacketRef} (consistent : Consistent dc accepted)
    {pkt : PacketRef} (new : pkt ∉ accepted) (content : DRAMPacket) : Consistent (dc.setPacket pkt content) accepted := by
  have same : ∀ {other}, other ∈ accepted → (dc.setPacket pkt content).packets other = dc.packets other := by
    rintro other isAccepted
    simp only [DRAMChannel.setPacket]
    rw [Function.update_of_ne]
    rintro rfl
    exact new isAccepted
  refine ⟨consistent.nodup,?_,?_,consistent.once,?_,consistent.valid,consistent.active,consistent.calls,?_,
    consistent.bounded⟩
  · intro other queued
    obtain ⟨isAccepted,own⟩ := consistent.kept other queued
    refine ⟨isAccepted,?_⟩
    rw [DRAMChannel.queueOf,same isAccepted]
    exact own
  · intro i other holds
    obtain ⟨queued,scheduled⟩ := consistent.held holds
    rw [same (consistent.kept other queued).1]
    exact ⟨queued,scheduled⟩
  · intro other queued scheduled
    rw [same (consistent.kept other queued).1] at scheduled
    exact consistent.scheduled queued scheduled
  · intro other isAccepted absent set
    rw [same isAccepted] at set
    exact consistent.finished isAccepted absent set

/-- A packet that was not accepted before joins the queue of its kind. -/
theorem Consistent.enter {dc : DRAMChannel} {accepted rq wq : List PacketRef} (consistent : Consistent dc accepted)
    {pkt : PacketRef} (new : pkt ∉ accepted) (waiting : (dc.packets pkt).scheduled = false)
    (joined : (rq ++ wq).Perm (pkt :: dc.queued)) (reads : dc.rq ⊆ rq) (writes : dc.wq ⊆ wq)
    (own : pkt ∈ if (dc.packets pkt).isWrite then wq else rq) : Consistent { dc with rq, wq } (accepted ++ [pkt]) := by
  have apart : pkt ∉ dc.queued := fun queued => new (consistent.kept pkt queued).1
  have queued_iff : ∀ {other}, other ∈ ({ dc with rq, wq } : DRAMChannel).queued ↔ other = pkt ∨ other ∈ dc.queued := by
    intro other
    exact joined.mem_iff.trans List.mem_cons
  refine ⟨?_,?_,?_,consistent.once,?_,consistent.valid,consistent.active,?_,?_,consistent.bounded⟩
  · exact joined.nodup_iff.mpr (List.nodup_cons.mpr ⟨apart,consistent.nodup⟩)
  · intro other queued
    rcases queued_iff.mp queued with rfl | before
    · exact ⟨List.mem_append_right _ (List.mem_singleton_self _),own⟩
    · obtain ⟨isAccepted,inside⟩ := consistent.kept other before
      refine ⟨List.mem_append_left _ isAccepted,?_⟩
      unfold DRAMChannel.queueOf at inside ⊢
      split at inside
      · next kind => rw [if_pos kind]; exact writes inside
      · next kind => rw [if_neg kind]; exact reads inside
  · intro i other holds
    obtain ⟨queued,scheduled⟩ := consistent.held holds
    exact ⟨queued_iff.mpr (.inr queued),scheduled⟩
  · intro other queued scheduled
    rcases queued_iff.mp queued with rfl | before
    · rw [waiting] at scheduled
      cases scheduled
    · exact consistent.scheduled before scheduled
  · rintro other (queued | unaccepted)
    · rcases queued_iff.mp queued with rfl | before
      · exact consistent.calls (.inr new)
      · exact consistent.calls (.inl before)
    · exact consistent.calls (.inr fun isAccepted => unaccepted (List.mem_append_left _ isAccepted))
  · intro other isAccepted absent set
    have different : other ≠ pkt := fun same => absent (queued_iff.mpr (.inl same))
    rcases List.mem_append.mp isAccepted with before | last
    · exact consistent.finished before (fun queued => absent (queued_iff.mpr (.inr queued))) set
    · exact absurd (List.mem_singleton.mp last) different

/-- A ready time is all that is put into the packet. -/
theorem setReadyTime_eq (dc : DRAMChannel) (pkt : PacketRef) : ∃ readyTime,
    dc.setReadyTime pkt = dc.setPacket pkt { dc.packets pkt with readyTime } := by
  unfold setReadyTime
  split
  · exact ⟨_,rfl⟩
  · refine ⟨(dc.packets pkt).readyTime,?_⟩
    simp [DRAMChannel.setPacket]

theorem Consistent.addRequest {dc : DRAMChannel} {accepted : List PacketRef} (consistent : Consistent dc accepted)
    {pkt : PacketRef} (new : pkt ∉ accepted) (waiting : (dc.packets pkt).scheduled = false) :
    Consistent (dc.addRequest pkt).2 (if (dc.addRequest pkt).1 then accepted ++ [pkt] else accepted) := by
  obtain ⟨readyTime,stamped⟩ := setReadyTime_eq dc pkt
  have ready : Consistent (dc.setReadyTime pkt) accepted := stamped ▸ consistent.setPacket new _
  have same : ((dc.setReadyTime pkt).packets pkt).scheduled = false ∧
      ((dc.setReadyTime pkt).packets pkt).isWrite = (dc.packets pkt).isWrite ∧
      (dc.setReadyTime pkt).rq = dc.rq ∧ (dc.setReadyTime pkt).wq = dc.wq := by
    rw [stamped]
    simp [DRAMChannel.setPacket,waiting]
  unfold DRAMChannel.addRequest
  split
  · next isWrite =>
    split
    · exact consistent
    · refine ready.enter new same.1 ?_ (by simp [same.2.2]) (by simp [same.2.2]) (by simp [same.2.1,isWrite])
      rw [DRAMChannel.queued,← List.append_assoc,same.2.2.1,same.2.2.2]
      exact List.perm_append_singleton _ _
  · next isRead =>
    split
    · exact consistent
    · refine ready.enter new same.1 ?_ (by simp [same.2.2]) (by simp [same.2.2]) (by simp [same.2.1,isRead])
      rw [DRAMChannel.queued,same.2.2.1,same.2.2.2,List.append_assoc]
      exact List.perm_middle

/-! ### Runs -/

theorem consistent_new {config : DRAMConfig} {packets : PacketRef → DRAMPacket} {dc : DRAMChannel}
    (created : newDRAMChannel config packets = .ok dc) : Consistent dc [] := by
  unfold newDRAMChannel at created
  split at created
  · cases created
  next mapping _ =>
  cases created
  have idle : ∀ {i : Nat} {pkt : PacketRef}, ¬ ∃ bank : BankRequest,
      (List.replicate mapping.totalBanks.toNat idleBank)[i]? = some bank ∧ bank.valid = true ∧ bank.pkt = some pkt := by
    rintro i pkt ⟨bank,found,valid,_⟩
    rw [List.eq_of_mem_replicate (List.mem_of_getElem? found)] at valid
    cases valid
  refine ⟨List.nodup_nil,?_,?_,?_,?_,?_,?_,?_,?_,?_⟩
  · rintro pkt ⟨⟩
  · exact fun holds => (idle holds).elim
  · exact fun holds => (idle holds).elim
  · rintro pkt ⟨⟩
  · intro bank member
    rw [List.eq_of_mem_replicate member]
    rfl
  · rintro i ⟨⟩
  · exact fun _ => rfl
  · rintro pkt ⟨⟩
  · exact fun _ => Nat.zero_le _

theorem Consistent.step {s s' : Session} {op : Op} (consistent : Consistent s.dc s.accepted)
    (stepped : s.step op = some s') : Consistent s'.dc s'.accepted := by
  cases op with
  | addRequest pkt content =>
    simp only [Session.step,Option.ite_none_right_eq_some,Option.some.injEq] at stepped
    obtain ⟨⟨new,waiting⟩,rfl⟩ := stepped
    exact (consistent.setPacket new content).addRequest new (by simpa [DRAMChannel.setPacket] using waiting)
  | tick =>
    obtain ⟨dc,ticked,rfl⟩ := Option.map_eq_some_iff.mp stepped
    exact consistent.tick ticked
  | setCycle cycle =>
    cases stepped
    exact consistent.modes cycle s.dc.writeMode s.dc.dbusAvailable

/-- What is said of the requests of a channel in one state. -/
structure Conserves (s : Session) : Prop where
  /-- an accepted packet is in the queue of its kind until its callback is called -/
  stays : ∀ pkt ∈ s.accepted, (s.dc.packets pkt).callback = true → pkt ∈ s.dc.queueOf pkt ∨ 0 < called s.dc pkt
  once : ∀ pkt, called s.dc pkt ≤ 1
  scheduled : ∀ pkt ∈ s.dc.queued, (s.dc.packets pkt).scheduled = true ↔ ∃! i, s.dc.Holds i pkt
  invalid : ∀ bank ∈ s.dc.bankRequest, bank.valid = false → bank.pkt = none
  active : ∀ i, s.dc.activeRequest = some i → ∃ pkt, s.dc.Holds i pkt ∧ pkt ∈ s.dc.queued

/-- In every run of a new channel each accepted request is kept until its callback
    has been called, once, and queues, banks and the data bus agree. -/
theorem channel_conserves {config : DRAMConfig} {packets : PacketRef → DRAMPacket} {dc : DRAMChannel}
    (created : newDRAMChannel config packets = .ok dc) {s : Session} (reached : Reachable Session.step ⟨dc,[]⟩ s) :
    Conserves s := by
  have consistent : Consistent s.dc s.accepted :=
    reached.invariant (P := fun s => Consistent s.dc s.accepted) (consistent_new created)
      (fun _ consistent _ stepped => consistent.step stepped)
  refine ⟨?_,consistent.bounded,?_,?_,?_⟩
  · intro pkt isAccepted set
    by_cases queued : pkt ∈ s.dc.queued
    · exact .inl (consistent.kept pkt queued).2
    · exact .inr (by rw [consistent.finished isAccepted queued set]; exact Nat.one_pos)
  · intro pkt queued
    constructor
    · intro scheduled
      obtain ⟨i,holds⟩ := consistent.scheduled queued scheduled
      exact ⟨i,holds,fun j holds' => consistent.once holds' holds⟩
    · rintro ⟨i,holds,_⟩
      exact (consistent.held holds).2
  · intro bank member invalid
    have none := consistent.valid bank member
    rw [invalid] at none
    exact Option.isSome_eq_false_iff.mp none.symm |> Option.isNone_iff_eq_none.mp
  · intro i active
    obtain ⟨pkt,holds⟩ := consistent.active active
    exact ⟨pkt,holds,(consistent.held holds).1⟩

def readAt (address : UInt64) : DRAMPacket where
  address := address
  data := 0
  isWrite := false
  scheduled := false
  readyTime := 0
  callback := true

/-- Reads of two rows of a bank, then a write; the second read waits for its bank
    until the first is done. -/
def twoReadsAndAWrite : List Op :=
  [.addRequest 0 (readAt 0),.addRequest 1 (readAt 1048576),.tick,
    .addRequest 2 { readAt 64 with isWrite := true },.setCycle 40,.tick,.tick,.setCycle 60,.tick]

def newChannel : DRAMChannel := (newDRAMChannel defaultDRAMConfig fun _ => readAt 0).toOption.get (by decide +kernel)

def afterTwoReads : Session :=
  (runActions Session.step (fun _ _ => True) twoReadsAndAWrite ⟨newChannel,[]⟩).get (by decide +kernel)

theorem channel_conserves_two_reads : Conserves afterTwoReads :=
  @channel_conserves defaultDRAMConfig (fun _ => readAt 0) newChannel rfl afterTwoReads
    (reaches_runActions twoReadsAndAWrite (Option.some_get _).symm)

end FlowSim.Dram
