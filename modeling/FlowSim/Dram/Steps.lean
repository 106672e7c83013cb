import FlowSim.Dram.Conservation

/-!
What each step of a tick can do to a channel: the request on the data bus is finished, the
banks are cancelled when the mode is switched, a ready bank gets the data bus, an idle bank
gets a packet. What is not named by a case is as it was.
-/
namespace FlowSim.Dram
open FlowSim.Lib DRAMChannel
set_option linter.unusedSimpArgs false

/-! ### The data bus -/

/-- Of a request that is finished the bank is free and the data bus, and the packet is gone
    from its queue. -/
theorem finish_rest (dc : DRAMChannel) (i : Nat) (bank : BankRequest) (pkt : PacketRef) : finish dc i bank pkt =
    { dc with
      rq := (dc.removeFromQueue pkt).rq, wq := (dc.removeFromQueue pkt).wq, activeRequest := none,
      bankRequest := dc.bankRequest.set i { bank with valid := false, pkt := none }, calls := (dc.callback pkt).calls } := by
  unfold finish DRAMChannel.removeFromQueue DRAMChannel.callback
  split_ifs <;> first | rfl | contradiction

theorem finishDBusRequest_cases {dc dc' : DRAMChannel} (finished : dc.finishDBusRequest = some dc') :
    (dc' = dc ∧ ∀ {i bank}, dc.activeRequest = some i → dc.bankRequest[i]? = some bank → dc.currentCycle < bank.readyTime) ∨
      ∃ i bank pkt, dc.activeRequest = some i ∧ dc.bankRequest[i]? = some bank ∧ bank.readyTime ≤ dc.currentCycle ∧
        bank.pkt = some pkt ∧ dc' = finish dc i bank pkt := by
  unfold DRAMChannel.finishDBusRequest at finished
  split at finished
  · next none => exact .inl ⟨(Option.some.inj finished).symm,fun active => by rw [none] at active; cases active⟩
  next i active =>
  obtain ⟨bank,found,finished⟩ := Option.bind_eq_some_iff.mp finished
  split at finished
  · next early =>
    refine .inl ⟨(Option.some.inj finished).symm,?_⟩
    intro j bank' active' found'
    cases active.symm.trans active'
    cases found.symm.trans found'
    exact early
  · next due =>
    obtain ⟨pkt,has,rfl⟩ := Option.map_eq_some_iff.mp finished
    exact .inr ⟨i,bank,pkt,active,found,UInt64.not_lt.mp due,has,rfl⟩

/-- With a valid bank that is ready, before the last cycle of all, there is a next one. -/
theorem nextRequest_isSome {dc : DRAMChannel} {i : Nat} {bank : BankRequest} (found : dc.bankRequest[i]? = some bank)
    (valid : bank.valid = true) (ready : bank.readyTime ≤ dc.currentCycle) (early : bank.readyTime < 18446744073709551615) :
    dc.nextRequest.1.isSome = true := by
  unfold DRAMChannel.nextRequest
  have inside : i ∈ List.range dc.bankRequest.length :=
    List.mem_range.mpr (List.getElem?_eq_some_iff.mp found).1
  generalize List.range dc.bankRequest.length = places at inside
  -- while there is no best one the limit is the last cycle
  suffices loop : ∀ best : Option Nat × UInt64, (best.1.isSome = true ∨ i ∈ places ∧ best.2 = 18446744073709551615) →
      (places.foldl _ best).1.isSome = true from loop (none,18446744073709551615) (.inr ⟨inside,rfl⟩)
  clear inside
  induction places with
  | nil =>
    rintro best (some | ⟨none,_⟩)
    · exact some
    · cases none
  | cons j places ih =>
    intro best told
    rw [List.foldl_cons]
    apply ih
    split
    · next bank' found' =>
      split
      · exact .inl rfl
      · next worse =>
        rcases told with some | ⟨member,limit⟩
        · exact .inl some
        rcases List.mem_cons.mp member with rfl | later
        · cases found.symm.trans found'
          simp [valid,ready,limit,early] at worse
        · exact .inr ⟨later,limit⟩
    · next none =>
      rcases told with some | ⟨member,limit⟩
      · exact .inl some
      rcases List.mem_cons.mp member with rfl | later
      · rw [none] at found
        cases found
      · exact .inr ⟨later,limit⟩

theorem populateDBus_cases (dc : DRAMChannel) :
    (dc.populateDBus = dc ∧ (dc.activeRequest.isSome = true ∨ dc.currentCycle < dc.dbusAvailable ∨ dc.nextRequest.1 = none)) ∨
      ∃ i bank, dc.activeRequest = none ∧ dc.dbusAvailable ≤ dc.currentCycle ∧ dc.bankRequest[i]? = some bank ∧ bank.valid = true ∧
        bank.readyTime ≤ dc.currentCycle ∧ dc.populateDBus = { dc with
          bankRequest := dc.bankRequest.set i { bank with readyTime := dc.currentCycle + burstTime }
          activeRequest := some i, dbusAvailable := dc.currentCycle + burstTime } := by
  unfold DRAMChannel.populateDBus
  split
  · next busy => exact .inl ⟨rfl,.inl busy⟩
  next free =>
  split
  · next late => exact .inl ⟨rfl,.inr (.inl late)⟩
  next available =>
  split
  · next none => exact .inl ⟨rfl,.inr (.inr none)⟩
  next i next =>
  obtain ⟨bank,found,valid,ready,_⟩ := nextRequest_spec next
  rw [found]
  exact .inr ⟨i,bank,by simpa using free,UInt64.not_lt.mp available,found,valid,ready,rfl⟩

/-! ### Switching -/

/-- Some banks off the data bus have been cancelled, and their packets are waiting again. -/
structure Cancelled (dc dc' : DRAMChannel) : Prop where
  rest : dc' = { dc with bankRequest := dc'.bankRequest, packets := dc'.packets }
  length : dc'.bankRequest.length = dc.bankRequest.length
  bank : ∀ {i : Nat} {bank' : BankRequest}, dc'.bankRequest[i]? = some bank' → ∃ bank, dc.bankRequest[i]? = some bank ∧
    bank'.underRefresh = bank.underRefresh ∧ (bank' = bank ∨ bank'.valid = false)
  kept : ∀ {i}, dc.activeRequest = some i → dc'.bankRequest[i]? = dc.bankRequest[i]?
  packet : ∀ pkt, dc'.packets pkt = dc.packets pkt ∨
    dc'.packets pkt = { dc.packets pkt with scheduled := false, readyTime := dc.currentCycle }

theorem Cancelled.refl (dc : DRAMChannel) : Cancelled dc dc :=
  ⟨rfl,rfl,fun found => ⟨_,found,rfl,.inl rfl⟩,fun _ => rfl,fun _ => .inl rfl⟩

theorem Cancelled.trans {dc dc' dc'' : DRAMChannel} (first : Cancelled dc dc') (second : Cancelled dc' dc'') :
    Cancelled dc dc'' := by
  have active : dc'.activeRequest = dc.activeRequest := by rw [first.rest]
  have cycle : dc'.currentCycle = dc.currentCycle := by rw [first.rest]
  refine ⟨?_,second.length.trans first.length,?_,?_,?_⟩
  · conv_lhs => rw [second.rest,first.rest]
  · intro i bank'' found
    obtain ⟨bank',found',refresh,same⟩ := second.bank found
    obtain ⟨bank,found,refresh',same'⟩ := first.bank found'
    refine ⟨bank,found,refresh.trans refresh',?_⟩
    rcases same with rfl | invalid
    · exact same'
    · exact .inr invalid
  · intro i here
    rw [second.kept (active.trans here),first.kept here]
  · intro pkt
    rcases second.packet pkt with same | again
    · rw [same]
      exact first.packet pkt
    · rw [again,cycle]
      rcases first.packet pkt with same | before
      · exact .inr (by rw [same])
      · exact .inr (by rw [before])

theorem cancelled_resetBank (dc : DRAMChannel) (i : Nat) : Cancelled dc (dc.resetBank i) ∧
    ∀ {bank}, (dc.resetBank i).bankRequest[i]? = some bank → bank.valid = true → dc.activeRequest = some i := by
  unfold DRAMChannel.resetBank
  split
  · next none => exact ⟨.refl dc,fun found => by rw [none] at found; cases found⟩
  next bank found =>
  split
  case isFalse busy =>
    refine ⟨.refl dc,?_⟩
    intro bank' found' valid
    cases found.symm.trans found'
    by_contra idle
    exact busy ⟨idle,valid⟩
  next cancelled =>
  obtain ⟨inside,_⟩ := List.getElem?_eq_some_iff.mp found
  have banks : ∀ pkt : Option PacketRef, (pkt.elim dc dc.unschedule).bankRequest = dc.bankRequest := by rintro (_ | _) <;> rfl
  constructor
  · refine ⟨?_,?_,?_,?_,?_⟩
    · cases bank.pkt <;> rfl
    · simp [setBank,banks]
    · intro j bank' found'
      simp only [setBank,banks] at found'
      by_cases here : i = j
      · subst here
        rw [List.getElem?_set_self inside] at found'
        cases found'
        exact ⟨bank,found,rfl,.inr rfl⟩
      · rw [List.getElem?_set_ne here] at found'
        exact ⟨bank',found',rfl,.inl rfl⟩
    · intro j active
      have elsewhere : i ≠ j := by
        rintro rfl
        exact cancelled.1 active
      simp [setBank,banks,List.getElem?_set_ne elsewhere]
    · intro pkt
      simp only [setBank]
      cases bank.pkt with
      | none => exact .inl rfl
      | some own =>
        by_cases here : pkt = own
        · subst here
          exact .inr (by simp [unschedule,setPacket])
        · exact .inl (by simp [unschedule,setPacket,here])
  · intro bank' found' valid
    simp only [setBank,banks,List.getElem?_set_self inside,Option.some.injEq] at found'
    subst found'
    cases valid

/-- After all banks have been gone over, the one on the data bus is the only valid one. -/
theorem cancelled_resetBanks : ∀ (places : List Nat) (dc : DRAMChannel), Cancelled dc (places.foldl DRAMChannel.resetBank dc) ∧
    ∀ {i bank}, i ∈ places → (places.foldl DRAMChannel.resetBank dc).bankRequest[i]? = some bank → bank.valid = true →
      dc.activeRequest = some i
  | [], dc => ⟨.refl dc,fun member => absurd member List.not_mem_nil⟩
  | j :: places, dc => by
    obtain ⟨first,alone⟩ := cancelled_resetBank dc j
    obtain ⟨later,others⟩ := cancelled_resetBanks places (dc.resetBank j)
    have active : (dc.resetBank j).activeRequest = dc.activeRequest := by rw [first.rest]
    refine ⟨first.trans later,?_⟩
    intro i bank member found valid
    rcases List.mem_cons.mp member with rfl | inside
    · obtain ⟨bank',found',_,same | invalid⟩ := later.bank found
      · subst same
        exact alone found' valid
      · rw [invalid] at valid
        cases valid
    · exact active ▸ others inside found valid

/-- A switch cancels all requests but the one on the data bus. -/
structure Switched (dc dc' : DRAMChannel) : Prop where
  rest : dc' = { dc with
    writeMode := !dc.writeMode, bankRequest := dc'.bankRequest, packets := dc'.packets, dbusAvailable := dc'.dbusAvailable }
  length : dc'.bankRequest.length = dc.bankRequest.length
  bank : ∀ {i : Nat} {bank' : BankRequest}, dc'.bankRequest[i]? = some bank' → ∃ bank, dc.bankRequest[i]? = some bank ∧
    bank'.underRefresh = bank.underRefresh ∧ (bank' = bank ∨ bank'.valid = false)
  kept : ∀ {i}, dc.activeRequest = some i → dc'.bankRequest[i]? = dc.bankRequest[i]?
  alone : ∀ {i bank}, dc'.bankRequest[i]? = some bank → bank.valid = true → dc.activeRequest = some i
  packet : ∀ pkt, dc'.packets pkt = dc.packets pkt ∨
    dc'.packets pkt = { dc.packets pkt with scheduled := false, readyTime := dc.currentCycle }
  dbusAvailable : dc'.dbusAvailable =
    (dc.activeRequest.bind (fun i => dc.bankRequest[i]?)).elim dc.currentCycle BankRequest.readyTime + dc.config.tRAS

theorem Switched.same {dc dc' : DRAMChannel} (switched : Switched dc dc') : dc'.config = dc.config ∧ dc'.mapping = dc.mapping ∧
    dc'.currentCycle = dc.currentCycle ∧ dc'.activeRequest = dc.activeRequest ∧ dc'.calls = dc.calls := by
  rw [switched.rest]
  exact ⟨rfl,rfl,rfl,rfl,rfl⟩

theorem swapWriteMode_cases (dc : DRAMChannel) :
    (dc.shouldSwitch = false ∧ dc.swapWriteMode = dc) ∨ (dc.shouldSwitch = true ∧ Switched dc dc.swapWriteMode) := by
  unfold DRAMChannel.swapWriteMode
  split
  case isFalse stays => exact .inl ⟨by simpa using stays,rfl⟩
  next due =>
  refine .inr ⟨due,?_⟩
  obtain ⟨⟨rest,length,bank,kept,packet⟩,alone⟩ :=
    cancelled_resetBanks (List.range dc.bankRequest.length) { dc with writeMode := !dc.writeMode }
  generalize (List.range dc.bankRequest.length).foldl DRAMChannel.resetBank { dc with writeMode := !dc.writeMode } = after at *
  have active : after.activeRequest = dc.activeRequest := by rw [rest]
  have cycle : after.currentCycle = dc.currentCycle := by rw [rest]
  have config : after.config = dc.config := by rw [rest]
  refine ⟨?_,length,bank,kept,?_,packet,?_⟩
  · cases after
    cases rest
    rfl
  · intro i bank found valid
    have inside : i < dc.bankRequest.length := by
      rw [← length]
      exact (List.getElem?_eq_some_iff.mp found).1
    exact alone (List.mem_range.mpr inside) found valid
  · dsimp only
    rw [active,cycle,config]
    cases here : dc.activeRequest with
    | none => rfl
    | some i => rw [Option.bind_some,Option.bind_some,kept here]

/-! ### Scheduling -/

theorem servicePacket_cases {dc : DRAMChannel} {chosen : Option PacketRef} {result : Bool × DRAMChannel}
    (served : dc.servicePacket chosen = some result) :
    result = (false,dc) ∨ ∃ pkt bank, chosen = some pkt ∧ dc.bankRequest[dc.bankIndex pkt]? = some bank ∧ bank.valid = false ∧
      bank.underRefresh = false ∧ (dc.packets pkt).readyTime ≤ dc.currentCycle ∧
      result = (true,(dc.setBank (dc.bankIndex pkt) (dc.serve bank pkt)).setPacket pkt { dc.packets pkt with scheduled := true }) := by
  unfold DRAMChannel.servicePacket at served
  split at served
  · exact .inl (Option.some.inj served).symm
  next pkt =>
  split at served
  · exact .inl (Option.some.inj served).symm
  next ready =>
  obtain ⟨bank,found,rfl⟩ := Option.map_eq_some_iff.mp served
  split
  · exact .inl rfl
  · next idle =>
    simp only [Bool.or_eq_true,not_or,Bool.not_eq_true] at idle
    exact .inr ⟨pkt,bank,rfl,found,idle.1,idle.2,UInt64.not_lt.mp ready,rfl⟩

namespace DRAMConfig

/-- The cycles that a bank takes for a packet at most. -/
def bankTime (config : DRAMConfig) : Nat := config.tRP.toNat + config.tRCD.toNat + config.tCAS.toNat

end DRAMConfig

/-- A bank is served in the cycles that its row takes. -/
theorem serve_readyTime (dc : DRAMChannel) (bank : BankRequest) (pkt : PacketRef) : ∃ latency,
    (dc.serve bank pkt).readyTime = dc.currentCycle + latency ∧ (dc.serve bank pkt).underRefresh = bank.underRefresh ∧
      (latency = dc.config.tCAS ∨ latency = dc.config.tRP + dc.config.tRCD + dc.config.tCAS ∨
        latency = dc.config.tRCD + dc.config.tCAS) := by
  unfold DRAMChannel.serve
  split
  · exact ⟨_,rfl,rfl,.inl rfl⟩
  · refine ⟨_,rfl,rfl,?_⟩
    split
    · exact .inr (.inl rfl)
    · exact .inr (.inr rfl)

theorem serve_toNat {dc : DRAMChannel} (room : dc.currentCycle.toNat + dc.config.bankTime < 2 ^ 64) (bank : BankRequest)
    (pkt : PacketRef) : dc.currentCycle.toNat + dc.config.tCAS.toNat ≤ (dc.serve bank pkt).readyTime.toNat ∧
      (dc.serve bank pkt).readyTime.toNat ≤ dc.currentCycle.toNat + dc.config.bankTime := by
  obtain ⟨latency,ready,_,which⟩ := serve_readyTime dc bank pkt
  unfold DRAMConfig.bankTime at *
  rw [ready,UInt64.toNat_add]
  rcases which with rfl | rfl | rfl
  · omega
  · rw [UInt64.toNat_add,UInt64.toNat_add]
    omega
  · rw [UInt64.toNat_add]
    omega

theorem burst_toNat {cycle : UInt64} (room : cycle.toNat + 8 < 2 ^ 64) : (cycle + burstTime).toNat = cycle.toNat + 8 := by
  rw [UInt64.toNat_add]
  exact Nat.mod_eq_of_lt room

/-- The bank on the data bus has a packet, so no packet is given to it. -/
theorem Consistent.not_active {dc : DRAMChannel} {accepted : List PacketRef} (consistent : Consistent dc accepted) {i : Nat} {bank : BankRequest}
    (found : dc.bankRequest[i]? = some bank) (idle : bank.valid = false) : dc.activeRequest ≠ some i := by
  intro active
  obtain ⟨_,bank',found',valid,_⟩ := consistent.active active
  cases found.symm.trans found'
  rw [idle] at valid
  cases valid

/-! ### Runs -/

/-- The configuration, the mapping, the clock and the number of banks are the same. -/
structure SameBoard (dc dc' : DRAMChannel) : Prop where
  config : dc'.config = dc.config
  mapping : dc'.mapping = dc.mapping
  currentCycle : dc'.currentCycle = dc.currentCycle
  banks : dc'.bankRequest.length = dc.bankRequest.length

theorem SameBoard.trans {dc dc' dc'' : DRAMChannel} (first : SameBoard dc dc') (second : SameBoard dc' dc'') :
    SameBoard dc dc'' :=
  ⟨second.config.trans first.config,second.mapping.trans first.mapping,second.currentCycle.trans first.currentCycle,
    second.banks.trans first.banks⟩

theorem sameBoard_finishDBusRequest {dc dc' : DRAMChannel} (finished : dc.finishDBusRequest = some dc') : SameBoard dc dc' := by
  rcases finishDBusRequest_cases finished with ⟨rfl,_⟩ | ⟨i,bank,pkt,_,_,_,_,rfl⟩
  · exact ⟨rfl,rfl,rfl,rfl⟩
  · rw [finish_rest]
    exact ⟨rfl,rfl,rfl,List.length_set⟩

theorem sameBoard_swapWriteMode (dc : DRAMChannel) : SameBoard dc dc.swapWriteMode := by
  rcases swapWriteMode_cases dc with ⟨_,same⟩ | ⟨_,switched⟩
  · rw [same]
    exact ⟨rfl,rfl,rfl,rfl⟩
  · obtain ⟨config,mapping,cycle,_⟩ := switched.same
    exact ⟨config,mapping,cycle,switched.length⟩

theorem sameBoard_populateDBus (dc : DRAMChannel) : SameBoard dc dc.populateDBus := by
  rcases populateDBus_cases dc with ⟨same,_⟩ | ⟨i,bank,_,_,_,_,_,populated⟩
  · rw [same]
    exact ⟨rfl,rfl,rfl,rfl⟩
  · rw [populated]
    exact ⟨rfl,rfl,rfl,List.length_set⟩

theorem sameBoard_servicePacket {dc dc' : DRAMChannel} {chosen : Option PacketRef} {success : Bool}
    (served : dc.servicePacket chosen = some (success,dc')) : SameBoard dc dc' := by
  rcases servicePacket_cases served with same | ⟨pkt,bank,_,_,_,_,_,same⟩
  · cases same
    exact ⟨rfl,rfl,rfl,rfl⟩
  · cases same
    exact ⟨rfl,rfl,rfl,List.length_set⟩

/-- The steps of a tick: the clock goes on, the request on the data bus is finished, the mode
    is switched, a bank gets the data bus, and a chosen packet gets a bank. -/
theorem tick_cases {dc dc' : DRAMChannel} (ticked : dc.tick = some dc') : ∃ finished chosen success,
    ({ dc with currentCycle := dc.currentCycle + 1 } : DRAMChannel).finishDBusRequest = some finished ∧
      finished.swapWriteMode.populateDBus.schedulePacket = some chosen ∧
      finished.swapWriteMode.populateDBus.servicePacket chosen = some (success,dc') := by
  obtain ⟨finished,finishes,ticked⟩ := Option.bind_eq_some_iff.mp ticked
  obtain ⟨chosen,chooses,ticked⟩ := Option.bind_eq_some_iff.mp ticked
  obtain ⟨⟨success,after⟩,serves,rfl⟩ := Option.map_eq_some_iff.mp ticked
  exact ⟨finished,chosen,success,finishes,chooses,serves⟩

theorem sameBoard_tick {dc dc' : DRAMChannel} (ticked : dc.tick = some dc') :
    SameBoard { dc with currentCycle := dc.currentCycle + 1 } dc' := by
  obtain ⟨finished,chosen,success,finishes,_,serves⟩ := tick_cases ticked
  exact (((sameBoard_finishDBusRequest finishes).trans (sameBoard_swapWriteMode finished)).trans
    (sameBoard_populateDBus _)).trans (sameBoard_servicePacket serves)

theorem addRequest_rest (s : Session) (pkt : PacketRef) (content : DRAMPacket) : (s.addRequest pkt content).2.dc =
    { s.dc with
      rq := (s.addRequest pkt content).2.dc.rq, wq := (s.addRequest pkt content).2.dc.wq,
      packets := (s.addRequest pkt content).2.dc.packets } := by
  obtain ⟨readyTime,stamped⟩ := setReadyTime_eq (s.dc.setPacket pkt content) pkt
  unfold Session.addRequest DRAMChannel.addRequest
  dsimp only
  rw [stamped]
  split_ifs <;> rfl

/-- Requests and ticks, as long as the clock does not come to its end. -/
def Unwrapped (s : Session) : Op → Prop
  | .addRequest _ _ => True
  | .tick => s.dc.currentCycle.toNat + 1 < 2 ^ 64
  | .setCycle _ => False

instance unwrappedDecidable (s : Session) : ∀ op, Decidable (Unwrapped s op)
  | .addRequest _ _ => isTrue trivial
  | .tick => inferInstanceAs (Decidable (s.dc.currentCycle.toNat + 1 < 2 ^ 64))
  | .setCycle _ => isFalse id

theorem toNat_succ {cycle : UInt64} (room : cycle.toNat + 1 < 2 ^ 64) : (cycle + 1).toNat = cycle.toNat + 1 := by
  rw [UInt64.toNat_add]
  exact Nat.mod_eq_of_lt room

/-- Nothing but ticks moves the clock, and that forward; the configuration stays. -/
theorem clock_step {s s' : Session} {op : Op} (allowed : Unwrapped s op) (stepped : s.step op = some s') :
    s'.dc.config = s.dc.config ∧ s.dc.currentCycle.toNat ≤ s'.dc.currentCycle.toNat := by
  cases op with
  | addRequest pkt content =>
    simp only [Session.step,Option.ite_none_right_eq_some,Option.some.injEq] at stepped
    obtain ⟨_,rfl⟩ := stepped
    rw [addRequest_rest]
    exact ⟨rfl,le_refl _⟩
  | tick =>
    obtain ⟨dc,ticked,rfl⟩ := Option.map_eq_some_iff.mp stepped
    have board := sameBoard_tick ticked
    refine ⟨board.config,?_⟩
    rw [board.currentCycle]
    exact (Nat.le_succ _).trans (toNat_succ allowed).ge
  | setCycle cycle => cases allowed

/-- Before the clock's end there is room for the given time. -/
def Roomy (time : DRAMConfig → Nat) (dc : DRAMChannel) : Prop := dc.currentCycle.toNat + time dc.config < 2 ^ 64

theorem Roomy.before {time : DRAMConfig → Nat} {s s' : Session} {op : Op} (allowed : Unwrapped s op)
    (stepped : s.step op = some s') (room : Roomy time s'.dc) : Roomy time s.dc := by
  obtain ⟨config,clock⟩ := clock_step allowed stepped
  unfold Roomy at *
  rw [config] at room
  omega

/-- A request leaves the clock and the banks alone; a tick moves the clock by one. -/
theorem step_while_roomy {P : DRAMChannel → Prop} {time : DRAMConfig → Nat}
    (added : ∀ {dc : DRAMChannel} (rq wq : List PacketRef) (packets : PacketRef → DRAMPacket), P dc → P { dc with rq, wq, packets })
    (ticked : ∀ {dc dc' : DRAMChannel} {accepted : List PacketRef}, P dc → Consistent dc accepted →
      dc.currentCycle.toNat + 1 + time dc.config < 2 ^ 64 → dc.tick = some dc' → P dc')
    {s s' : Session} {op : Op} (holds : P s.dc) (consistent : Consistent s.dc s.accepted) (allowed : Unwrapped s op)
    (stepped : s.step op = some s') (room : Roomy time s'.dc) : P s'.dc := by
  cases op with
  | addRequest other content =>
    simp only [Session.step,Option.ite_none_right_eq_some,Option.some.injEq] at stepped
    obtain ⟨_,rfl⟩ := stepped
    rw [addRequest_rest]
    exact added _ _ _ holds
  | tick =>
    obtain ⟨dc,moved,rfl⟩ := Option.map_eq_some_iff.mp stepped
    have board := sameBoard_tick moved
    unfold Roomy at room
    dsimp only at room
    rw [board.config,board.currentCycle,toNat_succ allowed] at room
    exact ticked holds consistent room moved
  | setCycle cycle => cases allowed

theorem consistent_run {s s' : Session} (reached : Reaches Session.step Unwrapped s s') (consistent : Consistent s.dc s.accepted) :
    Consistent s'.dc s'.accepted :=
  reached.invariant (P := fun s => Consistent s.dc s.accepted) consistent (fun _ consistent _ stepped => consistent.step stepped)

theorem config_run {s s' : Session} (reached : Reaches Session.step Unwrapped s s') : s'.dc.config = s.dc.config :=
  reached.invariant (P := fun s' => s'.dc.config = s.dc.config) rfl
    (fun _ config allowed stepped => (clock_step allowed stepped).1.trans config)

/-- What requests and ticks keep while there is room holds at the end of a run with room. -/
theorem keeps_while_roomy {P : DRAMChannel → Prop} {time : DRAMConfig → Nat}
    (added : ∀ {dc : DRAMChannel} (rq wq : List PacketRef) (packets : PacketRef → DRAMPacket), P dc → P { dc with rq, wq, packets })
    (ticked : ∀ {dc dc' : DRAMChannel} {accepted : List PacketRef}, P dc → Consistent dc accepted →
      dc.currentCycle.toNat + 1 + time dc.config < 2 ^ 64 → dc.tick = some dc' → P dc')
    {s s' : Session} (reached : Reaches Session.step Unwrapped s s') (consistent : Consistent s.dc s.accepted) (holds : P s.dc) :
    Roomy time s'.dc → P s'.dc := by
  induction reached with
  | refl => exact fun _ => holds
  | step before op allowed stepped ih =>
    intro room
    exact step_while_roomy added ticked (ih (room.before allowed stepped)) (consistent_run before consistent) allowed stepped room

theorem newDRAMChannel_spec {config : DRAMConfig} {packets : PacketRef → DRAMPacket} {dc : DRAMChannel}
    (created : newDRAMChannel config packets = .ok dc) : ∃ mapping, AddressMapping.newAddressMapping config = .ok mapping ∧ dc = {
      config, mapping, rq := [], wq := [], bankRequest := List.replicate mapping.totalBanks.toNat idleBank,
      activeRequest := none, currentCycle := 0, writeMode := false, dbusAvailable := 0, packets, calls := [] } := by
  unfold newDRAMChannel at created
  split at created
  · cases created
  · next mapping made => exact ⟨mapping,made,(Except.ok.inj created).symm⟩

end FlowSim.Dram
