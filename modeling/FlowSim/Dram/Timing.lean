import FlowSim.Dram.Steps
import FlowSim.Lib.Transition

/-!
When callbacks are called. A bank is not ready before the time of its packet and its row,
and the data bus takes another burst from when it gets the bank; the ready time of the bank
stands for both, one after the other. A request that is cancelled starts again later.
-/
namespace FlowSim.Dram
open FlowSim.Lib DRAMChannel
set_option linter.unusedSimpArgs false

/-- The packet has come no earlier than the given cycle, and banks and callbacks are as late. -/
structure Dated (since : Nat) (pkt : PacketRef) (dc : DRAMChannel) : Prop where
  passed : since ≤ dc.currentCycle.toNat
  bank : ∀ {i : Nat} {bank : BankRequest}, dc.bankRequest[i]? = some bank → bank.valid = true → bank.pkt = some pkt →
    since + dc.config.tCAS.toNat ≤ bank.readyTime.toNat ∧
      (dc.activeRequest = some i → since + dc.config.tCAS.toNat + 8 ≤ bank.readyTime.toNat)
  calls : ∀ call ∈ dc.calls, call.pkt = pkt → since + dc.config.tCAS.toNat + 8 ≤ call.cycle.toNat

/-- Calls are a burst apart, and the request on the data bus takes a burst more. -/
structure Spaced (dc : DRAMChannel) : Prop where
  passed : ∀ call ∈ dc.calls, call.cycle.toNat ≤ dc.currentCycle.toNat
  active : ∀ {i : Nat} {bank : BankRequest}, dc.activeRequest = some i → dc.bankRequest[i]? = some bank →
    ∀ call ∈ dc.calls, call.cycle.toNat + 8 ≤ bank.readyTime.toNat
  apart : dc.calls.Pairwise fun earlier later => earlier.cycle.toNat + 8 ≤ later.cycle.toNat

/-- A call that is new is for the packet on the data bus, now. -/
theorem mem_callback {dc : DRAMChannel} {pkt : PacketRef} {call : Call} (member : call ∈ (dc.callback pkt).calls) :
    call ∈ dc.calls ∨ call.pkt = pkt ∧ call.cycle = dc.currentCycle := by
  unfold callback at member
  split at member
  · rcases List.mem_append.mp member with before | new
    · exact .inl before
    · obtain rfl := List.mem_singleton.mp new
      exact .inr ⟨rfl,rfl⟩
  · exact .inl member

/-! ### The steps of a tick -/

section
variable {dc : DRAMChannel} {since : Nat} {pkt : PacketRef}

theorem Dated.later (dated : Dated since pkt dc) {cycle : UInt64} (later : dc.currentCycle.toNat ≤ cycle.toNat) :
    Dated since pkt { dc with currentCycle := cycle } :=
  ⟨dated.passed.trans later,dated.bank,dated.calls⟩

theorem Spaced.later (spaced : Spaced dc) {cycle : UInt64} (later : dc.currentCycle.toNat ≤ cycle.toNat) :
    Spaced { dc with currentCycle := cycle } :=
  ⟨fun call member => (spaced.passed call member).trans later,spaced.active,spaced.apart⟩

theorem Dated.finishDBusRequest {accepted : List PacketRef} {dc' : DRAMChannel} (dated : Dated since pkt dc)
    (consistent : Consistent dc accepted) (finished : dc.finishDBusRequest = some dc') : Dated since pkt dc' := by
  rcases finishDBusRequest_cases finished with ⟨rfl,_⟩ | ⟨i,bank,own,active,found,due,has,rfl⟩
  · exact dated
  obtain ⟨inside,_⟩ := List.getElem?_eq_some_iff.mp found
  rw [finish_rest]
  refine ⟨dated.passed,?_,?_⟩
  · intro j bank' found' valid has'
    refine ⟨?_,fun none => by cases none⟩
    by_cases here : i = j
    · subst here
      rw [List.getElem?_set_self inside] at found'
      cases found'
      cases valid
    · rw [List.getElem?_set_ne here] at found'
      exact (dated.bank found' valid has').1
  · intro call member same
    rcases mem_callback member with before | ⟨rfl,now⟩
    · exact dated.calls call before same
    · have valid : bank.valid = true := by
        rw [consistent.valid bank (List.mem_of_getElem? found),has]
        rfl
      rw [now]
      exact ((dated.bank found valid (same ▸ has)).2 active).trans (UInt64.le_iff_toNat_le.mp due)

theorem Spaced.finishDBusRequest {dc' : DRAMChannel} (spaced : Spaced dc) (finished : dc.finishDBusRequest = some dc') :
    Spaced dc' := by
  rcases finishDBusRequest_cases finished with ⟨rfl,_⟩ | ⟨i,bank,own,active,found,due,has,rfl⟩
  · exact spaced
  rw [finish_rest]
  refine ⟨?_,?_,?_⟩
  · intro call member
    rcases mem_callback member with before | ⟨_,now⟩
    · exact spaced.passed call before
    · rw [now]
  · rintro j bank' ⟨⟩
  · unfold callback
    dsimp only
    split
    · refine List.pairwise_append.mpr ⟨spaced.apart,List.pairwise_singleton _ _,?_⟩
      intro call member last is_last
      rw [List.mem_singleton.mp is_last]
      exact (spaced.active active found call member).trans (UInt64.le_iff_toNat_le.mp due)
    · exact spaced.apart

theorem Dated.swapWriteMode (dated : Dated since pkt dc) : Dated since pkt dc.swapWriteMode := by
  rcases swapWriteMode_cases dc with ⟨_,same⟩ | ⟨_,switched⟩
  · rw [same]
    exact dated
  generalize dc.swapWriteMode = dc' at *
  obtain ⟨config,_,cycle,active,calls⟩ := switched.same
  refine ⟨?_,?_,?_⟩
  · rw [cycle]
    exact dated.passed
  · intro i bank' found valid has
    obtain ⟨bank,found',_,rfl | invalid⟩ := switched.bank found
    · rw [config,active]
      exact dated.bank found' valid has
    · rw [invalid] at valid
      cases valid
  · rw [config,calls]
    exact dated.calls

theorem Spaced.swapWriteMode (spaced : Spaced dc) : Spaced dc.swapWriteMode := by
  rcases swapWriteMode_cases dc with ⟨_,same⟩ | ⟨_,switched⟩
  · rw [same]
    exact spaced
  generalize dc.swapWriteMode = dc' at *
  obtain ⟨_,_,cycle,active,calls⟩ := switched.same
  refine ⟨?_,?_,?_⟩
  · rw [cycle,calls]
    exact spaced.passed
  · intro i bank here found
    rw [active] at here
    rw [switched.kept here] at found
    rw [calls]
    exact spaced.active here found
  · rw [calls]
    exact spaced.apart

theorem Dated.populateDBus (dated : Dated since pkt dc) (room : dc.currentCycle.toNat + 8 < 2 ^ 64) :
    Dated since pkt dc.populateDBus := by
  rcases populateDBus_cases dc with ⟨same,_⟩ | ⟨i,bank,idle,_,found,valid,ready,populated⟩
  · rw [same]
    exact dated
  obtain ⟨inside,_⟩ := List.getElem?_eq_some_iff.mp found
  rw [populated]
  refine ⟨dated.passed,?_,dated.calls⟩
  intro j bank' found' valid' has
  by_cases here : i = j
  · subst here
    rw [List.getElem?_set_self inside] at found'
    cases found'
    dsimp only
    rw [burst_toNat room]
    have before := (dated.bank found valid has).1
    have now := UInt64.le_iff_toNat_le.mp ready
    constructor
    · omega
    · intro _
      omega
  · rw [List.getElem?_set_ne here] at found'
    exact ⟨(dated.bank found' valid' has).1,fun same => absurd (Option.some.inj same) here⟩

theorem Spaced.populateDBus (spaced : Spaced dc) (room : dc.currentCycle.toNat + 8 < 2 ^ 64) : Spaced dc.populateDBus := by
  rcases populateDBus_cases dc with ⟨same,_⟩ | ⟨i,bank,_,_,found,_,_,populated⟩
  · rw [same]
    exact spaced
  obtain ⟨inside,_⟩ := List.getElem?_eq_some_iff.mp found
  rw [populated]
  refine ⟨spaced.passed,?_,spaced.apart⟩
  intro j bank' same found' call member
  cases same
  rw [List.getElem?_set_self inside] at found'
  cases found'
  dsimp only
  rw [burst_toNat room]
  have passed := spaced.passed call member
  omega

theorem Dated.servicePacket {accepted : List PacketRef} {chosen : Option PacketRef} {success : Bool} {dc' : DRAMChannel}
    (dated : Dated since pkt dc) (consistent : Consistent dc accepted)
    (room : dc.currentCycle.toNat + dc.config.bankTime < 2 ^ 64) (served : dc.servicePacket chosen = some (success,dc')) :
    Dated since pkt dc' := by
  rcases servicePacket_cases served with same | ⟨own,bank,_,found,idle,_,_,same⟩
  · cases same
    exact dated
  cases same
  obtain ⟨inside,_⟩ := List.getElem?_eq_some_iff.mp found
  refine ⟨dated.passed,?_,dated.calls⟩
  intro j bank' found' valid has
  by_cases here : dc.bankIndex own = j
  · subst here
    rw [setPacket,setBank,List.getElem?_set_self inside] at found'
    cases found'
    refine ⟨?_,fun active => absurd active (consistent.not_active found idle)⟩
    have passed := dated.passed
    exact (Nat.add_le_add_right passed _).trans (serve_toNat room bank own).1
  · rw [setPacket,setBank,List.getElem?_set_ne here] at found'
    exact dated.bank found' valid has

theorem Spaced.servicePacket {accepted : List PacketRef} {chosen : Option PacketRef} {success : Bool} {dc' : DRAMChannel}
    (spaced : Spaced dc) (consistent : Consistent dc accepted) (served : dc.servicePacket chosen = some (success,dc')) :
    Spaced dc' := by
  rcases servicePacket_cases served with same | ⟨own,bank,_,found,idle,_,_,same⟩
  · cases same
    exact spaced
  cases same
  refine ⟨spaced.passed,?_,spaced.apart⟩
  intro j bank' active found'
  have elsewhere : dc.bankIndex own ≠ j := by
    rintro rfl
    exact consistent.not_active found idle active
  rw [setPacket,setBank,List.getElem?_set_ne elsewhere] at found'
  exact spaced.active active found'

end

/-! ### Runs -/

theorem Dated.tick {dc dc' : DRAMChannel} {since : Nat} {pkt : PacketRef} {accepted : List PacketRef} (dated : Dated since pkt dc)
    (consistent : Consistent dc accepted) (room : dc.currentCycle.toNat + 1 + (dc.config.bankTime + 8) < 2 ^ 64)
    (ticked : dc.tick = some dc') : Dated since pkt dc' := by
  obtain ⟨finished,chosen,success,finishes,_,serves⟩ := tick_cases ticked
  have clock : (dc.currentCycle + 1).toNat = dc.currentCycle.toNat + 1 := toNat_succ (by omega)
  have later := consistent.modes (dc.currentCycle + 1) dc.writeMode dc.dbusAvailable
  have swapped := (later.finishDBusRequest finishes).swapWriteMode
  have board := (sameBoard_finishDBusRequest finishes).trans (sameBoard_swapWriteMode finished)
  have board' := board.trans (sameBoard_populateDBus _)
  have first := ((dated.later (by omega)).finishDBusRequest later finishes).swapWriteMode
  refine (first.populateDBus ?_).servicePacket swapped.populateDBus ?_ serves
  · rw [board.currentCycle]
    dsimp only
    omega
  · rw [board'.currentCycle,board'.config]
    dsimp only
    omega

theorem Spaced.tick {dc dc' : DRAMChannel} {accepted : List PacketRef} (spaced : Spaced dc) (consistent : Consistent dc accepted)
    (room : dc.currentCycle.toNat + 1 + (dc.config.bankTime + 8) < 2 ^ 64) (ticked : dc.tick = some dc') : Spaced dc' := by
  obtain ⟨finished,chosen,success,finishes,_,serves⟩ := tick_cases ticked
  have clock : (dc.currentCycle + 1).toNat = dc.currentCycle.toNat + 1 := toNat_succ (by omega)
  have later := consistent.modes (dc.currentCycle + 1) dc.writeMode dc.dbusAvailable
  have swapped := (later.finishDBusRequest finishes).swapWriteMode
  have board := (sameBoard_finishDBusRequest finishes).trans (sameBoard_swapWriteMode finished)
  have first := ((spaced.later (by omega)).finishDBusRequest finishes).swapWriteMode
  refine (first.populateDBus ?_).servicePacket swapped.populateDBus serves
  rw [board.currentCycle]
  dsimp only
  omega

theorem spaced_new {config : DRAMConfig} {packets : PacketRef → DRAMPacket} {dc : DRAMChannel}
    (created : newDRAMChannel config packets = .ok dc) : Spaced dc := by
  obtain ⟨_,_,rfl⟩ := newDRAMChannel_spec created
  exact ⟨fun _ member => absurd member List.not_mem_nil,by rintro i bank ⟨⟩,List.Pairwise.nil⟩

theorem dated_later {since : Nat} {pkt : PacketRef} {s s' : Session} (reached : Reaches Session.step Unwrapped s s')
    (consistent : Consistent s.dc s.accepted) (dated : Dated since pkt s.dc)
    (room : Roomy (fun config => config.bankTime + 8) s'.dc) : Dated since pkt s'.dc :=
  keeps_while_roomy (fun _ _ _ dated => ⟨dated.passed,dated.bank,dated.calls⟩) Dated.tick reached consistent dated room

theorem spaced_later {s s' : Session} (reached : Reaches Session.step Unwrapped s s') (consistent : Consistent s.dc s.accepted)
    (spaced : Spaced s.dc) (room : Roomy (fun config => config.bankTime + 8) s'.dc) : Spaced s'.dc :=
  keeps_while_roomy (fun _ _ _ spaced => ⟨spaced.passed,spaced.active,spaced.apart⟩) Spaced.tick reached consistent spaced room

/-- A packet that is not accepted is in no bank and was not called back. -/
theorem Consistent.dated {dc : DRAMChannel} {accepted : List PacketRef} (consistent : Consistent dc accepted) {pkt : PacketRef}
    (new : pkt ∉ accepted) : Dated dc.currentCycle.toNat pkt dc := by
  refine ⟨le_refl _,?_,?_⟩
  · intro i bank found valid has
    obtain ⟨queued,_⟩ := consistent.held ⟨bank,found,valid,has⟩
    exact absurd (consistent.kept pkt queued).1 new
  · intro call member same
    have never := consistent.calls (.inr new)
    have listed : pkt ∈ dc.calls.map Call.pkt := List.mem_map.mpr ⟨call,member,same⟩
    exact absurd (List.count_pos_iff.mpr listed) (by unfold called at never; omega)

/-- Of a packet that is not accepted up to a state, the callback is called no earlier than
    after the access to a column and a burst; and calls are a burst apart. This is so while
    the clock has room for the longest access to a bank and a burst. -/
theorem latency_bound {config : DRAMConfig} {packets : PacketRef → DRAMPacket} {dc : DRAMChannel}
    (created : newDRAMChannel config packets = .ok dc) {s₁ s₂ : Session} (before : Reaches Session.step Unwrapped ⟨dc,[]⟩ s₁)
    {pkt : PacketRef} (new : pkt ∉ s₁.accepted) (after : Reaches Session.step Unwrapped s₁ s₂)
    (room : s₂.dc.currentCycle.toNat + config.tRP.toNat + config.tRCD.toNat + config.tCAS.toNat + 8 < 2 ^ 64) :
    (∀ call ∈ s₂.dc.calls, call.pkt = pkt → s₁.dc.currentCycle.toNat + config.tCAS.toNat + 8 ≤ call.cycle.toNat) ∧
      s₂.dc.calls.Pairwise fun earlier later => earlier.cycle.toNat + 8 ≤ later.cycle.toNat := by
  obtain ⟨mapping,_,rfl⟩ := newDRAMChannel_spec created
  have configured := config_run (before.trans after)
  have consistent := consistent_run before (consistent_new created)
  have roomy : Roomy (fun config => config.bankTime + 8) s₂.dc := by
    unfold Roomy DRAMConfig.bankTime
    rw [configured]
    dsimp only
    omega
  have calls := (dated_later after consistent (consistent.dated new) roomy).calls
  rw [configured] at calls
  exact ⟨calls,(spaced_later (before.trans after) (consistent_new created) (spaced_new created) roomy).apart⟩

def afterFirst : Session :=
  (runActions Session.step Unwrapped [.addRequest 0 (readAt 0),.tick,.tick] ⟨newChannel,[]⟩).get (by decide +kernel)

/-- The read of another bank, and the ticks until both are done. -/
def secondRead : List Op := .addRequest 1 (readAt 64) :: List.replicate 45 .tick

def afterSecond : Session := (runActions Session.step Unwrapped secondRead afterFirst).get (by decide +kernel)

/-- The second read is called back a burst after the first. -/
theorem latency_bound_two_reads :
    (afterFirst.dc.currentCycle = 2 ∧ afterSecond.dc.calls.map (fun call => (call.pkt,call.cycle)) = [(0,39),(1,47)]) ∧
    (∀ call ∈ afterSecond.dc.calls, call.pkt = 1 →
      afterFirst.dc.currentCycle.toNat + defaultDRAMConfig.tCAS.toNat + 8 ≤ call.cycle.toNat) ∧
      afterSecond.dc.calls.Pairwise fun earlier later => earlier.cycle.toNat + 8 ≤ later.cycle.toNat :=
  ⟨by decide +kernel,@latency_bound defaultDRAMConfig (fun _ => readAt 0) newChannel rfl afterFirst afterSecond
    (reaches_runActions _ (Option.some_get _).symm) 1 (by decide +kernel) (reaches_runActions secondRead (Option.some_get _).symm)
    (by decide +kernel)⟩

/-- A row and a column that take all of the clock's range together are no time at all. -/
def wrappingConfig : DRAMConfig := { defaultDRAMConfig with tRCD := 1, tCAS := 18446744073709551615 }

/-- A read, and ticks. -/
def readAndTicks (ticks : Nat) : List Op := .addRequest 0 (readAt 0) :: List.replicate ticks .tick

theorem called_too_early : ¬ ∀ (config : DRAMConfig) (packets : PacketRef → DRAMPacket) (dc : DRAMChannel)
    (s₁ s₂ : Session) (pkt : PacketRef), newDRAMChannel config packets = .ok dc →
    Reaches Session.step Unwrapped ⟨dc,[]⟩ s₁ → pkt ∉ s₁.accepted → Reaches Session.step Unwrapped s₁ s₂ →
    ∀ call ∈ s₂.dc.calls, call.pkt = pkt → s₁.dc.currentCycle.toNat + config.tCAS.toNat + 8 ≤ call.cycle.toNat := by
  intro bound
  have ends : (newDRAMChannel wrappingConfig fun _ => readAt 0).toOption.bind (fun dc =>
      (runActions Session.step Unwrapped (readAndTicks 10) ⟨dc,[]⟩).map fun s => (dc.currentCycle,s.dc.calls)) =
      some (0,[⟨0,0,0,10⟩]) := by decide +kernel
  obtain ⟨dc,created,ran⟩ := Option.bind_eq_some_iff.mp ends
  obtain ⟨s,ran,all⟩ := Option.map_eq_some_iff.mp ran
  obtain ⟨started,calls⟩ := Prod.mk.inj all
  have late := bound wrappingConfig (fun _ => readAt 0) dc ⟨dc,[]⟩ s 0 ?_ .refl List.not_mem_nil
    (reaches_runActions (readAndTicks 10) ran) ⟨0,0,0,10⟩ (by rw [calls]; exact List.mem_singleton_self _) rfl
  · dsimp only at late
    rw [started] at late
    exact absurd late (by decide)
  · cases made : newDRAMChannel wrappingConfig fun _ => readAt 0 with
    | error => rw [made] at created; cases created
    | ok dc' => rw [made] at created; cases created; rfl

end FlowSim.Dram
