import FlowSim.Dram.Conservation

/-!
What the packets of a channel ask for, and what the callbacks are called with. A tick
changes only the schedule of a packet, and calls back for a packet of the queues.
-/
namespace FlowSim.Dram
set_option linter.unusedSimpArgs false

/-- What a packet asks for: its address and data, whether it writes, and whether it
    has a callback. -/
def DRAMPacket.asks (pkt : DRAMPacket) : UInt64 × UInt64 × Bool × Bool := (pkt.address,pkt.data,pkt.isWrite,pkt.callback)

/-- Nobody is called, and every packet asks for what it did before. -/
structure Quiet (dc dc' : DRAMChannel) : Prop where
  asks : ∀ pkt, (dc'.packets pkt).asks = (dc.packets pkt).asks
  calls : dc'.calls = dc.calls

theorem Quiet.refl (dc : DRAMChannel) : Quiet dc dc := ⟨fun _ => rfl,rfl⟩

theorem Quiet.trans {dc dc' dc'' : DRAMChannel} (first : Quiet dc dc') (second : Quiet dc' dc'') : Quiet dc dc'' :=
  ⟨fun pkt => (second.asks pkt).trans (first.asks pkt),second.calls.trans first.calls⟩

theorem packets_setPacket_self (dc : DRAMChannel) (pkt : PacketRef) (content : DRAMPacket) :
    (dc.setPacket pkt content).packets pkt = content := Function.update_self ..

theorem packets_setPacket_of_ne (dc : DRAMChannel) {pkt other : PacketRef} (different : other ≠ pkt) (content : DRAMPacket) :
    (dc.setPacket pkt content).packets other = dc.packets other := Function.update_of_ne different ..

/-- A packet that asks for the same takes its place. -/
theorem Quiet.setPacket (dc : DRAMChannel) {pkt : PacketRef} {content : DRAMPacket}
    (same : content.asks = (dc.packets pkt).asks) : Quiet dc (dc.setPacket pkt content) := by
  refine ⟨?_,rfl⟩
  intro other
  by_cases here : other = pkt
  · subst here
    rw [packets_setPacket_self]
    exact same
  · rw [packets_setPacket_of_ne dc here]

theorem Quiet.resetBank (dc : DRAMChannel) (i : Nat) : Quiet dc (dc.resetBank i) := by
  unfold DRAMChannel.resetBank
  split
  · exact .refl dc
  · next bank found =>
    split
    · cases bank.pkt with
      | none => exact ⟨fun _ => rfl,rfl⟩
      | some pkt =>
        have unscheduled : Quiet dc (dc.unschedule pkt) := .setPacket dc rfl
        exact ⟨unscheduled.asks,unscheduled.calls⟩
    · exact .refl dc

theorem Quiet.resetBanks : ∀ (banks : List Nat) (dc : DRAMChannel), Quiet dc (banks.foldl DRAMChannel.resetBank dc)
  | [], dc => .refl dc
  | i :: banks, dc => (Quiet.resetBank dc i).trans (resetBanks banks _)

theorem Quiet.swapWriteMode (dc : DRAMChannel) : Quiet dc dc.swapWriteMode := by
  unfold DRAMChannel.swapWriteMode
  split
  · have reset := Quiet.resetBanks (List.range dc.bankRequest.length) { dc with writeMode := !dc.writeMode }
    exact ⟨reset.asks,reset.calls⟩
  · exact .refl dc

theorem Quiet.populateDBus (dc : DRAMChannel) : Quiet dc dc.populateDBus := by
  unfold DRAMChannel.populateDBus
  split_ifs
  · exact .refl dc
  · exact .refl dc
  split
  · exact .refl dc
  split
  · exact .refl dc
  · exact ⟨fun _ => rfl,rfl⟩

theorem Quiet.servicePacket {dc : DRAMChannel} {chosen : Option PacketRef} {result : Bool × DRAMChannel}
    (served : dc.servicePacket chosen = some result) : Quiet dc result.2 := by
  unfold DRAMChannel.servicePacket at served
  split at served
  · cases served
    exact .refl dc
  next pkt =>
  split at served
  · cases served
    exact .refl dc
  obtain ⟨bank,found,rfl⟩ := Option.map_eq_some_iff.mp served
  split
  · exact .refl dc
  · have scheduled : Quiet (dc.setBank (dc.bankIndex pkt) (dc.serve bank pkt)) _ :=
      @Quiet.setPacket _ pkt { dc.packets pkt with scheduled := true } rfl
    exact ⟨scheduled.asks,scheduled.calls⟩

theorem Quiet.setReadyTime (dc : DRAMChannel) (pkt : PacketRef) : Quiet dc (dc.setReadyTime pkt) := by
  obtain ⟨readyTime,stamped⟩ := setReadyTime_eq dc pkt
  rw [stamped]
  exact .setPacket dc rfl

theorem Quiet.addRequest (dc : DRAMChannel) (pkt : PacketRef) : Quiet dc (dc.addRequest pkt).2 := by
  have stamped := Quiet.setReadyTime dc pkt
  unfold DRAMChannel.addRequest
  split_ifs
  · exact .refl dc
  · exact ⟨stamped.asks,stamped.calls⟩
  · exact .refl dc
  · exact ⟨stamped.asks,stamped.calls⟩

/-- A call for a packet of the channel gives what the packet asks for. -/
def DRAMChannel.Answered (dc : DRAMChannel) (call : Call) : Prop :=
  (dc.packets call.pkt).callback = true ∧ call.addr = (dc.packets call.pkt).address ∧ call.data = (dc.packets call.pkt).data

theorem finishDBusRequest_calls {dc dc' : DRAMChannel} {accepted : List PacketRef} (consistent : Consistent dc accepted)
    (finished : dc.finishDBusRequest = some dc') : dc'.packets = dc.packets ∧
      ∃ new, dc'.calls = dc.calls ++ new ∧ ∀ call ∈ new, call.pkt ∈ dc.queued ∧ dc.Answered call := by
  unfold DRAMChannel.finishDBusRequest at finished
  split at finished
  · cases finished
    exact ⟨rfl,[],(List.append_nil _).symm,fun _ member => absurd member List.not_mem_nil⟩
  next i active =>
  obtain ⟨bank,found,finished⟩ := Option.bind_eq_some_iff.mp finished
  split at finished
  · cases finished
    exact ⟨rfl,[],(List.append_nil _).symm,fun _ member => absurd member List.not_mem_nil⟩
  obtain ⟨pkt,has,rfl⟩ := Option.map_eq_some_iff.mp finished
  refine ⟨packets_finish dc i bank pkt,?_⟩
  have valid := consistent.valid bank (List.mem_of_getElem? found)
  rw [has,Option.isSome_some] at valid
  have queued : pkt ∈ dc.queued := (consistent.held ⟨bank,found,valid,has⟩).1
  have calls : (finish dc i bank pkt).calls = (dc.callback pkt).calls := by
    unfold finish DRAMChannel.removeFromQueue
    split <;> rfl
  by_cases set : (dc.packets pkt).callback = true
  · refine ⟨[⟨pkt,(dc.packets pkt).address,(dc.packets pkt).data,dc.currentCycle⟩],?_,?_⟩
    · exact calls.trans (by rw [DRAMChannel.callback,if_pos set])
    · intro call member
      obtain rfl := List.mem_singleton.mp member
      exact ⟨queued,set,rfl,rfl⟩
  · refine ⟨[],?_,fun _ member => absurd member List.not_mem_nil⟩
    exact calls.trans (by rw [DRAMChannel.callback,if_neg set,List.append_nil])

/-- A tick calls back for packets of the queues, with what they ask for. -/
theorem tick_calls {dc dc' : DRAMChannel} {accepted : List PacketRef} (consistent : Consistent dc accepted)
    (ticked : dc.tick = some dc') : (∀ pkt, (dc'.packets pkt).asks = (dc.packets pkt).asks) ∧
      ∃ new, dc'.calls = dc.calls ++ new ∧ ∀ call ∈ new, call.pkt ∈ dc.queued ∧ dc.Answered call := by
  obtain ⟨dc₁,finished,ticked⟩ := Option.bind_eq_some_iff.mp ticked
  have later := consistent.modes (dc.currentCycle + 1) dc.writeMode dc.dbusAvailable
  obtain ⟨same,new,calls,answered⟩ := finishDBusRequest_calls later finished
  have populated := (Quiet.swapWriteMode dc₁).trans (Quiet.populateDBus _)
  obtain ⟨chosen,scheduled,ticked⟩ := Option.bind_eq_some_iff.mp ticked
  obtain ⟨result,served,rfl⟩ := Option.map_eq_some_iff.mp ticked
  have quiet := populated.trans (Quiet.servicePacket served)
  refine ⟨?_,new,quiet.calls.trans calls,answered⟩
  intro pkt
  rw [quiet.asks pkt,same]

end FlowSim.Dram
