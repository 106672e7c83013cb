import FlowSim.Queue.Credit
import FlowSim.Queue.FIFO

/-!
What is taken out of an input queue. A queue that goes through the cycles is watched: the
packets that the node picks or frees are written down. What has been received is then what
waits and what was taken (`keeps_watchedQueue`).
-/
namespace FlowSim.Queue
open FlowSim.Lib FlowSim.AheadPort
open scoped List
set_option linter.unusedSimpArgs false

namespace InputQueue

/-- The packets that a call takes out of the queue. -/
def takenBy (sortSlice : SliceSort) (iq : InputQueue) : QueueCall → List Packet
  | .pick => (iq.pick sortSlice).1
  | .peekPickTo _ => []
  | .free slot =>
    match iq.slots[slot]? with
    | some held => if held.free then [] else [held.stored.packet]
    | none => []
  | .block _ _ => []

/-- The calls of a cycle, with what they take out added to what was taken before. -/
def callAll (sortSlice : SliceSort) : List QueueCall → InputQueue → List Packet → InputQueue × List Packet
  | [], iq, out => (iq,out)
  | queueCall :: rest, iq, out => callAll sortSlice rest (iq.call sortSlice queueCall) (out ++ iq.takenBy sortSlice queueCall)

/-- A queue that goes through the cycles, together with what was taken out of it. -/
def watchedQueue (sortSlice : SliceSort) (calls : Nat → InputQueue → List QueueCall) :
    Nat → Nat → InputQueue → List Packet → Prog portInterface (Option String × InputQueue × List Packet)
  | 0, _, iq, out => return (none,iq,out)
  | cycles + 1, cycle, iq, out => do
    match ← iq.tick cycle with
    | (some error,iq) => return (some error,iq,out)
    | (none,iq) =>
      let called := callAll sortSlice (calls cycle iq) iq out
      watchedQueue sortSlice calls cycles (cycle + 1) called.1 called.2

/-! ### What the calls take -/

theorem packets_foldl_free : ∀ {slots : List Nat} {iq : InputQueue}, slots.Nodup → (∀ i ∈ slots, iq.Occupied i) →
    iq.packets.Perm (iq.packetsAt slots ++ (slots.foldl free iq).packets)
  | [], _, _, _ => .refl _
  | slot :: rest, iq, distinct, occupied => by
    obtain ⟨held,found,isUsed⟩ := occupied slot List.mem_cons_self
    obtain ⟨inside,rfl⟩ := List.getElem?_eq_some_iff.mp found
    obtain ⟨other,distinct⟩ := List.nodup_cons.mp distinct
    have same : ∀ i ∈ rest, (iq.free slot).slots[i]? = iq.slots[i]? := by
      intro i member
      have different : slot ≠ i := fun here => other (here ▸ member)
      obtain ⟨_,there,_⟩ := occupied i (List.mem_cons_of_mem _ member)
      obtain ⟨within,_⟩ := List.getElem?_eq_some_iff.mp there
      obtain ⟨within',kept⟩ := slots_free_ne iq different within
      rw [List.getElem?_eq_getElem within',List.getElem?_eq_getElem within,kept]
    have others : (iq.free slot).packetsAt rest = iq.packetsAt rest :=
      List.filterMap_congr fun i member => by rw [same i member]
    have first : iq.packetsAt (slot :: rest) = iq.slots[slot].stored.packet :: iq.packetsAt rest := by
      unfold packetsAt
      rw [List.filterMap_cons,found]
      rfl
    rw [first,← others,List.foldl_cons]
    refine (iq.packets_free inside isUsed).trans (.cons _ (packets_foldl_free distinct fun i member => ?_))
    obtain ⟨held',there,isUsed'⟩ := occupied i (List.mem_cons_of_mem _ member)
    exact ⟨held',by rw [same i member]; exact there,isUsed'⟩

theorem packets_block (iq : InputQueue) (slot reason : Nat) : (iq.block slot reason).packets = iq.packets := by
  unfold block
  split_ifs with inside
  · obtain ⟨before,after⟩ :=
      set_eq_append inside { iq.slots[slot] with blockReasons := iq.slots[slot].blockReasons ||| reason }
    unfold packets
    conv_rhs => rw [before]
    dsimp only
    rw [after,List.filterMap_append,List.filterMap_append,List.filterMap_cons,List.filterMap_cons]
  · rfl

/-- What waited before a call is what it takes and what waits after it. -/
theorem packets_call (sortSlice : SliceSort) (iq : InputQueue) (queueCall : QueueCall) :
    iq.packets.Perm (iq.takenBy sortSlice queueCall ++ (iq.call sortSlice queueCall).packets) := by
  cases queueCall with
  | pick =>
    have order := sortSlice.perm iq.cycleAt iq.unblocked
    have distinct := order.nodup_iff.mpr iq.nodup_unblocked
    exact packets_foldl_free distinct fun i member => occupied_of_unblocked (order.mem_iff.mp member)
  | peekPickTo maxOut => exact .refl _
  | free slot =>
    show iq.packets.Perm (iq.takenBy sortSlice (.free slot) ++ (iq.free slot).packets)
    rcases found : iq.slots[slot]? with _ | held
    · have outside : ¬ slot < iq.slots.length := Nat.not_lt.mpr (List.getElem?_eq_none_iff.mp found)
      have kept : iq.free slot = iq := dif_neg outside
      have nothing : iq.takenBy sortSlice (.free slot) = [] := by simp only [takenBy,found]
      rw [kept,nothing]
      exact .refl _
    · obtain ⟨inside,rfl⟩ := List.getElem?_eq_some_iff.mp found
      by_cases isFree : iq.slots[slot].free = true
      · have kept : iq.free slot = iq := by
          unfold free
          rw [dif_pos inside,dif_neg (by rw [isFree]; decide)]
        have nothing : iq.takenBy sortSlice (.free slot) = [] := by simp only [takenBy,found,isFree,if_true]
        rw [kept,nothing]
        exact .refl _
      · have one : iq.takenBy sortSlice (.free slot) = [iq.slots[slot].stored.packet] := by
          simp only [takenBy,found,isFree,Bool.false_eq_true,if_false]
        rw [one]
        exact iq.packets_free inside (by simpa using isFree)
  | block slot reason =>
    show iq.packets.Perm (iq.block slot reason).packets
    rw [packets_block]

theorem callAll_spec (sortSlice : SliceSort) : ∀ (queueCalls : List QueueCall) (iq : InputQueue) (out : List Packet),
    (callAll sortSlice queueCalls iq out).1 = queueCalls.foldl (call sortSlice) iq ∧
      ((callAll sortSlice queueCalls iq out).1.packets ++ (callAll sortSlice queueCalls iq out).2).Perm (iq.packets ++ out)
  | [], _, _ => ⟨rfl,.refl _⟩
  | queueCall :: rest, iq, out => by
    obtain ⟨same,kept⟩ := callAll_spec sortSlice rest (iq.call sortSlice queueCall) (out ++ iq.takenBy sortSlice queueCall)
    refine ⟨same,kept.trans ?_⟩
    calc (iq.call sortSlice queueCall).packets ++ (out ++ iq.takenBy sortSlice queueCall)
      _ ~ out ++ iq.takenBy sortSlice queueCall ++ (iq.call sortSlice queueCall).packets := List.perm_append_comm
      _ = out ++ (iq.takenBy sortSlice queueCall ++ (iq.call sortSlice queueCall).packets) := List.append_assoc ..
      _ ~ out ++ iq.packets := (packets_call sortSlice iq queueCall).symm.append_left out
      _ ~ iq.packets ++ out := List.perm_append_comm

/-- Watching a queue changes nothing. -/
theorem servedQueue_of_watched (sortSlice : SliceSort) (calls : Nat → InputQueue → List QueueCall) :
    ∀ (cycles cycle : Nat) (iq : InputQueue) (out : List Packet),
      (do let result ← watchedQueue sortSlice calls cycles cycle iq out
          return (result.1,result.2.1)) = servedQueue sortSlice calls cycles cycle iq
  | 0, _, _, _ => rfl
  | cycles + 1, cycle, iq, out => by
    rw [watchedQueue,servedQueue,Prog.bind_assoc]
    congr 1
    funext result
    obtain ⟨error | error,iq'⟩ := result
    · dsimp only
      rw [← (callAll_spec sortSlice (calls cycle iq') iq' out).1]
      exact servedQueue_of_watched sortSlice calls cycles (cycle + 1) _ _
    · rfl

/-! ### What has been received -/

/-- Against a sender that keeps to the bandwidth no tick fails, and what has been received
    waits or was taken. -/
theorem keeps_watchedQueue (sortSlice : SliceSort) (calls : Nat → InputQueue → List QueueCall) {inBandwidth : Nat} :
    ∀ (cycles : Nat) {cycle : Nat} {iq : InputQueue} {out : List Packet} {r : EndRecord},
      Standing (some inBandwidth) iq cycle r → (iq.packets ++ out).Perm r.returned.flatten →
      Keeps (receiving (some inBandwidth)) (watchedQueue sortSlice calls cycles cycle iq out)
        (fun r result => result.1 = none ∧ r.returned.length = cycle + cycles ∧
          (result.2.1.packets ++ result.2.2).Perm r.returned.flatten) r
  | 0, _, _, _, _, standing, all => ⟨rfl,standing.read,all⟩
  | cycles + 1, cycle, iq, out, r, standing, all => by
    rw [watchedQueue]
    refine (keeps_tick standing).bind ?_
    rintro r' ⟨error | error,iq'⟩ ⟨pkts,ticked⟩
    · obtain ⟨same,kept⟩ := callAll_spec sortSlice (calls cycle iq') iq' out
      have roomier := roomier_foldl (roomier_call sortSlice) (calls cycle iq') iq'
      have stands : Standing (some inBandwidth) (callAll sortSlice (calls cycle iq') iq' out).1 (cycle + 1) r' :=
        same ▸ (ticked.standing rfl).roomier roomier
      have stored := (ticked.stored rfl).1
      rw [show cycle + (cycles + 1) = cycle + 1 + cycles by omega]
      refine keeps_watchedQueue sortSlice calls cycles stands (kept.trans ?_)
      calc iq'.packets ++ out
        _ ~ pkts ++ iq.packets ++ out := stored.append_right out
        _ = pkts ++ (iq.packets ++ out) := List.append_assoc ..
        _ ~ pkts ++ r.returned.flatten := all.append_left pkts
        _ ~ r.returned.flatten ++ pkts := List.perm_append_comm
        _ = r'.returned.flatten := by rw [ticked.returned,List.flatten_append,List.flatten_singleton]
    · have none_ : some error = none := ticked.fits (by simp)
      cases none_

end InputQueue
end FlowSim.Queue
