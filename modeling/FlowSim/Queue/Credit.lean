import FlowSim.AheadPort.Ends
import FlowSim.Queue.InputQueue

/-!
An input queue promises its sender room ahead of time. `Standing` is what holds
of the queue and of its record on the port between two ticks: the cycles it has
decided, which of them may be refused, and, for a sender that keeps to the
bandwidth, that every promised cycle still has its room. One tick keeps it
(`keeps_tick`), and so it holds over whole runs against any such sender
(`credit_invariant`).
-/
namespace FlowSim.Queue
open FlowSim.Lib FlowSim.AheadPort
set_option linter.unusedSimpArgs false

namespace InputQueue

def freeSlots (iq : InputQueue) : Nat := iq.capacity - iq.length

/-- Every cycle that the receiver promised, from `cycle` on, has room for a full
    burst besides the ones before it. -/
def Credit (iq : InputQueue) (cycle : Nat) (r : EndRecord) : Prop :=
  ∀ i, r.Promised i → (i + 1 - cycle) * iq.inBandwidth ≤ iq.freeSlots

/-- What holds before the tick of `cycle`. -/
structure Standing (limit : Option Nat) (iq : InputQueue) (cycle : Nat) (r : EndRecord) : Prop where
  read : r.returned.length = cycle
  decided : cycle + 1 ≤ r.decisions.length
  next : iq.nextUpdateCycle ≤ r.decisions.length
  promised : ∀ i, iq.nextUpdateCycle ≤ i → i < r.decisions.length → r.Promised i
  refused : ∀ f, r.decisions[f]? = some false → f ≤ cycle
  limited : ∀ n ∈ limit, n ≤ iq.inBandwidth
  credit : limit ≠ none → iq.Credit cycle r

/-- What holds within a tick of `cycle`, once the packets are stored. -/
structure Received (limit : Option Nat) (iq : InputQueue) (cycle : Nat) (r : EndRecord) : Prop where
  read : r.returned.length = cycle + 1
  decided : cycle + 1 ≤ r.decisions.length
  next : iq.nextUpdateCycle ≤ r.decisions.length
  promised : ∀ i, iq.nextUpdateCycle ≤ i → i < r.decisions.length → r.Promised i
  refused : ∀ f, r.decisions[f]? = some false → f ≤ cycle
  limited : ∀ n ∈ limit, n ≤ iq.inBandwidth
  credit : limit ≠ none → iq.Credit (cycle + 1) r

variable {limit : Option Nat} {iq : InputQueue} {cycle : Nat} {r : EndRecord}

/-- Frees and blocks between two ticks only give more room. -/
theorem Standing.roomier {iq' : InputQueue} (standing : Standing limit iq cycle r) (roomier : Roomier iq iq') :
    Standing limit iq' cycle r where
  read := standing.read
  decided := standing.decided
  next := roomier.nextUpdateCycle ▸ standing.next
  promised := roomier.nextUpdateCycle ▸ standing.promised
  refused := standing.refused
  limited := roomier.inBandwidth ▸ standing.limited
  credit := by
    intro limited i promised
    have room := standing.credit limited i promised
    have length := roomier.length
    simp only [freeSlots] at room ⊢
    rw [roomier.inBandwidth,roomier.capacity]
    omega

theorem Received.settled (received : Received limit iq cycle r) : r.Settled := by
  intro f refused
  have upTo := received.refused f refused
  rw [received.read]
  omega

/-- Promising the cycles from `first` on, some of which may be promised already,
    adds the missing ones. -/
theorem keeps_promises (limit : Option Nat) : ∀ (count first : Nat) {r : EndRecord}, r.Settled →
    first ≤ r.decisions.length → (∀ i, first ≤ i → i < r.decisions.length → r.Promised i) →
      Keeps (receiving limit) ((List.range' first count).forM (fun i => updateReady i true))
        (fun r' _ => r' = { r with decisions :=
          r.decisions ++ List.replicate (first + count - r.decisions.length) true }) r := by
  intro count
  induction count with
  | zero =>
    intro first r _ within _
    have none_left : first + 0 - r.decisions.length = 0 := by omega
    simp only [none_left,List.replicate_zero,List.append_nil]
    exact rfl
  | succ count ih =>
    intro first r settled within promised
    simp only [List.range'_succ,List.forM_eq_forM,List.forM_cons] at ih ⊢
    rcases Nat.lt_or_ge first r.decisions.length with old | new
    · have already := promised first (le_refl _) old
      refine ⟨⟨.inr already,fun _ _ => rfl⟩,fun _ _ => ?_⟩
      simp only [receiving_grow,EndRecord.grow,if_neg (Nat.ne_of_lt old)]
      refine (ih (first + 1) settled old (fun i late => promised i (by omega))).mono ?_
      rintro r' _ rfl
      rw [show first + 1 + count = first + (count + 1) by omega]
    · have here : first = r.decisions.length := by omega
      refine ⟨⟨.inl ⟨here,settled⟩,fun _ _ => rfl⟩,fun _ _ => ?_⟩
      simp only [receiving_grow,EndRecord.grow,if_pos here]
      refine (ih (first + 1) (r := { r with decisions := r.decisions ++ [true] }) ?_ ?_ ?_).mono ?_
      · intro f refused
        rcases Nat.lt_or_ge f r.decisions.length with inside | outside
        · rw [List.getElem?_append_left inside] at refused
          exact settled f refused
        · rw [List.getElem?_append_right outside,List.getElem?_singleton] at refused
          split at refused <;> cases refused
      · simp [here]
      · intro i late inside
        simp at inside
        omega
      · rintro r' _ rfl
        have more : first + (count + 1) - r.decisions.length = first + 1 + count - (r.decisions.length + 1) + 1 := by omega
        simp only [List.append_assoc,List.length_append,List.length_singleton,more,List.replicate_succ,
          List.singleton_append]

/-- What the queue tells its sender leaves it standing for the next cycle. -/
theorem keeps_updateUpstream (received : Received limit iq cycle r) :
    Keeps (receiving limit) (iq.updateUpstream cycle)
      (fun r' iq' => Standing limit iq' (cycle + 1) r' ∧ iq' = { iq with nextUpdateCycle := iq'.nextUpdateCycle } ∧
        r'.returned = r.returned) r := by
  have settled := received.settled
  have decided := received.decided
  unfold updateUpstream
  split
  · next nothing =>
    have small : iq.freeSlots < iq.inBandwidth := (Nat.div_eq_zero_iff_lt iq.inBandwidth_pos).mp nothing
    -- a promise of the next cycle would need a free burst
    have notPromised : limit ≠ none → ¬ r.Promised (cycle + 1) := by
      intro limited promised
      have room := received.credit limited (cycle + 1) promised
      rw [show cycle + 1 + 1 - (cycle + 1) = 1 by omega,Nat.one_mul] at room
      omega
    have may : ReceiverMay r (.updateReady (cycle + 1) false) := by
      rcases Nat.lt_or_ge (cycle + 1) r.decisions.length with old | new
      · right
        cases value : r.decisions[cycle + 1] with
        | true => exact List.getElem?_eq_some_iff.mpr ⟨old,value⟩
        | false =>
          have upTo := received.refused (cycle + 1) (List.getElem?_eq_some_iff.mpr ⟨old,value⟩)
          omega
      · exact .inl ⟨by omega,settled⟩
    refine ⟨⟨may,fun limited promised => absurd promised (notPromised limited)⟩,fun _ learns => ?_⟩
    have next : cycle + 1 = r.decisions.length := by
      rcases may with ⟨here,_⟩ | promised
      · exact here
      · exact absurd (learns promised) (by simp)
    simp only [receiving_grow,EndRecord.grow,if_pos next]
    have old : ∀ {i b}, (r.decisions ++ [false])[i]? = some b → i ≠ r.decisions.length → r.decisions[i]? = some b := by
      intro i b found other
      have inside := (List.getElem?_eq_some_iff.mp found).1
      simp only [List.length_append,List.length_singleton] at inside
      rwa [List.getElem?_append_left (by omega)] at found
    refine ⟨⟨received.read,?_,?_,?_,?_,received.limited,?_⟩,rfl,rfl⟩
    · simp only [List.length_append,List.length_singleton]; omega
    · simp only [List.length_append,List.length_singleton]; omega
    · intro i late inside
      simp only [List.length_append,List.length_singleton] at late inside
      omega
    · intro f refused
      by_cases here : f = r.decisions.length
      · omega
      · exact Nat.le_succ_of_le (received.refused f (old refused here))
    · intro limited i promised
      by_cases here : i = r.decisions.length
      · have value : (r.decisions ++ [false])[i]? = some true := promised
        rw [here,List.getElem?_concat_length] at value
        cases value
      · exact received.credit limited i (old promised here)
  · next remain more =>
    have some_left : 0 < iq.remainReadyCycle := Nat.pos_of_ne_zero more
    have whole : iq.remainReadyCycle * iq.inBandwidth ≤ iq.freeSlots := Nat.div_mul_le_self _ _
    refine (keeps_promises limit _ _ settled received.next received.promised).bind ?_
    rintro r' _ rfl
    have next := received.next
    have promisedTo : ∀ {i}, (r.decisions ++ List.replicate (iq.nextUpdateCycle +
        (cycle + iq.remainReadyCycle + 1 - iq.nextUpdateCycle) - r.decisions.length) true)[i]? = some true →
        r.Promised i ∨ i ≤ cycle + iq.remainReadyCycle := by
      intro i found
      rcases Nat.lt_or_ge i r.decisions.length with inside | outside
      · rw [List.getElem?_append_left inside] at found
        exact .inl found
      · have inside := (List.getElem?_eq_some_iff.mp found).1
        simp only [List.length_append,List.length_replicate] at inside
        right
        omega
    refine ⟨⟨received.read,?_,?_,?_,?_,received.limited,?_⟩,rfl,rfl⟩
    · simp only [List.length_append,List.length_replicate]; omega
    · simp only [List.length_append,List.length_replicate]; omega
    · intro i late inside
      simp only [List.length_append,List.length_replicate] at late inside
      show (_ ++ _)[i]? = some true
      rcases Nat.lt_or_ge i r.decisions.length with old | new
      · rw [List.getElem?_append_left old]
        exact received.promised i (by omega) old
      · rw [List.getElem?_append_right new,List.getElem?_replicate,if_pos (by omega)]
    · intro f refused
      rcases Nat.lt_or_ge f r.decisions.length with old | new
      · rw [List.getElem?_append_left old] at refused
        exact Nat.le_succ_of_le (received.refused f refused)
      · rw [List.getElem?_append_right new,List.getElem?_replicate] at refused
        split at refused <;> cases refused
    · intro limited i promised
      rcases promisedTo promised with old | near
      · exact received.credit limited i old
      · have factor : i + 1 - (cycle + 1) ≤ iq.remainReadyCycle := by omega
        exact le_trans (Nat.mul_le_mul_right _ factor) whole

/-- One tick: what was read is stored, unless the queue overflows; a sender that
    keeps to the limit never makes it overflow, and the queue is left standing. -/
structure Ticked (limit : Option Nat) (iq : InputQueue) (cycle : Nat) (r r' : EndRecord) (pkts : List Packet)
    (error : Option String) (iq' : InputQueue) : Prop where
  returned : r'.returned = r.returned ++ [pkts]
  settings : error = none → iq'.capacity = iq.capacity ∧ iq'.inBandwidth = iq.inBandwidth
  standing : error = none → Standing limit iq' (cycle + 1) r'
  stored : error = none → iq'.packets.Perm (pkts ++ iq.packets) ∧ iq'.lastCyclePackets = pkts
  fits : limit ≠ none → error = none

theorem keeps_tick (standing : Standing limit iq cycle r) :
    Keeps (receiving limit) (iq.tick cycle)
      (fun r' result => ∃ pkts, Ticked limit iq cycle r r' pkts result.1 result.2) r := by
  obtain ⟨rfl,decided,next,promised,refused,limited,credit⟩ := standing
  refine Keeps.bind (Q := fun r' pkts => r' = { r with waited := r.returned.length, returned := r.returned ++ [pkts] } ∧
    ReceiverLearns limit r (.retrieve r.returned.length) pkts) ?_ ?_
  · refine ⟨⟨trivial,fun _ => trivial⟩,fun _ _ => ⟨⟨rfl,fun _ => trivial⟩,fun _ _ => ?_⟩⟩
    exact ⟨⟨⟨rfl,le_refl _⟩,fun _ => trivial⟩,fun pkts learns => ⟨rfl,learns⟩⟩
  · rintro r' pkts ⟨rfl,learns⟩
    -- the burst of a promised cycle fits, and nothing arrives in a refused one
    have room : limit ≠ none → pkts.length ≤ iq.inBandwidth ∧ iq.length + pkts.length ≤ iq.capacity := by
      intro isLimited
      obtain ⟨n,isLimit⟩ := Option.ne_none_iff_exists'.mp isLimited
      obtain ⟨few,onlyPromised⟩ := learns n isLimit
      have small := limited n isLimit
      have within := iq.length_le
      refine ⟨le_trans few small,?_⟩
      rcases pkts with _ | ⟨pkt,rest⟩
      · simpa using within
      · have space := credit isLimited _ (onlyPromised (by simp))
        rw [show r.returned.length + 1 - r.returned.length = 1 by omega,Nat.one_mul,freeSlots] at space
        omega
    rcases all : storeAll r.returned.length pkts iq with ⟨error | error,iq'⟩
    · obtain ⟨iq'',all',packets,length,capacity,bandwidth,nextUpdate⟩ :=
        storeAll_fits r.returned.length pkts iq (fits_of_storeAll _ pkts all)
      obtain rfl : iq'' = iq' := by rw [all] at all'; cases all'; rfl
      simp only
      have received : Received limit { iq'' with lastCyclePackets := pkts } r.returned.length
          { r with waited := r.returned.length, returned := r.returned ++ [pkts] } := by
        refine ⟨by simp,decided,?_,?_,refused,?_,?_⟩
        · simpa [nextUpdate] using next
        · exact fun i late inside => promised i (nextUpdate ▸ late) inside
        · simpa [bandwidth] using limited
        · intro isLimited i isPromised
          have space := credit isLimited i isPromised
          obtain ⟨few,_⟩ := room isLimited
          show (i + 1 - (r.returned.length + 1)) * iq''.inBandwidth ≤ iq''.capacity - iq''.length
          simp only [freeSlots] at space
          rw [bandwidth,capacity,length]
          rcases Nat.lt_or_ge i r.returned.length with early | late
          · rw [show i + 1 - (r.returned.length + 1) = 0 by omega]
            omega
          · rw [show i + 1 - r.returned.length = (i - r.returned.length) + 1 by omega,Nat.add_mul] at space
            rw [show i + 1 - (r.returned.length + 1) = i - r.returned.length by omega]
            omega
      refine (keeps_updateUpstream received).bind ?_
      rintro r' iq₃ ⟨standing,same,returned⟩
      refine ⟨pkts,returned,fun _ => ?_,fun _ => standing,fun _ => ?_,fun _ => rfl⟩
      · rw [same]
        exact ⟨capacity,bandwidth⟩
      · rw [same]
        exact ⟨packets,rfl⟩
    · refine ⟨pkts,rfl,by simp,by simp,by simp,fun isLimited => ?_⟩
      · obtain ⟨_,fits⟩ := room isLimited
        obtain ⟨iq'',all',_⟩ := storeAll_fits r.returned.length pkts iq fits
        rw [all] at all'
        cases all'

/-! ### Whole runs -/

/-- A queue that goes through the cycles: it is ticked, and then the node does
    with it what it likes. It stops at the first error. -/
def servedQueue (sortSlice : SliceSort) (calls : Nat → InputQueue → List QueueCall) :
    Nat → Nat → InputQueue → Prog portInterface (Option String × InputQueue)
  | 0, _, iq => return (none,iq)
  | cycles + 1, cycle, iq => do
    match ← iq.tick cycle with
    | (some error,iq) => return (some error,iq)
    | (none,iq) => servedQueue sortSlice calls cycles (cycle + 1) ((calls cycle iq).foldl (call sortSlice) iq)

/-- What holds once the queue has gone through all cycles before `cycle`. -/
def Served (limit : Option Nat) (cycle : Nat) (r : EndRecord) (result : Option String × InputQueue) : Prop :=
  (result.1 = none → Standing limit result.2 cycle r) ∧ (limit ≠ none → result.1 = none)

theorem keeps_servedQueue (sortSlice : SliceSort) (calls : Nat → InputQueue → List QueueCall) :
    ∀ (cycles : Nat) {cycle : Nat} {iq : InputQueue} {r : EndRecord}, Standing limit iq cycle r →
      Keeps (receiving limit) (servedQueue sortSlice calls cycles cycle iq) (Served limit (cycle + cycles)) r
  | 0, _, _, _, standing => ⟨fun _ => standing,fun _ => rfl⟩
  | cycles + 1, cycle, iq, r, standing => by
    rw [servedQueue]
    refine (keeps_tick standing).bind ?_
    rintro r' ⟨error | error,iq'⟩ ⟨pkts,ticked⟩
    · have roomier := roomier_foldl (roomier_call sortSlice) (calls cycle iq') iq'
      rw [show cycle + (cycles + 1) = cycle + 1 + cycles by omega]
      exact keeps_servedQueue sortSlice calls cycles ((ticked.standing rfl).roomier roomier)
    · exact ⟨fun none_ => absurd none_ (by simp),fun isLimited => ticked.fits isLimited⟩

/-- The record of a queue that was connected while it had room. -/
def connectedRecord : EndRecord := { EndRecord.initial with decisions := [true,true] }

/-- Connecting a queue with room to a new port promises the cycles 0 and 1. -/
theorem setUpstreamPort_linked (limit : Option Nat) {iq : InputQueue} {sync : ComponentSync}
    (room : iq.length < iq.capacity) (connected : iq.setUpstreamPort Port.newPort.downstreamSync = some sync) :
    Linked limit (Port.exchange { Port.newPort with downstreamSync := sync }) .initial connectedRecord := by
  obtain ⟨sync₀,zero,one⟩ := Option.bind_eq_some_iff.mp connected
  rw [decide_eq_true room] at zero one
  have done₀ : Port.newPort.exec (.updateReady 0 true) = .done () { Port.newPort with downstreamSync := sync₀ } := by
    simp only [Port.exec,zero]
  have done₁ : Port.exec { Port.newPort with downstreamSync := sync₀ } (.updateReady 1 true) =
      .done () { Port.newPort with downstreamSync := sync } := by
    simp only [Port.exec,one]
  have settled : ∀ decisions : List Bool, false ∉ decisions →
      EndRecord.Settled { EndRecord.initial with decisions } := fun decisions noRefusal cycle refused =>
    absurd (List.mem_of_getElem? refused) noRefusal
  have may₀ : ReceiverMay .initial (.updateReady 0 true) := .inl ⟨rfl,settled [] (by simp)⟩
  have linked₀ := ((linked_new limit).receiver may₀ (Port.exchange_done done₀)).2
  have may₁ : ReceiverMay (EndRecord.initial.grow (.updateReady 0 true) ()) (.updateReady 1 true) :=
    .inl ⟨rfl,settled [true] (by simp)⟩
  exact (linked₀.receiver may₁ (Port.exchange_done done₁)).2

/-- A new queue stands at cycle 0 once it is connected. -/
theorem standing_new {capacity inBandwidth : Nat} (pos : 0 < capacity) (bandwidthPos : 0 < inBandwidth)
    (large : 2 * inBandwidth ≤ capacity) :
    Standing (some inBandwidth) (newInputQueue capacity inBandwidth pos bandwidthPos) 0 connectedRecord where
  read := rfl
  decided := by decide
  next := Nat.zero_le _
  promised := by
    intro i _ inside
    have few : i < 2 := inside
    show [true,true][i]? = some true
    interval_cases i <;> rfl
  refused := by
    intro f refused
    exact absurd (List.mem_of_getElem? refused) (by simp [connectedRecord])
  limited := fun n isLimit => (Option.some.inj isLimit).ge
  credit := by
    intro _ i promised
    have few : i < 2 := (List.getElem?_eq_some_iff.mp promised).1
    have room : (newInputQueue capacity inBandwidth pos bandwidthPos).freeSlots = capacity := by
      simp [freeSlots,InputQueue.capacity,newInputQueue]
    rw [room]
    exact le_trans (Nat.mul_le_mul_right _ (show i + 1 - 0 ≤ 2 by omega)) large

/-- The upstream component and the queue, both about to start on a port. -/
def upstreamAndQueue {α : Type} (upstream : Prog portInterface α) (queue : Prog portInterface (Option String × InputQueue)) :
    (side : Side) → Prog portInterface (match side with | .sender => α | .receiver => Option String × InputQueue)
  | .sender => upstream
  | .receiver => queue

/-- A queue with room for two bursts, connected to a sender that keeps to the
    bandwidth and to the cycles signalled ready, whatever the node does with the
    queue between the ticks: no packet is without a slot, no decision is
    contradicted, the next cycle is always decided, and the promised cycles ahead
    never take more than the free slots. -/
theorem credit_invariant {α : Type} (sortSlice : SliceSort) (calls : Nat → InputQueue → List QueueCall)
    (capacity inBandwidth : Nat) (pos : 0 < capacity) (bandwidthPos : 0 < inBandwidth)
    (large : 2 * inBandwidth ≤ capacity) (cycles : Nat) (upstream : Prog portInterface α) (sync : ComponentSync)
    (connected : (newInputQueue capacity inBandwidth pos bandwidthPos).setUpstreamPort Port.newPort.downstreamSync = some sync)
    (c : Config portInterface Port _)
    (reach : Reaches (fun c side => portMachine.step side c) (Obedient (some inBandwidth) .initial connectedRecord)
      (Config.start { Port.newPort with downstreamSync := sync } (upstreamAndQueue upstream
        (servedQueue sortSlice calls cycles 0 (newInputQueue capacity inBandwidth pos bandwidthPos)))) c) :
    (∀ error iq, c.prog .receiver ≠ .done (some error,iq)) ∧
    (∀ cycle ready next, c.prog .receiver = .call (.updateReady cycle ready) next →
      c.shared.downstreamSync.updateReady cycle ready ≠ none) ∧
    (∀ iq, c.prog .receiver = .done (none,iq) → 0 < cycles →
      c.shared.downstreamSync.answer cycles ≠ none ∧
      ∀ lastReady, (connectedRecord.after (c.log .receiver)).Promised lastReady →
        (lastReady - (cycles - 1)) * inBandwidth ≤ iq.freeSlots) := by
  have room : (newInputQueue capacity inBandwidth pos bandwidthPos).length <
      (newInputQueue capacity inBandwidth pos bandwidthPos).capacity := by
    simpa [InputQueue.capacity,newInputQueue] using pos
  have started : Ended (some inBandwidth) .initial connectedRecord (Served (some inBandwidth) cycles)
      (Config.start { Port.newPort with downstreamSync := sync } (upstreamAndQueue upstream
        (servedQueue sortSlice calls cycles 0 (newInputQueue capacity inBandwidth pos bandwidthPos)))) := by
    refine ⟨setUpstreamPort_linked _ room connected,?_⟩
    have keeps := keeps_servedQueue sortSlice calls cycles (standing_new pos bandwidthPos large)
    rwa [Nat.zero_add] at keeps
  have ended := started.reach reach
  have result : ∀ {value}, c.prog .receiver = .done value →
      Served (some inBandwidth) cycles (connectedRecord.after (c.log .receiver)) value := by
    intro value finished
    have keeps := ended.keeps
    rwa [finished,keeps_done] at keeps
  refine ⟨fun error iq finished => ?_,fun cycle ready next at_update => ended.no_panic (by simp) at_update,
    fun iq finished some_ => ⟨?_,fun lastReady promised => ?_⟩⟩
  · exact absurd ((result finished).2 (by simp)) (by simp)
  · have standing := (result finished).1 rfl
    have held : c.shared.downstreamSync.answer cycles = _ := ended.linked.decision cycles
    rw [held]
    split
    · simp
    · simpa using standing.decided
  · have standing := (result finished).1 rfl
    have wide := standing.limited inBandwidth rfl
    calc (lastReady - (cycles - 1)) * inBandwidth
      _ = (lastReady + 1 - cycles) * inBandwidth := by rw [show lastReady - (cycles - 1) = lastReady + 1 - cycles by omega]
      _ ≤ (lastReady + 1 - cycles) * iq.inBandwidth := Nat.mul_le_mul_left _ wide
      _ ≤ iq.freeSlots := standing.credit (by simp) lastReady promised

/-- A queue of two slots that is sent one packet in cycle 0. -/
theorem credit_invariant_one_packet :
    let pkt : Packet := { sourceID := 0, targetID := 1, data := 5 }
    let iq := newInputQueue 2 1 (by decide) (by decide)
    let upstream : Prog portInterface Unit := .call (.send ⟨0,pkt⟩) fun _ => .call (.markDone 0) .done
    let start := Config.start { Port.newPort with downstreamSync := { done := -1, readyUntil := 2, readyStates := [] } }
      (upstreamAndQueue upstream (servedQueue stableSort (fun _ _ => [.block 0 1]) 1 0 iq))
    let final := portMachine.run ([.sender,.sender] ++ List.replicate 7 .receiver) start
    (match final.prog .receiver with
      | .done (none,iq) => decide (iq.packets = [pkt] ∧ iq.freeSlots = 1)
      | _ => false) = true ∧
    ∀ iq, final.prog .receiver = .done (none,iq) → 0 < 1 →
      final.shared.downstreamSync.answer 1 ≠ none ∧
      ∀ lastReady, (connectedRecord.after (final.log .receiver)).Promised lastReady →
        (lastReady - (1 - 1)) * 1 ≤ iq.freeSlots := by
  intro pkt iq upstream start final
  refine ⟨by decide +kernel,?_⟩
  refine (credit_invariant stableSort (fun _ _ => [.block 0 1]) 2 1 (by decide) (by decide) (by decide) 1 upstream
    { done := -1, readyUntil := 2, readyStates := [] } rfl final ?_).2.2
  have sent : Reaches (fun c side => portMachine.step side c) (Obedient (some 1) .initial connectedRecord) start
      (portMachine.run [.sender,.sender] start) := by
    refine (Reaches.refl.step Side.sender ?_ rfl).step Side.sender ?_ rfl
    · rintro op next - isCall
      cases isCall
      refine ⟨.inl (by decide),?_⟩
      rintro n ⟨⟩
      exact ⟨by decide,by decide,rfl⟩
    · rintro op next - isCall
      cases isCall
      exact ⟨show (-1 : Int) < 0 by decide,trivial⟩
  have run_on : final = portMachine.run (List.replicate 7 .receiver) (portMachine.run [.sender,.sender] start) :=
    List.foldl_append
  rw [run_on]
  exact sent.trans (reaches_receiver 7 _)

end InputQueue
end FlowSim.Queue
