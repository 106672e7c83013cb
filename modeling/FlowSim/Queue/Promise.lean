import FlowSim.Queue.Credit

/-!
When an input queue takes back a promise. Connecting the queue promises cycles 0 and 1
whatever its bandwidth, and the tick of cycle 0 refuses cycle 1 when it leaves no full
burst free; from then on every promise is covered by free slots.
-/
namespace FlowSim.Queue
open FlowSim.Lib FlowSim.AheadPort
set_option linter.unusedSimpArgs false

namespace InputQueue

/-- Cycle 0 is the last cycle read, and its packets fit but leave no full burst free. -/
def Tight (capacity inBandwidth : Nat) (r : EndRecord) : Prop :=
  ∃ pkts, r.returned = [pkts] ∧ pkts.length ≤ capacity ∧ capacity < pkts.length + inBandwidth

/-- The operation takes back a promise. -/
def TakesBack (r : EndRecord) (op : PortOp) : Prop := ∃ cycle, op = .updateReady cycle false ∧ r.Promised cycle

/-- The first packets left a full burst free. -/
def Spacious (capacity inBandwidth : Nat) (r : EndRecord) : Prop :=
  ∃ pkts later, r.returned = pkts :: later ∧ pkts.length + inBandwidth ≤ capacity

/-- The first packets did not fit. -/
def Overfull (capacity : Nat) (r : EndRecord) : Prop := ∃ pkts later, r.returned = pkts :: later ∧ capacity < pkts.length

/-- A receiver that takes back a promise exactly when it is tight. -/
abbrev tightly (capacity inBandwidth : Nat) : Discipline portInterface EndRecord :=
  careful (some inBandwidth) (fun r op => TakesBack r op ↔ Tight capacity inBandwidth r)

variable {capacity inBandwidth : Nat} {r : EndRecord}

theorem Spacious.not_tight (spacious : Spacious capacity inBandwidth r) : ¬ Tight capacity inBandwidth r := by
  rintro ⟨pkts,only,_,small⟩
  obtain ⟨first,later,returned,large⟩ := spacious
  rw [only,List.cons.injEq] at returned
  obtain ⟨rfl,_⟩ := returned
  omega

theorem Spacious.grow (spacious : Spacious capacity inBandwidth r) (op : PortOp) (answer : op.Resp) :
    Spacious capacity inBandwidth (r.grow op answer) := by
  obtain ⟨first,later,returned,large⟩ := spacious
  cases op with
  | retrieve cycle => exact ⟨first,later ++ [answer],by simp [EndRecord.grow,returned],large⟩
  | send pwc =>
    refine ⟨first,later,?_,large⟩
    simp only [EndRecord.grow]
    split <;> exact returned
  | updateReady cycle ready =>
    refine ⟨first,later,?_,large⟩
    simp only [EndRecord.grow]
    split <;> exact returned
  | isReady cycle =>
    refine ⟨first,later,?_,large⟩
    simp only [EndRecord.grow]
    split <;> exact returned
  | drainChannel => exact ⟨first,later,returned,large⟩
  | waitDone cycle => exact ⟨first,later,returned,large⟩
  | markDone cycle => exact ⟨first,later,returned,large⟩

/-- After spacious packets a receiver that keeps its promises does as it should. -/
theorem allows (r : EndRecord) (op : PortOp) (now : Spacious capacity inBandwidth r)
    (allowed : (receiving (some inBandwidth)).pre r op) : (tightly capacity inBandwidth).pre r op := by
  obtain ⟨may,promises⟩ := allowed
  refine ⟨may,iff_of_false ?_ now.not_tight⟩
  rintro ⟨cycle,rfl,promised⟩
  exact absurd (promises (by simp) promised) (by simp)

theorem tightly_of_spacious {α : Type} {p : Prog portInterface α} {Q : EndRecord → α → Prop}
    (keeps : Keeps (receiving (some inBandwidth)) p Q r) (spacious : Spacious capacity inBandwidth r) :
    Keeps (tightly capacity inBandwidth) p (fun r value => ¬ Tight capacity inBandwidth r ∧ Q r value) r :=
  (keeps.carry spacious allows (fun _ _ _ learned => learned) (fun _ op answer now => ⟨rfl,now.grow op answer⟩)).mono
    fun _ _ both => ⟨both.1.not_tight,both.2⟩

/-- The record once the packets of cycle 0 are read. -/
def firstRead (pkts : List Packet) : EndRecord := { connectedRecord with waited := 0, returned := [pkts] }

theorem tight_firstRead {pkts : List Packet} :
    Tight capacity inBandwidth (firstRead pkts) ↔ pkts.length ≤ capacity ∧ capacity < pkts.length + inBandwidth := by
  constructor
  · rintro ⟨_,only,within,small⟩
    obtain ⟨rfl,_⟩ := List.cons.inj only
    exact ⟨within,small⟩
  · rintro ⟨within,small⟩
    exact ⟨pkts,rfl,within,small⟩

/-- Reading the packets of cycle 0 takes nothing back. -/
theorem tightly_receive :
    Keeps (tightly capacity inBandwidth) (receive 0) (fun r pkts => r = firstRead pkts) connectedRecord := by
  have calm : ∀ {r op}, r.returned = [] → (∀ cycle ready, op ≠ PortOp.updateReady cycle ready) →
      (TakesBack r op ↔ Tight capacity inBandwidth r) := by
    intro r op nothing other
    refine iff_of_false ?_ ?_
    · rintro ⟨cycle,update,_⟩
      exact other cycle false update
    · rintro ⟨pkts,only,_⟩
      rw [nothing] at only
      cases only
  refine ⟨⟨trivial,calm rfl (by simp)⟩,fun _ _ => ⟨⟨rfl,calm rfl (by simp)⟩,fun _ _ => ?_⟩⟩
  exact ⟨⟨⟨rfl,le_refl _⟩,calm rfl (by simp)⟩,fun _ _ => rfl⟩

theorem received_firstRead {iq : InputQueue} {pkts : List Packet} (wide : iq.capacity = capacity)
    (bandwidth : iq.inBandwidth = inBandwidth) (next : iq.nextUpdateCycle = 0) (stored : iq.length = pkts.length)
    (spacious : pkts.length + inBandwidth ≤ capacity) : Received (some inBandwidth) iq 0 (firstRead pkts) where
  read := rfl
  decided := Nat.le_succ 1
  next := by
    rw [next]
    exact Nat.zero_le _
  promised := by
    intro i _ inside
    have early : i < 2 := inside
    show [true,true][i]? = some true
    interval_cases i <;> rfl
  refused := by
    intro f refused
    exact absurd (List.mem_of_getElem? refused) (by simp [firstRead,connectedRecord])
  limited := by
    rintro n ⟨⟩
    exact bandwidth.ge
  credit := by
    intro _ i promised
    have early : i < 2 := (List.getElem?_eq_some_iff.mp promised).1
    rw [freeSlots,wide,bandwidth,stored]
    calc (i + 1 - (0 + 1)) * inBandwidth
      _ ≤ 1 * inBandwidth := Nat.mul_le_mul_right _ (by omega)
      _ ≤ capacity - pkts.length := by omega

/-- The tick of cycle 0 takes back the promise of cycle 1 exactly when the packets leave no
    full burst free, and fails only when they do not fit. -/
theorem tightly_tick (pos : 0 < capacity) (bandwidthPos : 0 < inBandwidth) :
    Keeps (tightly capacity inBandwidth) ((newInputQueue capacity inBandwidth pos bandwidthPos).tick 0)
      (fun r result => ¬ Tight capacity inBandwidth r ∧
        (result.1 = none → Spacious capacity inBandwidth r ∧ Standing (some inBandwidth) result.2 1 r) ∧
        (result.1 ≠ none → Overfull capacity r))
      connectedRecord := by
  have wide : (newInputQueue capacity inBandwidth pos bandwidthPos).capacity = capacity := List.length_replicate ..
  refine tightly_receive.bind ?_
  rintro _ pkts rfl
  rcases all : storeAll 0 pkts (newInputQueue capacity inBandwidth pos bandwidthPos) with ⟨error | error,iq⟩
  · have fits := fits_of_storeAll 0 pkts all
    obtain ⟨iq',all',_,length,capacity',bandwidth,next⟩ := storeAll_fits 0 pkts _ fits
    obtain rfl : iq' = iq := by rw [all] at all'; cases all'; rfl
    have stored : iq'.length = pkts.length := length.trans (Nat.zero_add _)
    have fits : pkts.length ≤ capacity := by
      rw [wide] at fits
      exact le_trans (Nat.le_add_left ..) fits
    simp only
    by_cases spacious : pkts.length + inBandwidth ≤ capacity
    · have roomy : Spacious capacity inBandwidth (firstRead pkts) := ⟨pkts,[],rfl,spacious⟩
      have received : Received (some inBandwidth) { iq' with lastCyclePackets := pkts } 0 (firstRead pkts) :=
        received_firstRead (capacity'.trans wide) bandwidth next stored spacious
      refine ((keeps_updateUpstream received).carry roomy allows (fun _ _ _ learned => learned)
        (fun r op answer now => ⟨rfl,now.grow op answer⟩)).bind ?_
      rintro r iq₂ ⟨now,standing,_,_⟩
      exact ⟨now.not_tight,fun _ => ⟨now,standing⟩,fun some_ => absurd rfl some_⟩
    · have tight : Tight capacity inBandwidth (firstRead pkts) := tight_firstRead.mpr ⟨fits,by omega⟩
      have nothing : remainReadyCycle { iq' with lastCyclePackets := pkts } = 0 := by
        refine (Nat.div_eq_zero_iff_lt iq'.inBandwidth_pos).mpr ?_
        show iq'.capacity - iq'.length < iq'.inBandwidth
        rw [capacity',bandwidth,stored,wide]
        show capacity - pkts.length < inBandwidth
        omega
      rw [updateUpstream,nothing]
      -- cycle 1 was promised when the queue was connected
      refine ⟨⟨.inr rfl,iff_of_true ⟨1,rfl,rfl⟩ tight⟩,fun _ learns => ?_⟩
      exact absurd (learns rfl) (by simp)
  · have large : capacity < pkts.length := by
      by_contra small
      have fits : (newInputQueue capacity inBandwidth pos bandwidthPos).length + pkts.length ≤
          (newInputQueue capacity inBandwidth pos bandwidthPos).capacity := by
        rw [wide]
        exact le_trans (Nat.zero_add _).le (Nat.not_lt.mp small)
      obtain ⟨iq'',all',_⟩ := storeAll_fits 0 pkts _ fits
      rw [all] at all'
      cases all'
    refine ⟨fun tight => ?_,by simp,fun _ => ⟨pkts,[],rfl,large⟩⟩
    obtain ⟨within,_⟩ := tight_firstRead.mp tight
    omega

/-- A new queue that goes through the cycles takes back a promise exactly when the first
    packets leave no full burst free, and fails only when they do not fit. -/
theorem tightly_servedQueue (sortSlice : SliceSort) (calls : Nat → InputQueue → List QueueCall) (cycles : Nat)
    (pos : 0 < capacity) (bandwidthPos : 0 < inBandwidth) :
    Keeps (tightly capacity inBandwidth)
      (servedQueue sortSlice calls cycles 0 (newInputQueue capacity inBandwidth pos bandwidthPos))
      (fun r result => ¬ Tight capacity inBandwidth r ∧ (result.1 ≠ none → Overfull capacity r)) connectedRecord := by
  rcases cycles with _ | cycles
  · refine ⟨?_,fun some_ => absurd rfl some_⟩
    rintro ⟨pkts,only,_⟩
    cases only
  rw [servedQueue]
  refine (tightly_tick pos bandwidthPos).bind ?_
  rintro r ⟨error | error,iq⟩ ⟨calm,goes_on,overfull⟩
  · obtain ⟨spacious,standing⟩ := goes_on rfl
    have roomier := roomier_foldl (roomier_call sortSlice) (calls 0 iq) iq
    refine (tightly_of_spacious (keeps_servedQueue sortSlice calls cycles (standing.roomier roomier)) spacious).mono ?_
    rintro r' result ⟨calm,_,served⟩
    exact ⟨calm,fun some_ => absurd (served (by simp)) some_⟩
  · exact ⟨calm,overfull⟩

/-- A new queue on a new port, and any sender that keeps to the bandwidth and to the cycles
    signalled ready: connecting the queue contradicts nothing, and at any moment the queue
    is about to contradict itself exactly when cycle 0 is the last it has read and the
    packets of cycle 0 leave no full burst free. -/
theorem promise_kept_iff {α : Type} (sortSlice : SliceSort) (calls : Nat → InputQueue → List QueueCall)
    (capacity inBandwidth : Nat) (pos : 0 < capacity) (bandwidthPos : 0 < inBandwidth) (cycles : Nat)
    (upstream : Prog portInterface α) :
    ∃ sync, (newInputQueue capacity inBandwidth pos bandwidthPos).setUpstreamPort Port.newPort.downstreamSync = some sync ∧
      ∀ c, Reaches (fun c side => portMachine.step side c) (Obedient (some inBandwidth) .initial connectedRecord)
        (Config.start { Port.newPort with downstreamSync := sync } (upstreamAndQueue upstream
          (servedQueue sortSlice calls cycles 0 (newInputQueue capacity inBandwidth pos bandwidthPos)))) c →
      ((∀ cycle ready next, c.prog .receiver = .call (.updateReady cycle ready) next →
          c.shared.downstreamSync.updateReady cycle ready ≠ none) ↔
        ∀ pkts, (connectedRecord.after (c.log .receiver)).returned = [pkts] → pkts.length ≤ capacity →
          pkts.length + inBandwidth ≤ capacity) := by
  have room : (newInputQueue capacity inBandwidth pos bandwidthPos).length <
      (newInputQueue capacity inBandwidth pos bandwidthPos).capacity := by
    simpa [InputQueue.capacity,newInputQueue] using pos
  have both : (newInputQueue capacity inBandwidth pos bandwidthPos).setUpstreamPort Port.newPort.downstreamSync =
      some { done := -1, readyUntil := 2, readyStates := [] } := by
    rw [setUpstreamPort,decide_eq_true room]
    rfl
  refine ⟨_,both,fun c reach => ?_⟩
  have attended := Attended.reach ⟨setUpstreamPort_linked (some inBandwidth) room both,
    tightly_servedQueue sortSlice calls cycles pos bandwidthPos⟩ reach
  have roomy_iff : (∀ pkts, (connectedRecord.after (c.log .receiver)).returned = [pkts] → pkts.length ≤ capacity →
      pkts.length + inBandwidth ≤ capacity) ↔ ¬ Tight capacity inBandwidth (connectedRecord.after (c.log .receiver)) := by
    constructor
    · rintro roomy ⟨pkts,only,within,small⟩
      exact absurd (roomy pkts only within) (Nat.not_le.mpr small)
    · intro calm pkts only within
      by_contra small
      exact calm ⟨pkts,only,within,Nat.not_le.mp small⟩
  rw [roomy_iff]
  have keeps := attended.keeps
  constructor
  · intro kept tight
    rcases at_ : c.prog .receiver with value | ⟨op,next⟩
    · rw [at_] at keeps
      exact keeps.1 tight
    · rw [at_,keeps_call] at keeps
      obtain ⟨cycle,rfl,promised⟩ := keeps.1.2.mpr tight
      have held : c.shared.downstreamSync.answer cycle = some true := attended.linked.promised promised
      exact kept cycle false next at_ (by rw [ComponentSync.updateReady_decided held]; rfl)
  · intro calm cycle ready next at_
    rw [at_,keeps_call] at keeps
    rcases keeps.1.1 with ⟨rfl,settled⟩ | promised
    · obtain ⟨sync,updated,_⟩ :=
        ComponentSync.updateReady_undecided (attended.linked.updateReady_new settled ready).1 ready
      rw [updated]
      exact Option.some_ne_none _
    · have held : c.shared.downstreamSync.answer cycle = some true := attended.linked.promised promised
      rw [ComponentSync.updateReady_decided held]
      cases ready with
      | true => exact Option.some_ne_none _
      | false => exact absurd (keeps.1.2.mp ⟨cycle,rfl,promised⟩) calm

/-! ### One packet in cycle 0 -/

/-- A sender of one packet, in cycle 0. -/
def onePacket : Prog portInterface Unit :=
  .call (.send ⟨0,{ sourceID := 0, targetID := 1, data := 5 }⟩) fun _ => .call (.markDone 0) .done

/-- The queue and the sender of one packet, on a port with cycles 0 and 1 promised. -/
def onePacketStart (capacity : Nat) (pos : 0 < capacity) :=
  Config.start { Port.newPort with downstreamSync := { done := -1, readyUntil := 2, readyStates := [] } }
    (upstreamAndQueue onePacket (servedQueue stableSort (fun _ _ => []) 1 0 (newInputQueue capacity 1 pos Nat.one_pos)))

/-- The sender is through, and the queue has taken `steps` steps. -/
def onePacketAfter (capacity : Nat) (pos : 0 < capacity) (steps : Nat) :=
  portMachine.run (List.replicate steps .receiver) (portMachine.run [.sender,.sender] (onePacketStart capacity pos))

theorem reaches_onePacketAfter (capacity : Nat) (pos : 0 < capacity) (steps : Nat) :
    Reaches (fun c side => portMachine.step side c) (Obedient (some 1) .initial connectedRecord)
      (onePacketStart capacity pos) (onePacketAfter capacity pos steps) := by
  have sent : Reaches (fun c side => portMachine.step side c) (Obedient (some 1) .initial connectedRecord)
      (onePacketStart capacity pos) (portMachine.run [.sender,.sender] (onePacketStart capacity pos)) := by
    refine (Reaches.refl.step Side.sender ?_ rfl).step Side.sender ?_ rfl
    · rintro op next - isCall
      cases isCall
      refine ⟨.inl (show (-1 : Int) < 0 by decide),?_⟩
      rintro n ⟨⟩
      exact ⟨show (-1 : Int) < 0 by decide,Nat.one_pos,rfl⟩
    · rintro op next - isCall
      cases isCall
      exact ⟨show (-1 : Int) < 0 by decide,trivial⟩
  exact sent.trans (reaches_receiver steps _)

/-- A queue of two slots keeps the promise of cycle 1. -/
theorem promise_kept_two_slots :
    Reaches (fun c side => portMachine.step side c) (Obedient (some 1) .initial connectedRecord)
      (onePacketStart 2 (by decide)) (onePacketAfter 2 (by decide) 4) ∧
    ∀ cycle ready next, (onePacketAfter 2 (by decide) 4).prog .receiver = .call (.updateReady cycle ready) next →
      (onePacketAfter 2 (by decide) 4).shared.downstreamSync.updateReady cycle ready ≠ none := by
  refine ⟨reaches_onePacketAfter 2 (by decide) 4,?_⟩
  obtain ⟨sync,connected,kept⟩ := promise_kept_iff stableSort (fun _ _ => []) 2 1 (by decide) (by decide) 1 onePacket
  obtain rfl : sync = { done := -1, readyUntil := 2, readyStates := [] } := (Option.some.inj connected).symm
  refine (kept _ (reaches_onePacketAfter 2 (by decide) 4)).mpr ?_
  rintro pkts only -
  have read : (connectedRecord.after ((onePacketAfter 2 (by decide) 4).log .receiver)).returned =
      [[{ sourceID := 0, targetID := 1, data := 5 }]] := by decide +kernel
  rw [read] at only
  obtain ⟨rfl,_⟩ := List.cons.inj only
  decide

/-- A queue of one slot that is sent one packet in cycle 0 goes on to refuse cycle 1. -/
theorem promise_contradicted :
    ∃ next, (onePacketAfter 1 (by decide) 4).prog .receiver = .call (.updateReady 1 false) next ∧
      (onePacketAfter 1 (by decide) 4).shared.downstreamSync.updateReady 1 false = none ∧
      Reaches (fun c side => portMachine.step side c) (Obedient (some 1) .initial connectedRecord)
        (onePacketStart 1 (by decide)) (onePacketAfter 1 (by decide) 4) ∧
      (newInputQueue 1 1 (by decide) (by decide)).setUpstreamPort Port.newPort.downstreamSync =
        some (onePacketStart 1 (by decide)).shared.downstreamSync :=
  ⟨_,rfl,by decide +kernel,reaches_onePacketAfter 1 (by decide) 4,rfl⟩

end InputQueue
end FlowSim.Queue
