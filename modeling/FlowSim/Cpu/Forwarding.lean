import FlowSim.Cpu.Buffers

/-!
Which store a load is forwarded from. The store queue is gone through from its end, so
that the store found is the youngest of those that are older than the load, have its
address and are ready; a younger one that is not ready does not stop the search.
-/
namespace FlowSim.Cpu
set_option linter.unusedSimpArgs false

namespace LoadStoreQueue

/-- Goes over the first `i` stores from the last to the first. -/
def forwardingLoop (storeQueue : List LSQEntry) (loadEntry : LSQEntry) : Nat → Option Nat
  | 0 => none
  | i + 1 =>
    match storeQueue[i]? with
    | none => forwardingLoop storeQueue loadEntry i
    | some storeEntry =>
      if storeEntry.instrID ≥ loadEntry.instrID then forwardingLoop storeQueue loadEntry i
      else if storeEntry.virtualAddr = loadEntry.virtualAddr ∧ storeEntry.readyTime ≤ loadEntry.readyTime then some i
      else forwardingLoop storeQueue loadEntry i

/-- The place of the store to forward from. -/
def checkStoreToLoadForwarding (lsq : LoadStoreQueue) (loadEntry : LSQEntry) : Option Nat :=
  forwardingLoop lsq.storeQueue loadEntry lsq.storeQueue.length

/-! ### Stores of a load -/

/-- The store at the place is older than the load and has its address. -/
def Older (lsq : LoadStoreQueue) (loadEntry : LSQEntry) (i : Nat) : Prop :=
  ∃ storeEntry, lsq.storeQueue[i]? = some storeEntry ∧ storeEntry.instrID < loadEntry.instrID ∧
    storeEntry.virtualAddr = loadEntry.virtualAddr

def Ready (lsq : LoadStoreQueue) (loadEntry : LSQEntry) (i : Nat) : Prop :=
  ∃ storeEntry, lsq.storeQueue[i]? = some storeEntry ∧ storeEntry.readyTime ≤ loadEntry.readyTime

/-- The store at the first place is younger: its instruction is, or it is a later store of
    the same instruction. -/
def Younger (lsq : LoadStoreQueue) (i j : Nat) : Prop :=
  ∃ younger older, lsq.storeQueue[i]? = some younger ∧ lsq.storeQueue[j]? = some older ∧
    (older.instrID < younger.instrID ∨ older.instrID = younger.instrID ∧ j < i)

/-- The youngest store that is older than the load and has its address. -/
def Youngest (lsq : LoadStoreQueue) (loadEntry : LSQEntry) (i : Nat) : Prop :=
  lsq.Older loadEntry i ∧ ∀ j, lsq.Older loadEntry j → j ≠ i → lsq.Younger i j

/-- No store but the youngest is forwarded. -/
def ForwardsYoungest (lsq : LoadStoreQueue) (loadEntry : LSQEntry) : Prop :=
  ∀ i, lsq.checkStoreToLoadForwarding loadEntry = some i → lsq.Youngest loadEntry i

def InProgramOrder (lsq : LoadStoreQueue) : Prop := lsq.storeQueue.Pairwise fun older younger => older.instrID ≤ younger.instrID

section
variable {lsq : LoadStoreQueue} {loadEntry : LSQEntry} {i j : Nat}

theorem Older.lt (older : lsq.Older loadEntry i) : i < lsq.storeQueue.length := by
  obtain ⟨_,found,_⟩ := older
  exact (List.getElem?_eq_some_iff.mp found).1

/-- In program order a later store is a younger one. -/
theorem InProgramOrder.younger (inOrder : lsq.InProgramOrder) (below : j < i) (inside : i < lsq.storeQueue.length) :
    lsq.Younger i j := by
  have inside' : j < lsq.storeQueue.length := below.trans inside
  refine ⟨lsq.storeQueue[i],lsq.storeQueue[j],List.getElem?_eq_getElem inside,List.getElem?_eq_getElem inside',?_⟩
  have le := List.pairwise_iff_getElem.mp inOrder j i inside' inside below
  omega

theorem Younger.asymm (younger : lsq.Younger i j) : ¬ lsq.Younger j i := by
  rintro ⟨_,_,first,second,later⟩
  obtain ⟨_,_,first',second',later'⟩ := younger
  cases first.symm.trans second'
  cases second.symm.trans first'
  omega

/-- In program order the youngest store is the last one. -/
theorem InProgramOrder.youngest_iff (inOrder : lsq.InProgramOrder) : lsq.Youngest loadEntry i ↔
    lsq.Older loadEntry i ∧ ∀ j, lsq.Older loadEntry j → j ≤ i := by
  refine and_congr_right fun older => ?_
  constructor
  · intro youngest j older'
    by_contra after
    exact (inOrder.younger (Nat.lt_of_not_le after) older'.lt).asymm (youngest j older' (by omega))
  · intro last j older' different
    have le := last j older'
    exact inOrder.younger (by omega) older.lt

/-- The last of the places is the one to forward from, or is passed over. -/
theorem forwardingLoop_succ (n : Nat) :
    (lsq.Older loadEntry n ∧ lsq.Ready loadEntry n ∧ forwardingLoop lsq.storeQueue loadEntry (n + 1) = some n) ∨
    (¬ (lsq.Older loadEntry n ∧ lsq.Ready loadEntry n) ∧
      forwardingLoop lsq.storeQueue loadEntry (n + 1) = forwardingLoop lsq.storeQueue loadEntry n) := by
  rw [forwardingLoop]
  cases found : lsq.storeQueue[n]? with
  | none =>
    refine .inr ⟨?_,rfl⟩
    rintro ⟨⟨_,found',_⟩,_⟩
    cases found.symm.trans found'
  | some storeEntry =>
    dsimp only
    by_cases younger : storeEntry.instrID ≥ loadEntry.instrID
    · refine .inr ⟨?_,if_pos younger⟩
      rintro ⟨⟨_,found',older,_⟩,_⟩
      cases found.symm.trans found'
      omega
    · rw [if_neg younger]
      by_cases fits : storeEntry.virtualAddr = loadEntry.virtualAddr ∧ storeEntry.readyTime ≤ loadEntry.readyTime
      · exact .inl ⟨⟨storeEntry,found,by omega,fits.1⟩,⟨storeEntry,found,fits.2⟩,if_pos fits⟩
      · refine .inr ⟨?_,if_neg fits⟩
        rintro ⟨⟨_,found',_,addr⟩,⟨_,found'',ready⟩⟩
        cases found.symm.trans found'
        cases found.symm.trans found''
        exact fits ⟨addr,ready⟩

/-- What is forwarded is the last store that is older, has the address and is ready. -/
theorem forwardingLoop_eq_some_iff {n : Nat} : forwardingLoop lsq.storeQueue loadEntry n = some i ↔
    i < n ∧ (lsq.Older loadEntry i ∧ lsq.Ready loadEntry i) ∧
      ∀ j, i < j → j < n → ¬ (lsq.Older loadEntry j ∧ lsq.Ready loadEntry j) := by
  induction n with
  | zero => simp [forwardingLoop]
  | succ n ih =>
    rcases @forwardingLoop_succ lsq loadEntry n with ⟨older,ready,stops⟩ | ⟨passed,goes⟩
    · rw [stops,Option.some.injEq]
      constructor
      · rintro rfl
        exact ⟨Nat.lt_succ_self _,⟨older,ready⟩,fun j after before => by omega⟩
      · rintro ⟨below,_,last⟩
        by_contra different
        exact last n (by omega) (Nat.lt_succ_self n) ⟨older,ready⟩
    · rw [goes,ih]
      constructor
      · rintro ⟨below,fits,last⟩
        refine ⟨by omega,fits,?_⟩
        intro j after before
        by_cases here : j = n
        · rw [here]
          exact passed
        · exact last j after (by omega)
      · rintro ⟨below,fits,last⟩
        have other : i ≠ n := fun same => passed (same ▸ fits)
        exact ⟨by omega,fits,fun j after before => last j after (by omega)⟩

theorem checkStoreToLoadForwarding_eq_some_iff : lsq.checkStoreToLoadForwarding loadEntry = some i ↔
    (lsq.Older loadEntry i ∧ lsq.Ready loadEntry i) ∧ ∀ j, i < j → ¬ (lsq.Older loadEntry j ∧ lsq.Ready loadEntry j) := by
  rw [checkStoreToLoadForwarding,forwardingLoop_eq_some_iff]
  constructor
  · rintro ⟨_,fits,last⟩
    exact ⟨fits,fun j after both => last j after both.1.lt both⟩
  · rintro ⟨fits,last⟩
    exact ⟨fits.1.lt,fits,fun j after _ => last j after⟩

/-- Of the places of a queue with a property there is a last one. -/
theorem exists_last {property : Nat → Prop} {bound : Nat} (inside : ∀ k, property k → k < bound) (holds : property j) :
    ∃ i, property i ∧ ∀ k, property k → k ≤ i := by
  classical
  refine ⟨Nat.findGreatest property bound,Nat.findGreatest_spec (inside j holds).le holds,?_⟩
  exact fun k holds' => Nat.le_findGreatest (inside k holds').le holds'

/-- A store is forwarded when one that is older and has the address is ready. -/
theorem exists_forwarded (older : lsq.Older loadEntry j) (ready : lsq.Ready loadEntry j) :
    ∃ i, lsq.checkStoreToLoadForwarding loadEntry = some i := by
  obtain ⟨i,fits,last⟩ := @exists_last j (fun k => lsq.Older loadEntry k ∧ lsq.Ready loadEntry k) _ (fun _ both => both.1.lt)
    ⟨older,ready⟩
  refine ⟨i,checkStoreToLoadForwarding_eq_some_iff.mpr ⟨fits,?_⟩⟩
  intro k after both
  have le := last k both
  omega

/-- The youngest store is forwarded, or none, just when the youngest is ready or no store is. -/
theorem InProgramOrder.forwardsYoungest_iff (inOrder : lsq.InProgramOrder) : lsq.ForwardsYoungest loadEntry ↔
    ∀ i, lsq.Youngest loadEntry i → (∃ j, lsq.Older loadEntry j ∧ lsq.Ready loadEntry j) → lsq.Ready loadEntry i := by
  constructor
  · rintro forwards i youngest ⟨j,older,ready⟩
    obtain ⟨k,forwarded⟩ := exists_forwarded older ready
    have last := (inOrder.youngest_iff.mp (forwards k forwarded)).2 i youngest.1
    have last' := (inOrder.youngest_iff.mp youngest).2 k (forwards k forwarded).1
    obtain rfl : k = i := by omega
    exact (checkStoreToLoadForwarding_eq_some_iff.mp forwarded).1.2
  · intro youngest_ready i forwarded
    obtain ⟨⟨older,ready⟩,last⟩ := checkStoreToLoadForwarding_eq_some_iff.mp forwarded
    obtain ⟨k,older',greatest⟩ := exists_last (fun _ older => older.lt) older
    have youngest : lsq.Youngest loadEntry k := inOrder.youngest_iff.mpr ⟨older',greatest⟩
    have ready' := youngest_ready k youngest ⟨i,older,ready⟩
    have le := greatest i older
    have same : i = k := by
      by_contra different
      exact last k (by omega) ⟨older',ready'⟩
    rw [same]
    exact youngest

end

/-! ### Filling the queue -/

/-- What is done to the store queue. -/
inductive StoreOp where
  | addStore (entry : LSQEntry)
  | removeStore (instrID : Nat)

def StoreOp.added : StoreOp → Option LSQEntry
  | .addStore entry => some entry
  | .removeStore _ => none

def perform (lsq : LoadStoreQueue) : StoreOp → LoadStoreQueue
  | .addStore entry => lsq.addStore entry
  | .removeStore instrID => lsq.removeStore instrID

/-- The queue has stores that were added, in the order they were added in. -/
theorem storeQueue_performed (ops : List StoreOp) (lsq : LoadStoreQueue) :
    (ops.foldl perform lsq).storeQueue.Sublist (lsq.storeQueue ++ ops.filterMap StoreOp.added) := by
  induction ops generalizing lsq with
  | nil => rw [List.filterMap_nil,List.append_nil]; exact List.Sublist.refl _
  | cons op ops ih =>
    refine (ih (lsq.perform op)).trans ?_
    cases op with
    | addStore entry =>
      rw [List.filterMap_cons_some (show StoreOp.added (.addStore entry) = some entry from rfl)]
      simp only [perform,addStore]
      split_ifs
      · exact List.Sublist.append_left (List.sublist_cons_self ..) _
      · rw [List.append_assoc]
        exact List.Sublist.refl _
    | removeStore instrID =>
      rw [List.filterMap_cons_none (show StoreOp.added (.removeStore instrID) = none from rfl)]
      exact List.Sublist.append_right List.eraseP_sublist _

/-- For every queue that stores were added to in program order, and every load: no store but
    the youngest is forwarded just when the youngest is ready or no store is. -/
theorem forwards_youngest_iff {ops : List StoreOp} {maxLQSize maxSQSize : Nat}
    (inOrder : (ops.filterMap StoreOp.added).Pairwise fun older younger => older.instrID ≤ younger.instrID) (loadEntry : LSQEntry) :
    let lsq := ops.foldl perform (newLoadStoreQueue maxLQSize maxSQSize)
    lsq.ForwardsYoungest loadEntry ↔
      ∀ i, lsq.Youngest loadEntry i → (∃ j, lsq.Older loadEntry j ∧ lsq.Ready loadEntry j) → lsq.Ready loadEntry i := by
  intro lsq
  have performed := storeQueue_performed ops (newLoadStoreQueue maxLQSize maxSQSize)
  have queueInOrder : lsq.InProgramOrder := inOrder.sublist performed
  exact queueInOrder.forwardsYoungest_iff

/-- Two stores of one address; the younger is ready later. -/
def twoStores (readyTime : Nat) : List StoreOp := [.addStore (newLSQEntry 1 64 0),.addStore (newLSQEntry 2 64 readyTime)]

theorem forwards_youngest_two_stores :
    let lsq := (twoStores 0).foldl perform (newLoadStoreQueue 4 4)
    lsq.ForwardsYoungest (newLSQEntry 3 64 5) ↔
      ∀ i, lsq.Youngest (newLSQEntry 3 64 5) i →
        (∃ j, lsq.Older (newLSQEntry 3 64 5) j ∧ lsq.Ready (newLSQEntry 3 64 5) j) → lsq.Ready (newLSQEntry 3 64 5) i :=
  forwards_youngest_iff (by decide) _

/-- The data of the older store is forwarded while the younger one is not ready. -/
theorem older_store_forwarded : ¬ ∀ (ops : List StoreOp) (loadEntry : LSQEntry),
    (ops.filterMap StoreOp.added).Pairwise (fun older younger => older.instrID ≤ younger.instrID) →
      (ops.foldl perform (newLoadStoreQueue 4 4)).ForwardsYoungest loadEntry := by
  intro forwards
  have first : ((twoStores 10).foldl perform (newLoadStoreQueue 4 4)).checkStoreToLoadForwarding (newLSQEntry 3 64 5) = some 0 := by
    decide
  obtain ⟨_,youngest⟩ := forwards (twoStores 10) (newLSQEntry 3 64 5) (by decide) 0 first
  have second : ((twoStores 10).foldl perform (newLoadStoreQueue 4 4)).Older (newLSQEntry 3 64 5) 1 :=
    ⟨newLSQEntry 2 64 10,by decide,by decide,rfl⟩
  obtain ⟨_,_,found,found',later⟩ := youngest 1 second (by decide)
  cases found
  cases found'
  exact absurd later (by decide)

end LoadStoreQueue
end FlowSim.Cpu
