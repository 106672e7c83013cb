import FlowSim.Cache.Snoop

/-!
Which way gives up its line. The counters of a set are the times of the last uses of its
ways (`Stamped`), also of the ways whose line was invalidated or snooped away since. So a
line makes room for another one although there is a free way, when every free way was used
after it (`evicts_needfully_iff`).
-/
namespace FlowSim.Cache
open FlowSim.Lib
set_option linter.unusedSimpArgs false

/-- The address of the operations that put a block into the cache. -/
def LineOp.placed : LineOp → Option UInt64
  | .fill addr _ _ | .setState addr _ | .setData addr _ => some addr
  | _ => none

namespace CacheSet

/-- The way holds a valid line. -/
def HoldsValid (set : CacheSet) (way : Nat) : Prop := ∃ line, set.line way = some line ∧ line.state ≠ .invalid

/-- When the way was used last, by the clock of the cache; 0 if never. -/
def usedAt (set : CacheSet) (way : Nat) : Nat := (set.lruCounters[way]?).getD 0

theorem findLRUFrom_le {counter : Nat → Nat} : ∀ (rest : List Nat) (way : Nat) (best : Nat × Nat),
    (∀ k, ∀ c ∈ rest[k]?, counter (way + k) = c) → counter best.1 = best.2 → (∀ w < way, best.2 ≤ counter w) →
    ∀ w < way + rest.length, counter (findLRUFrom way rest best) ≤ counter w
  | [], way, best, _, same, least => fun w below => by
    rw [findLRUFrom,same]
    exact least w below
  | c :: rest, way, best, known, same, least => fun w below => by
    have here : counter way = c := known 0 c rfl
    have later : ∀ k, ∀ c' ∈ rest[k]?, counter (way + 1 + k) = c' := by
      intro k c' member
      rw [Nat.add_assoc,Nat.add_comm 1 k]
      exact known (k + 1) c' member
    rw [List.length_cons] at below
    rw [findLRUFrom]
    refine findLRUFrom_le rest (way + 1) _ later ?_ ?_ w (by omega)
    · by_cases less : c < best.2
      · rw [if_pos less]
        exact here
      · rw [if_neg less]
        exact same
    · intro w' upTo
      by_cases less : c < best.2
      · rw [if_pos less]
        by_cases before : w' < way
        · exact less.le.trans (least w' before)
        · obtain rfl : w' = way := by omega
          exact here.ge
      · rw [if_neg less]
        by_cases before : w' < way
        · exact least w' before
        · obtain rfl : w' = way := by omega
          rw [here]
          exact Nat.le_of_not_lt less

/-- No way was used before the one that was used least recently. -/
theorem usedAt_findLRUWay_le {set : CacheSet} {way : Nat} (within : way < set.lruCounters.length) :
    set.usedAt set.findLRUWay ≤ set.usedAt way := by
  unfold findLRUWay
  cases counters : set.lruCounters with
  | nil =>
    rw [counters] at within
    exact absurd within (Nat.not_lt_zero _)
  | cons counter rest =>
    have known : ∀ k, ∀ c ∈ rest[k]?, set.usedAt (1 + k) = c := by
      intro k c member
      rw [usedAt,counters,Nat.add_comm,List.getElem?_cons_succ,member]
      rfl
    have first : set.usedAt 0 = counter := by
      rw [usedAt,counters]
      rfl
    refine findLRUFrom_le rest 1 (0,counter) known first ?_ way ?_
    · intro w below
      obtain rfl : w = 0 := by omega
      exact first.ge
    · rw [counters,List.length_cons] at within
      omega

end CacheSet

namespace Storage

/-! ### Times of use -/

/-- The counters are times up to now, different for different ways, and a way with a valid
    line has been used. -/
structure Stamped (c : Storage) : Prop where
  upTo : ∀ i way, (c.set i).usedAt way ≤ c.lruClock
  once : ∀ {i way way'}, (c.set i).usedAt way = (c.set i).usedAt way' → 0 < (c.set i).usedAt way → way = way'
  used : ∀ {i way}, (c.set i).HoldsValid way → 0 < (c.set i).usedAt way

section
variable {c c' : Storage} {addr : UInt64} {i way : Nat} {line : Option CacheLine}

theorem set_modify (change : CacheSet → CacheSet) (inside : i < c.sets.length) (lruClock : Nat) (j : Nat) :
    ({ c with lruClock, sets := c.sets.modify i change } : Storage).set j = if j = i then change (c.set i) else c.set j := by
  unfold set
  rw [List.getElem?_modify]
  by_cases here : j = i
  · subst here
    rw [if_pos rfl,List.getElem?_eq_getElem inside]
    simp
  · rw [if_neg here]
    simp [Ne.symm here]

theorem usedAt_use (wf : c.WellFormed) (inside : i < c.sets.length) (within : way < c.numWays) (j w : Nat) :
    ((c.use i way line).set j).usedAt w = if j = i ∧ w = way then c.lruClock + 1 else (c.set j).usedAt w := by
  unfold use
  rw [set_modify _ inside]
  by_cases here : j = i
  · subst here
    have wide : way < (c.set j).lruCounters.length := by
      unfold set
      rw [List.getElem?_eq_getElem inside,Option.getD_some,(wf.ways _ (List.getElem_mem inside)).2]
      exact within
    rw [if_pos rfl]
    show ((c.set j).lruCounters.set way (c.lruClock + 1))[w]?.getD 0 = _
    by_cases same : w = way
    · rw [if_pos ⟨rfl,same⟩,same,List.getElem?_set_self wide]
      rfl
    · rw [if_neg fun both => same both.2,List.getElem?_set_ne (Ne.symm same)]
      rfl
  · rw [if_neg here,if_neg fun both => here both.1]

theorem usedAt_putLine (inside : i < c.sets.length) (j w : Nat) :
    ((c.putLine i way line).set j).usedAt w = (c.set j).usedAt w := by
  unfold putLine
  rw [set_modify _ inside c.lruClock]
  by_cases here : j = i
  · subst here
    rw [if_pos rfl]
    rfl
  · rw [if_neg here]

/-- A way that is used now and holds whatever. -/
theorem Stamped.use (stamped : c.Stamped) (wf : c.WellFormed) (inside : i < c.sets.length) (within : way < c.numWays) :
    (c.use i way line).Stamped := by
  have wrote := @wrote_use c i way line wf inside within
  have used := @usedAt_use c i way line wf inside within
  constructor
  case upTo =>
    intro j w
    rw [used]
    show _ ≤ c.lruClock + 1
    split_ifs
    · exact le_rfl
    · exact (stamped.upTo j w).trans (Nat.le_succ _)
  case once =>
    intro j w w' same pos
    have upTo := stamped.upTo j w
    have upTo' := stamped.upTo j w'
    rw [used,used] at same
    rw [used] at pos
    split_ifs at same pos with here here'
    · exact here.2.trans here'.2.symm
    · omega
    · omega
    · exact stamped.once same pos
  case used =>
    rintro j w ⟨l,there,valid⟩
    rw [used]
    split_ifs with here
    · exact Nat.succ_pos _
    · rw [wrote.elsewhere j w (by tauto)] at there
      exact stamped.used ⟨l,there,valid⟩

/-- A way whose valid line is changed or goes. -/
theorem Stamped.putLine (stamped : c.Stamped) (wf : c.WellFormed) (inside : i < c.sets.length) (within : way < c.numWays)
    (held : (c.set i).HoldsValid way) : (c.putLine i way line).Stamped := by
  have wrote := @wrote_putLine c line i way wf inside within
  have used := @usedAt_putLine c i way line inside
  constructor
  case upTo =>
    intro j w
    rw [used]
    exact stamped.upTo j w
  case once =>
    intro j w w' same pos
    rw [used,used] at same
    rw [used] at pos
    exact stamped.once same pos
  case used =>
    rintro j w ⟨l,there,valid⟩
    rw [used]
    by_cases here : j = i ∧ w = way
    · rw [here.1,here.2]
      exact stamped.used held
    · rw [wrote.elsewhere j w (by tauto)] at there
      exact stamped.used ⟨l,there,valid⟩

/-- An operation that places a block writes it into the way for its address. -/
theorem placed_step {op : LineOp} (stepped : c.step op = some c') (places : op.placed = some addr) :
    ∃ l, c' = c.use (c.getSetIndex addr) (c.wayFor addr) (some l) ∧ l.addr = c.getBlockAddr addr := by
  unfold LineOp.placed at places
  split at places
  · next at_ data state =>
    cases places
    refine ⟨{ addr := c.getBlockAddr addr, state, data := some (data.getD []) },?_,rfl⟩
    rw [← Option.some.inj stepped,fill_eq]
  · next at_ state =>
    cases places
    rw [← Option.some.inj stepped]
    unfold setState wayFor
    cases found : c.find addr with
    | none => exact ⟨_,rfl,rfl⟩
    | some way =>
      obtain ⟨l,there,home,_⟩ := findWay_eq_some found
      refine ⟨{ l with state },?_,home⟩
      dsimp only
      rw [there]
      rfl
  · next at_ data =>
    cases places
    rw [← Option.some.inj stepped]
    unfold setData wayFor
    cases found : c.find addr with
    | none => exact ⟨_,rfl,rfl⟩
    | some way =>
      obtain ⟨l,there,home,_⟩ := findWay_eq_some found
      refine ⟨{ l with data, state := if data.isSome ∧ l.state = .invalid then .modified else l.state },?_,home⟩
      dsimp only
      rw [there]
      rfl
  · cases places

theorem WellFormed.wayFor_lt (wf : c.WellFormed) (addr : UInt64) : c.wayFor addr < c.numWays :=
  (wf.mayWrite (fun _ none_given => by cases none_given) : MayWrite c addr (c.wayFor addr) none).within

theorem Stamped.step (stamped : c.Stamped) (wf : c.WellFormed) {op : LineOp} (stepped : c.step op = some c') : c'.Stamped := by
  cases placed : op.placed with
  | some addr =>
    obtain ⟨l,rfl,_⟩ := placed_step stepped placed
    exact stamped.use wf (wf.getSetIndex_lt addr) (wf.wayFor_lt addr)
  | none =>
    cases op with
    | fill addr data state => cases placed
    | setState addr state => cases placed
    | setData addr data => cases placed
    | access addr isWrite =>
      rw [← Option.some.inj stepped]
      rcases c.access_cases addr isWrite with ⟨_,missed⟩ | ⟨way,l,found,_,_,_,used⟩
      · rw [missed]
        exact stamped
      · rw [used]
        exact stamped.use wf (wf.getSetIndex_lt addr) (wf.find_lt found)
    | invalidate addr =>
      rw [← Option.some.inj stepped]
      unfold invalidate
      cases found : c.find addr with
      | none => exact stamped
      | some way =>
        obtain ⟨l,there,_,valid⟩ := findWay_eq_some found
        exact stamped.putLine wf (wf.getSetIndex_lt addr) (wf.find_lt found) ⟨l,there,valid⟩
    | handleSnoop op addr =>
      rw [← Option.some.inj stepped]
      rcases c.handleSnoop_cases op addr with ⟨_,nothing⟩ | ⟨way,l,found,there,_,valid,done⟩
      · rw [nothing]
        exact stamped
      · have snooped : ∀ next, (c.snooped addr way l next).2.Stamped := fun next =>
          stamped.putLine wf (wf.getSetIndex_lt addr) (wf.find_lt found) ⟨l,there,valid⟩
        rw [done]
        cases op with
        | read => exact snooped _
        | readX => exact snooped _
        | invalidate => exact snooped _
        | upgrade => exact stamped
        | writeback => exact stamped
        | other opcode => exact stamped

end

theorem stamped_new (numSets numWays : Int) (blockSize : UInt64) : (newStorage numSets numWays blockSize).Stamped := by
  have empty : ∀ i, (newStorage numSets numWays blockSize).set i = .empty (newStorage numSets numWays blockSize).numWays := by
    intro i
    unfold set
    cases found : (newStorage numSets numWays blockSize).sets[i]? with
    | none => rfl
    | some set => exact List.eq_of_mem_replicate (List.mem_of_getElem? found)
  have unused : ∀ i way, ((newStorage numSets numWays blockSize).set i).usedAt way = 0 := by
    intro i way
    rw [empty,CacheSet.usedAt,CacheSet.empty,List.getElem?_replicate]
    split_ifs <;> rfl
  refine ⟨fun i way => ?_,fun same pos => ?_,?_⟩
  · rw [unused]
    exact Nat.zero_le _
  · rw [unused] at pos
    exact absurd pos (Nat.lt_irrefl 0)
  · rintro i way ⟨l,there,_⟩
    rw [empty,CacheSet.line,CacheSet.empty,List.getElem?_replicate] at there
    split_ifs at there <;> cases there

/-! ### Who has to go -/

/-- A way of the set of the address holds no valid line. -/
def Free (c : Storage) (addr : UInt64) (way : Nat) : Prop :=
  way < c.numWays ∧ ¬ (c.set (c.getSetIndex addr)).HoldsValid way

/-- An operation that places a block replaces a valid line of another one only when there is
    no free way, and takes a free way otherwise. -/
structure EvictsNeedfully (c : Storage) (op : LineOp) (c' : Storage) : Prop where
  only_full : ∀ addr, op.placed = some addr → ∀ way l, (c.set (c.getSetIndex addr)).line way = some l → l.state ≠ .invalid →
    l.addr ≠ c.getBlockAddr addr → (c'.set (c.getSetIndex addr)).line way ≠ some l → ∀ other, ¬ c.Free addr other
  takes_free : ∀ addr, op.placed = some addr → c.find addr = none → (∃ other, c.Free addr other) →
    ∃ way l, c.Free addr way ∧ (c'.set (c.getSetIndex addr)).line way = some l ∧ l.addr = c.getBlockAddr addr

/-- Where a block is to be placed that has no line, and there is a free way, one was free
    and not used since every valid line of the set was. -/
def FreeUsedBefore (c : Storage) (op : LineOp) : Prop :=
  ∀ addr, op.placed = some addr → c.find addr = none → (∃ other, c.Free addr other) →
    ∃ free, c.Free addr free ∧ ∀ way < c.numWays, (c.set (c.getSetIndex addr)).HoldsValid way →
      (c.set (c.getSetIndex addr)).usedAt free < (c.set (c.getSetIndex addr)).usedAt way

section
variable {c c' : Storage} {addr : UInt64}

/-- The way used least recently is free when a free way was used before all valid lines. -/
theorem Stamped.free_findLRUWay_iff (stamped : c.Stamped) (wf : c.WellFormed) (addr : UInt64) :
    c.Free addr (c.set (c.getSetIndex addr)).findLRUWay ↔ ∃ free, c.Free addr free ∧ ∀ way < c.numWays,
      (c.set (c.getSetIndex addr)).HoldsValid way →
        (c.set (c.getSetIndex addr)).usedAt free < (c.set (c.getSetIndex addr)).usedAt way := by
  have counters := (wf.ways _ (wf.set_mem addr)).2
  have least : ∀ way < c.numWays, (c.set (c.getSetIndex addr)).usedAt (c.set (c.getSetIndex addr)).findLRUWay ≤
      (c.set (c.getSetIndex addr)).usedAt way := by
    intro way within
    rw [← counters] at within
    exact CacheSet.usedAt_findLRUWay_le within
  have within : (c.set (c.getSetIndex addr)).findLRUWay < c.numWays := by
    rw [← counters]
    exact findLRUWay_lt (by rw [counters]; exact wf.numWays_pos)
  constructor
  · intro free
    refine ⟨_,free,fun way inside valid => lt_of_le_of_ne (least way inside) ?_⟩
    intro same
    have is_used := stamped.used valid
    rw [← same] at is_used
    exact free.2 (stamped.once same is_used ▸ valid)
  · rintro ⟨free,isFree,before⟩
    refine ⟨within,fun valid => ?_⟩
    have le := least free isFree.1
    have lt := before _ within valid
    omega

theorem wayFor_of_absent (nowhere : c.find addr = none) : c.wayFor addr = (c.set (c.getSetIndex addr)).findLRUWay := by
  rw [wayFor,nowhere]
  rfl

/-- An operation evicts needfully just when a free way was used before all valid lines. -/
theorem Stamped.evictsNeedfully_iff (stamped : c.Stamped) (wf : c.WellFormed) {op : LineOp} (stepped : c.step op = some c') :
    c.EvictsNeedfully op c' ↔ c.FreeUsedBefore op := by
  have written : ∀ addr, op.placed = some addr → ∃ l, l.addr = c.getBlockAddr addr ∧
      (c'.set (c.getSetIndex addr)).line (c.wayFor addr) = some l ∧
      ∀ way, way ≠ c.wayFor addr → (c'.set (c.getSetIndex addr)).line way = (c.set (c.getSetIndex addr)).line way := by
    intro addr places
    obtain ⟨l,rfl,home⟩ := placed_step stepped places
    have wrote := @wrote_use c _ _ (some l) wf (wf.getSetIndex_lt addr) (wf.wayFor_lt addr)
    exact ⟨l,home,wrote.here,fun way other => wrote.elsewhere _ way (.inr other)⟩
  constructor
  · intro needful addr places nowhere some_free
    refine (stamped.free_findLRUWay_iff wf addr).mp ?_
    obtain ⟨l,home,here,_⟩ := written addr places
    rw [wayFor_of_absent nowhere] at here
    by_contra taken
    obtain ⟨old,there,valid⟩ : (c.set (c.getSetIndex addr)).HoldsValid (c.set (c.getSetIndex addr)).findLRUWay := by
      by_contra invalid
      exact taken ⟨wayFor_of_absent nowhere ▸ wf.wayFor_lt addr,invalid⟩
    have different : old.addr ≠ c.getBlockAddr addr := by
      intro same
      have found := wf.find_eq_some there same valid
      rw [nowhere] at found
      cases found
    have replaced : (c'.set (c.getSetIndex addr)).line (c.set (c.getSetIndex addr)).findLRUWay ≠ some old := by
      rw [here]
      intro same
      exact different (Option.some.inj same ▸ home)
    obtain ⟨free,isFree⟩ := some_free
    exact needful.only_full addr places _ old there valid different replaced free isFree
  · intro before
    constructor
    case only_full =>
      intro addr places way old there valid different replaced free isFree
      obtain ⟨_,_,_,elsewhere⟩ := written addr places
      have here : way = c.wayFor addr := by
        by_contra other
        exact replaced ((elsewhere way other).trans there)
      cases found : c.find addr with
      | some own =>
        obtain ⟨l,there',home,_⟩ := findWay_eq_some found
        have own_way : c.wayFor addr = own := by
          rw [wayFor,found]
          rfl
        rw [here,own_way,there'] at there
        exact different (Option.some.inj there ▸ home)
      | none =>
        have isLast := (stamped.free_findLRUWay_iff wf addr).mpr (before addr places found ⟨free,isFree⟩)
        rw [← wayFor_of_absent found,← here] at isLast
        exact isLast.2 ⟨old,there,valid⟩
    case takes_free =>
      intro addr places nowhere some_free
      obtain ⟨l,home,here,_⟩ := written addr places
      refine ⟨c.wayFor addr,l,?_,here,home⟩
      rw [wayFor_of_absent nowhere]
      exact (stamped.free_findLRUWay_iff wf addr).mpr (before addr places nowhere some_free)

end

/-- For all sizes and all operations: every operation of a run evicts needfully just when
    wherever one places a block that has no line and there is a free way, one was free and not
    used since every valid line of the set was. -/
theorem evicts_needfully_iff (numSets numWays : Int) (blockSize : UInt64) (ops : List LineOp) :
    (∀ taken ∈ trace step (newStorage numSets numWays blockSize) ops, taken.1.EvictsNeedfully taken.2.1 taken.2.2) ↔
      ∀ taken ∈ trace step (newStorage numSets numWays blockSize) ops, taken.1.FreeUsedBefore taken.2.1 :=
  @trace_forall_iff _ _ step (fun c => c.WellFormed ∧ c.Stamped) EvictsNeedfully FreeUsedBefore
    (fun sound stepped => sound.2.evictsNeedfully_iff sound.1 stepped)
    (fun sound stepped _ => ⟨sound.1.step stepped,sound.2.step sound.1 stepped⟩) _ _
    ⟨wellFormed_new numSets numWays blockSize,stamped_new numSets numWays blockSize⟩

/-- Two blocks fill a set of two ways, and the one used last is invalidated: a third block
    then takes the way of the other one, not the free way. -/
theorem evicts_beside_free : ∃ c c' : Storage, Reachable step (newStorage 1 2 64) c ∧
    c.step (.fill 128 none .shared) = some c' ∧ ¬ c.EvictsNeedfully (.fill 128 none .shared) c' := by
  let before : List LineOp := [.fill 0 none .shared,.fill 64 none .shared,.invalidate 64]
  have ends : ((runActions step (fun _ _ => True) before (newStorage 1 2 64)).bind fun c =>
      (c.step (.fill 128 none .shared)).map fun c' => ((c.getSetIndex 128,c.numWays,c.getBlockAddr 128),
        ((c.set 0).line 0,(c.set 0).line 1),(c'.set 0).line 0)) =
      some ((0,2,128),(some ⟨0,.shared,some []⟩,none),some ⟨128,.shared,some []⟩) := by decide +kernel
  obtain ⟨c,ran,last⟩ := Option.bind_eq_some_iff.mp ends
  obtain ⟨c',stepped,all⟩ := Option.map_eq_some_iff.mp last
  simp only [Prod.mk.injEq] at all
  obtain ⟨⟨index,ways,block⟩,⟨first,second⟩,after⟩ := all
  refine ⟨c,c',reaches_runActions before ran,stepped,fun needful => ?_⟩
  refine needful.only_full 128 rfl 0 ⟨0,.shared,some []⟩ ?_ (by decide) ?_ ?_ 1 ⟨?_,?_⟩
  · rw [index]
    exact first
  · rw [block]
    decide
  · rw [index,after]
    decide
  · rw [ways]
    decide
  · rw [index]
    rintro ⟨l,there,_⟩
    rw [second] at there
    cases there

end Storage
end FlowSim.Cache
