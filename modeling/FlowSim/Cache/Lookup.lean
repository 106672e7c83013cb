import FlowSim.Cache.Storage

/-!
What a storage holds, block by block. In a well-formed storage a block has at most one
valid line, in its own set; writing a line into a way changes what the storage holds of
the line's block, and of the block that had the way (`lineOf_wrote`, `lineOf_wrote_other`).
-/
namespace FlowSim.Cache
set_option linter.unusedSimpArgs false

namespace Storage

/-- The valid line of a block. -/
def lineOf (c : Storage) (addr : UInt64) : Option CacheLine := (c.find addr).bind (c.set (c.getSetIndex addr)).line

/-- The state of a block. -/
def getState (c : Storage) (addr : UInt64) : State := (c.lineOf addr).elim .invalid CacheLine.state

/-- Every set has its ways, and every valid line is in the set of its block, once. -/
structure WellFormed (c : Storage) : Prop where
  blockSize : c.blockSize ≠ 0
  numSets : c.sets.length = c.numSets
  numSets_pos : 0 < c.numSets
  numWays_pos : 0 < c.numWays
  ways : ∀ set ∈ c.sets, set.lines.length = c.numWays ∧ set.lruCounters.length = c.numWays
  home : ∀ {i way : Nat} {line : CacheLine}, (c.set i).line way = some line → line.state ≠ .invalid →
    c.getSetIndex line.addr = i ∧ c.getBlockAddr line.addr = line.addr
  unique : ∀ {i way way' : Nat} {line line' : CacheLine}, (c.set i).line way = some line → (c.set i).line way' = some line' →
    line.state ≠ .invalid → line'.state ≠ .invalid → line.addr = line'.addr → way = way'

section
variable {c c' : Storage} {addr other : UInt64} {i way : Nat} {line : Option CacheLine}

theorem getBlockAddr_getBlockAddr (c : Storage) (addr : UInt64) : c.getBlockAddr (c.getBlockAddr addr) = c.getBlockAddr addr :=
  div_mul_div_mul ..

theorem WellFormed.getSetIndex_getBlockAddr (wf : c.WellFormed) (addr : UInt64) :
    c.getSetIndex (c.getBlockAddr addr) = c.getSetIndex addr := by
  unfold getSetIndex getBlockAddr
  rw [div_mul_div wf.blockSize]

/-- Addresses of one block are in one set. -/
theorem WellFormed.getSetIndex_eq (wf : c.WellFormed) (same : c.getBlockAddr other = c.getBlockAddr addr) :
    c.getSetIndex other = c.getSetIndex addr := by
  rw [← wf.getSetIndex_getBlockAddr other,same,wf.getSetIndex_getBlockAddr]

theorem WellFormed.getSetIndex_lt (wf : c.WellFormed) (addr : UInt64) : c.getSetIndex addr < c.sets.length := by
  rw [wf.numSets]
  exact Nat.mod_lt _ wf.numSets_pos

theorem WellFormed.set_mem (wf : c.WellFormed) (addr : UInt64) : c.set (c.getSetIndex addr) ∈ c.sets := by
  unfold set
  rw [List.getElem?_eq_getElem (wf.getSetIndex_lt addr)]
  exact List.getElem_mem _

theorem line_lt {set : CacheSet} {l : CacheLine} (there : set.line way = some l) : way < set.lines.length := by
  by_contra outside
  rw [CacheSet.line,List.getElem?_eq_none (by omega)] at there
  cases there

/-- A block is found in the way that has it. -/
theorem WellFormed.find_eq_some (wf : c.WellFormed) {l : CacheLine} (there : (c.set (c.getSetIndex addr)).line way = some l)
    (same : l.addr = c.getBlockAddr addr) (valid : l.state ≠ .invalid) : c.find addr = some way := by
  cases found : c.find addr with
  | none =>
    have inside := line_lt there
    have nowhere := List.findIdx?_eq_none_iff.mp found _ (List.getElem_mem inside)
    rw [CacheSet.line,List.getElem?_eq_getElem inside] at there
    rw [show (c.set (c.getSetIndex addr)).lines[way] = some l from there] at nowhere
    exact absurd (show l.addr = c.getBlockAddr addr ∧ l.state ≠ .invalid from ⟨same,valid⟩) (of_decide_eq_false nowhere)
  | some first =>
    obtain ⟨l',there',same',valid'⟩ := findWay_eq_some found
    rw [wf.unique there' there valid' valid (same'.trans same.symm)]

theorem WellFormed.lineOf_eq_some_iff (wf : c.WellFormed) {l : CacheLine} : c.lineOf addr = some l ↔
    l.addr = c.getBlockAddr addr ∧ l.state ≠ .invalid ∧ ∃ way, (c.set (c.getSetIndex addr)).line way = some l := by
  constructor
  · intro holds
    obtain ⟨way,found,there⟩ := Option.bind_eq_some_iff.mp holds
    obtain ⟨l',there',same,valid⟩ := findWay_eq_some found
    obtain rfl : l' = l := Option.some.inj (there'.symm.trans there)
    exact ⟨same,valid,way,there⟩
  · rintro ⟨same,valid,way,there⟩
    rw [lineOf,wf.find_eq_some there same valid]
    exact there

theorem WellFormed.lineOf_eq_none_iff (wf : c.WellFormed) : c.lineOf addr = none ↔ c.find addr = none := by
  constructor
  · intro nothing
    cases found : c.find addr with
    | none => rfl
    | some way =>
      obtain ⟨l,there,same,valid⟩ := findWay_eq_some found
      rw [wf.lineOf_eq_some_iff.mpr ⟨same,valid,way,there⟩] at nothing
      cases nothing
  · intro nowhere
    rw [lineOf,nowhere]
    rfl

/-- Addresses of one block have one line. -/
theorem WellFormed.lineOf_congr (wf : c.WellFormed) (same : c.getBlockAddr other = c.getBlockAddr addr) :
    c.lineOf other = c.lineOf addr := by
  unfold lineOf find
  rw [wf.getSetIndex_eq same,same]

/-! ### Writing a line -/

/-- The second storage is the first with another line in one way. -/
structure Wrote (c c' : Storage) (i way : Nat) (line : Option CacheLine) : Prop where
  numSets : c'.numSets = c.numSets
  numWays : c'.numWays = c.numWays
  blockSize : c'.blockSize = c.blockSize
  length : c'.sets.length = c.sets.length
  ways : ∀ set' ∈ c'.sets, ∃ set ∈ c.sets, set'.lines.length = set.lines.length ∧ set'.lruCounters.length = set.lruCounters.length
  here : (c'.set i).line way = line
  elsewhere : ∀ j w, j ≠ i ∨ w ≠ way → (c'.set j).line w = (c.set j).line w

theorem wrote_modify (wf : c.WellFormed) (inside : i < c.sets.length) (within : way < c.numWays) (change : CacheSet → CacheSet)
    (sized : ∀ set, (change set).lines.length = set.lines.length ∧ (change set).lruCounters.length = set.lruCounters.length)
    (changed : ∀ set w, (change set).line w = (set.setLine way line).line w) (lruClock : Nat) :
    Wrote c { c with lruClock, sets := c.sets.modify i change } i way line where
  numSets := rfl
  numWays := rfl
  blockSize := rfl
  length := List.length_modify ..
  ways := by
    intro set' member
    obtain ⟨j,found⟩ := List.mem_iff_getElem?.mp member
    rw [List.getElem?_modify] at found
    obtain ⟨set,there,same⟩ := Option.map_eq_some_iff.mp found
    refine ⟨set,List.mem_of_getElem? there,?_⟩
    rw [← same]
    split_ifs
    · exact sized set
    · exact ⟨rfl,rfl⟩
  here := by
    have lines : ((c.sets[i]).setLine way line).line way = line := by
      have wide : way < (c.sets[i]).lines.length := by
        rw [(wf.ways _ (List.getElem_mem inside)).1]
        exact within
      rw [CacheSet.line,CacheSet.setLine,List.getElem?_set_self wide,Option.join_some]
    unfold set
    rw [List.getElem?_modify_eq,List.getElem?_eq_getElem inside]
    exact (changed _ way).trans lines
  elsewhere := by
    intro j w other
    unfold set
    rw [List.getElem?_modify]
    by_cases same : i = j
    · have different : way ≠ w := fun equal => other.elim (fun h => h same.symm) (fun h => h equal.symm)
      subst same
      rw [List.getElem?_eq_getElem inside]
      simp only [Option.map_eq_map,Option.map_some,Option.getD_some,if_true]
      rw [changed,CacheSet.line,CacheSet.setLine,List.getElem?_set_ne different]
      rfl
    · simp only [if_neg same]
      cases c.sets[j]? <;> rfl

theorem wrote_use (wf : c.WellFormed) (inside : i < c.sets.length) (within : way < c.numWays) :
    Wrote c (c.use i way line) i way line := by
  refine wrote_modify wf inside within _ ?_ ?_ _
  · intro set
    exact ⟨List.length_set,List.length_set⟩
  · intro set w
    rfl

/-- A line may be written over the line of its block, or anywhere in the set of a block that
    has none. -/
structure MayWrite (c : Storage) (addr : UInt64) (way : Nat) (line : Option CacheLine) : Prop where
  within : way < c.numWays
  place : c.find addr = some way ∨ c.find addr = none
  same : ∀ l, line = some l → l.addr = c.getBlockAddr addr

theorem WellFormed.wrote (wf : c.WellFormed) (may : MayWrite c addr way line)
    (wrote : Wrote c c' (c.getSetIndex addr) way line) : c'.WellFormed := by
  have index : ∀ a, c'.getSetIndex a = c.getSetIndex a := fun a => by
    unfold getSetIndex
    rw [wrote.blockSize,wrote.numSets]
  have block : ∀ a, c'.getBlockAddr a = c.getBlockAddr a := fun a => by
    unfold getBlockAddr
    rw [wrote.blockSize]
  -- another way of the set cannot have the block
  have alone : ∀ {w : Nat} {l : CacheLine}, (c.set (c.getSetIndex addr)).line w = some l → l.state ≠ .invalid →
      l.addr = c.getBlockAddr addr → w = way := by
    intro w l there valid same
    have found := wf.find_eq_some there same valid
    rcases may.place with here | nowhere
    · rw [found] at here
      exact Option.some.inj here
    · rw [found] at nowhere
      cases nowhere
  constructor
  case blockSize => rw [wrote.blockSize]; exact wf.blockSize
  case numSets => rw [wrote.length,wrote.numSets]; exact wf.numSets
  case numSets_pos => rw [wrote.numSets]; exact wf.numSets_pos
  case numWays_pos => rw [wrote.numWays]; exact wf.numWays_pos
  case ways =>
    intro set' member
    obtain ⟨set,before,lines,counters⟩ := wrote.ways set' member
    rw [lines,counters,wrote.numWays]
    exact wf.ways set before
  case home =>
    intro j w l there valid
    rw [index,block]
    by_cases here : j = c.getSetIndex addr ∧ w = way
    · obtain ⟨rfl,rfl⟩ := here
      rw [wrote.here] at there
      rw [may.same l there,wf.getSetIndex_getBlockAddr,getBlockAddr_getBlockAddr]
      exact ⟨rfl,rfl⟩
    · rw [wrote.elsewhere j w (by tauto)] at there
      exact wf.home there valid
  case unique =>
    intro j w w' l l' there there' valid valid' same
    by_cases here : j = c.getSetIndex addr ∧ w = way
    · obtain ⟨rfl,rfl⟩ := here
      by_contra different
      rw [wrote.here] at there
      rw [wrote.elsewhere _ w' (.inr (Ne.symm different))] at there'
      exact different (alone there' valid' (same.symm.trans (may.same l there))).symm
    · rw [wrote.elsewhere j w (by tauto)] at there
      by_cases here' : j = c.getSetIndex addr ∧ w' = way
      · obtain ⟨rfl,rfl⟩ := here'
        rw [wrote.here] at there'
        exact alone there valid (same.trans (may.same l' there'))
      · rw [wrote.elsewhere j w' (by tauto)] at there'
        exact wf.unique there there' valid valid' same

/-- What the storage then holds of the line's block. -/
theorem WellFormed.lineOf_wrote (wf : c.WellFormed) (may : MayWrite c addr way line)
    (wrote : Wrote c c' (c.getSetIndex addr) way line) (same : c.getBlockAddr other = c.getBlockAddr addr) :
    c'.lineOf other = line.filter fun l => l.state ≠ .invalid := by
  have wf' := wf.wrote may wrote
  have index : c'.getSetIndex other = c.getSetIndex addr := by
    rw [← wf.getSetIndex_eq same]
    unfold getSetIndex
    rw [wrote.blockSize,wrote.numSets]
  have block : c'.getBlockAddr other = c.getBlockAddr addr := by
    rw [← same]
    unfold getBlockAddr
    rw [wrote.blockSize]
  apply Option.ext
  intro l
  rw [wf'.lineOf_eq_some_iff,index,block,Option.filter_eq_some_iff]
  constructor
  · rintro ⟨equal,valid,w,there⟩
    by_cases here : w = way
    · rw [here,wrote.here] at there
      exact ⟨there,decide_eq_true valid⟩
    · rw [wrote.elsewhere _ w (.inr here)] at there
      have found := wf.find_eq_some there equal valid
      rcases may.place with place | nowhere
      · rw [found] at place
        exact absurd (Option.some.inj place) here
      · rw [found] at nowhere
        cases nowhere
  · rintro ⟨there,valid⟩
    exact ⟨may.same l there,of_decide_eq_true valid,way,wrote.here.trans there⟩

/-- And what it holds of another block: the same, unless that block had the way. -/
theorem WellFormed.lineOf_wrote_other (wf : c.WellFormed) (may : MayWrite c addr way line)
    (wrote : Wrote c c' (c.getSetIndex addr) way line) (different : c.getBlockAddr other ≠ c.getBlockAddr addr) :
    c'.lineOf other = c.lineOf other ∨
    c.find addr = none ∧ c'.lineOf other = none ∧ c.lineOf other = (c.set (c.getSetIndex addr)).line way ∧ (c.lineOf other).isSome := by
  have wf' := wf.wrote may wrote
  have index : c'.getSetIndex other = c.getSetIndex other := by
    unfold getSetIndex
    rw [wrote.blockSize,wrote.numSets]
  have block : c'.getBlockAddr other = c.getBlockAddr other := by
    unfold getBlockAddr
    rw [wrote.blockSize]
  have kept : ∀ {l : CacheLine}, c'.lineOf other = some l → c.lineOf other = some l := by
    intro l holds
    obtain ⟨equal,valid,w,there⟩ := wf'.lineOf_eq_some_iff.mp holds
    rw [index,block] at *
    refine wf.lineOf_eq_some_iff.mpr ⟨equal,valid,w,?_⟩
    by_cases here : c.getSetIndex other = c.getSetIndex addr ∧ w = way
    · rw [here.1,here.2,wrote.here] at there
      exact absurd (equal.symm.trans (may.same l there)) different
    · rw [← wrote.elsewhere _ w (by tauto)]
      exact there
  cases holds' : c'.lineOf other with
  | some l => exact .inl (kept holds').symm
  | none =>
    cases holds : c.lineOf other with
    | none => exact .inl rfl
    | some l =>
      obtain ⟨equal,valid,w,there⟩ := wf.lineOf_eq_some_iff.mp holds
      by_cases here : c.getSetIndex other = c.getSetIndex addr ∧ w = way
      · rw [here.1,here.2] at there
        refine .inr ⟨?_,rfl,there.symm,rfl⟩
        rcases may.place with found | nowhere
        · obtain ⟨l',there',same,_⟩ := findWay_eq_some found
          rw [there] at there'
          cases there'
          exact absurd (equal.symm.trans same) different
        · exact nowhere
      · have still : c'.lineOf other = some l := wf'.lineOf_eq_some_iff.mpr ⟨equal.trans block.symm,valid,w,by
          rw [index,wrote.elsewhere _ w (by tauto)]
          exact there⟩
        rw [holds'] at still
        cases still

/-! ### Where a block is put -/

theorem findLRUFrom_lt : ∀ (rest : List Nat) (way : Nat) (best : Nat × Nat), best.1 < way + rest.length →
    CacheSet.findLRUFrom way rest best < way + rest.length
  | [], _, _, below => below
  | counter :: rest, way, best, below => by
    rw [List.length_cons] at below ⊢
    have start : (if counter < best.2 then (way,counter) else best).1 < way + 1 + rest.length := by
      split_ifs
      · show way < _
        omega
      · omega
    have later := findLRUFrom_lt rest (way + 1) _ start
    show CacheSet.findLRUFrom (way + 1) rest _ < _
    omega

theorem findLRUWay_lt {set : CacheSet} (pos : 0 < set.lruCounters.length) : set.findLRUWay < set.lruCounters.length := by
  unfold CacheSet.findLRUWay
  cases counters : set.lruCounters with
  | nil =>
    rw [counters] at pos
    exact pos
  | cons counter rest =>
    have below := findLRUFrom_lt rest 1 (0,counter) (by dsimp only; omega)
    rw [List.length_cons]
    dsimp only
    omega

/-- The way of a block: its own, or the one that was used least recently. -/
def wayFor (c : Storage) (addr : UInt64) : Nat := (c.find addr).getD (c.set (c.getSetIndex addr)).findLRUWay

theorem WellFormed.find_lt (wf : c.WellFormed) (found : c.find addr = some way) : way < c.numWays := by
  obtain ⟨l,there,_⟩ := findWay_eq_some found
  rw [← (wf.ways _ (wf.set_mem addr)).1]
  exact line_lt there

theorem WellFormed.mayWrite (wf : c.WellFormed) (same : ∀ l, line = some l → l.addr = c.getBlockAddr addr) :
    MayWrite c addr (c.wayFor addr) line := by
  cases found : c.find addr with
  | some way =>
    have here : c.wayFor addr = way := by
      rw [wayFor,found]
      rfl
    rw [here]
    exact ⟨wf.find_lt found,.inl found,same⟩
  | none =>
    refine ⟨?_,.inr found,same⟩
    have counters := (wf.ways _ (wf.set_mem addr)).2
    rw [wayFor,found,← counters]
    exact findLRUWay_lt (by rw [counters]; exact wf.numWays_pos)

theorem fill_eq (c : Storage) (addr : UInt64) (data : List UInt8) (state : State) :
    (c.fill addr data state).2 =
      c.use (c.getSetIndex addr) (c.wayFor addr) (some { addr := c.getBlockAddr addr, state, data := some data }) := by
  unfold fill wayFor
  cases c.find addr with
  | some way => rfl
  | none => rfl

theorem blockSize_access (c : Storage) (addr : UInt64) (isWrite : Bool) : (c.access addr isWrite).2.blockSize = c.blockSize := by
  rcases c.access_cases addr isWrite with ⟨_,missed⟩ | ⟨_,_,_,_,_,_,used⟩
  · rw [missed]
  · rw [used]
    rfl

theorem blockSize_fill (c : Storage) (addr : UInt64) (data : List UInt8) (state : State) :
    (c.fill addr data state).2.blockSize = c.blockSize := by
  rw [fill_eq]
  rfl

/-- A fill puts the line there, and every other block keeps its line, or is the one whose
    eviction the fill reports. -/
theorem WellFormed.fill (wf : c.WellFormed) (addr : UInt64) (data : List UInt8) {state : State} (valid : state ≠ .invalid) :
    let filled := c.fill addr data state
    filled.2.WellFormed ∧
    (∀ other, c.getBlockAddr other = c.getBlockAddr addr →
      filled.2.lineOf other = some { addr := c.getBlockAddr addr, state, data := some data }) ∧
    ∀ other, c.getBlockAddr other ≠ c.getBlockAddr addr → filled.2.lineOf other = c.lineOf other ∨
      filled.2.lineOf other = none ∧ ∃ l, c.lineOf other = some l ∧ filled.1 = (l.addr,decide (l.state = .modified)) := by
  intro filled
  have may : MayWrite c addr (c.wayFor addr) (some { addr := c.getBlockAddr addr, state, data := some data }) :=
    wf.mayWrite fun l same => by rw [← Option.some.inj same]
  have wrote : Wrote c filled.2 (c.getSetIndex addr) (c.wayFor addr) (some { addr := c.getBlockAddr addr, state, data := some data }) := by
    rw [show filled.2 = _ from c.fill_eq addr data state]
    exact wrote_use wf (wf.getSetIndex_lt addr) may.within
  refine ⟨wf.wrote may wrote,?_,?_⟩
  · intro other same
    rw [wf.lineOf_wrote may wrote same]
    exact Option.filter_some_pos (decide_eq_true valid)
  · intro other different
    rcases wf.lineOf_wrote_other may wrote different with same | ⟨nowhere,gone,had,held⟩
    · exact .inl same
    · obtain ⟨l,holds⟩ := Option.isSome_iff_exists.mp held
      refine .inr ⟨gone,l,holds,?_⟩
      have victim : (c.set (c.getSetIndex addr)).line (c.set (c.getSetIndex addr)).findLRUWay = some l := by
        rw [← holds,had,wayFor,nowhere]
        rfl
      show (c.fill addr data state).1 = _
      unfold Storage.fill
      rw [nowhere]
      dsimp only
      rw [victim]

/-- A hit uses the line of the block, and a write makes it modified; nothing else changes. -/
theorem WellFormed.access (wf : c.WellFormed) (addr : UInt64) (isWrite : Bool) :
    let accessed := c.access addr isWrite
    accessed.2.WellFormed ∧
    (∀ other, c.getBlockAddr other = c.getBlockAddr addr → accessed.2.lineOf other =
      (c.lineOf other).map fun l => { l with state := if isWrite then .modified else l.state }) ∧
    ∀ other, c.getBlockAddr other ≠ c.getBlockAddr addr → accessed.2.lineOf other = c.lineOf other := by
  intro accessed
  rcases c.access_cases addr isWrite with ⟨nowhere,missed⟩ | ⟨way,l,found,there,same,valid,used⟩
  · rw [show accessed = _ from missed]
    refine ⟨wf,?_,fun other _ => rfl⟩
    intro other same
    rw [wf.lineOf_congr same,wf.lineOf_eq_none_iff.mpr nowhere]
    rfl
  · have may : MayWrite c addr way (some { l with state := if isWrite then .modified else l.state }) :=
      ⟨wf.find_lt found,.inl found,fun l' equal => by rw [← Option.some.inj equal]; exact same⟩
    have wrote : Wrote c accessed.2 (c.getSetIndex addr) way (some { l with state := if isWrite then .modified else l.state }) := by
      rw [show accessed = _ from used]
      exact wrote_use wf (wf.getSetIndex_lt addr) may.within
    refine ⟨wf.wrote may wrote,?_,?_⟩
    · intro other equal
      rw [wf.lineOf_wrote may wrote equal,wf.lineOf_congr equal,wf.lineOf_eq_some_iff.mpr ⟨same,valid,way,there⟩]
      refine Option.filter_some_pos (decide_eq_true ?_)
      dsimp only
      split_ifs
      · decide
      · exact valid
    · intro other different
      rcases wf.lineOf_wrote_other may wrote different with kept | ⟨nowhere,_⟩
      · exact kept
      · rw [found] at nowhere
        cases nowhere

/-- A new storage holds nothing. -/
theorem wellFormed_new (numSets numWays : Int) (blockSize : UInt64) : (newStorage numSets numWays blockSize).WellFormed := by
  have no_line : ∀ i way, ((newStorage numSets numWays blockSize).set i).line way = none := by
    intro i way
    have empty : (newStorage numSets numWays blockSize).set i = .empty (newStorage numSets numWays blockSize).numWays := by
      unfold set
      cases found : (newStorage numSets numWays blockSize).sets[i]? with
      | none => rfl
      | some set => exact List.eq_of_mem_replicate (List.mem_of_getElem? found)
    rw [empty,CacheSet.line,CacheSet.empty,List.getElem?_replicate]
    split_ifs <;> rfl
  constructor
  case blockSize =>
    unfold newStorage
    dsimp only
    split_ifs with zero
    · decide
    · exact zero
  case numSets => exact List.length_replicate
  case numSets_pos =>
    unfold newStorage
    dsimp only
    split_ifs <;> omega
  case numWays_pos =>
    unfold newStorage
    dsimp only
    split_ifs <;> omega
  case ways =>
    intro set member
    rw [List.eq_of_mem_replicate member]
    exact ⟨List.length_replicate,List.length_replicate⟩
  case home =>
    intro i way line there
    rw [no_line] at there
    cases there
  case unique =>
    intro i way way' line line' there
    rw [no_line] at there
    cases there

end

end Storage
end FlowSim.Cache
