import FlowSim.Cache.FullyAssociativeCache

/-!
Addresses of one block in the fully associative cache. Accesses and fills go to the block
of their address, all other operations to the address itself, so that two addresses of a
block can be exchanged for each other in the former only, and a block gets a second line
when the latter allocate one (`interchangeable_iff`).
-/
namespace FlowSim.Cache
open FlowSim.Lib
set_option linter.unusedSimpArgs false

/-- The operations on an address. -/
inductive AddrOp where
  | access (isWrite : Bool)
  | fill (data : Option (List UInt8)) (state : State)
  | getState
  | setState (state : State)
  | getData
  | setData (data : Option (List UInt8))
  | invalidate
  | isPresent
  | handleSnoop (op : SnoopOpcode)
  | canForward

/-- What an operation returns. -/
inductive Result where
  | accessed (result : AccessResult)
  | filled (evicted : UInt64 × Bool)
  | state (state : State)
  | data (data : Option (List UInt8))
  | bool (result : Bool)
  | snooped (response : SnoopResponse)
  | nothing

namespace FullyAssociativeCache

def canForward (c : FullyAssociativeCache) (addr : UInt64) : Bool :=
  (c.lines.lookup addr).any fun line => decide (line.state = .modified ∨ line.state = .exclusive ∨ line.state = .owned)

/-- An operation on an address, with the line that goes when there is no room. -/
def perform (c : FullyAssociativeCache) (victim : UInt64) (op : AddrOp) (addr : UInt64) : Option (Result × FullyAssociativeCache) :=
  match op with
  | .access isWrite => (c.access addr isWrite).map fun (result,c) => (.accessed result,c)
  | .fill data state => (c.fill victim addr data state).map fun (evicted,c) => (.filled evicted,c)
  | .getState => some (.state (c.getState addr),c)
  | .setState state => (c.setState victim addr state).map fun c => (.nothing,c)
  | .getData => some (.data (c.getData addr),c)
  | .setData data => (c.setData victim addr data).map fun c => (.nothing,c)
  | .invalidate => some (.nothing,c.invalidate addr)
  | .isPresent => some (.bool (c.isPresent addr),c)
  | .handleSnoop op => some (.snooped (c.handleSnoop op addr).1,(c.handleSnoop op addr).2)
  | .canForward => some (.bool (c.canForward addr),c)

/-! ### One block -/

/-- The addresses are in one block. -/
def SameBlock (c : FullyAssociativeCache) (addr other : UInt64) : Prop := c.getBlockAddr addr = c.getBlockAddr other

/-- The same result, and the same line at every address. -/
def Alike (first second : Result × FullyAssociativeCache) : Prop :=
  first.1 = second.1 ∧ ∀ addr, first.2.lines.lookup addr = second.2.lines.lookup addr

/-- The operation does the same with either address, whatever line goes. -/
def Interchangeable (c : FullyAssociativeCache) (op : AddrOp) (addr other : UInt64) : Prop :=
  ∀ victim, Option.Rel Alike (c.perform victim op addr) (c.perform victim op other)

/-- No block has two lines. -/
def OneLine (c : FullyAssociativeCache) : Prop := ∀ addr ∈ c.lines, ∀ other ∈ c.lines, c.SameBlock addr other → addr = other

/-- The address at which an operation puts a line when it finds none. -/
def placedAt (c : FullyAssociativeCache) : LineOp → Option UInt64
  | .fill addr _ _ => c.getBlockAddr addr
  | .setState addr _ | .setData addr _ => some addr
  | _ => none

/-- A new line is put into a block that has none, or whose line is the one that goes. -/
def PlacesAlone (c : FullyAssociativeCache) (op : LineOp × UInt64) : Prop :=
  ∀ addr, c.placedAt op.1 = some addr → addr ∉ c.lines → ∀ other ∈ c.lines, c.SameBlock addr other →
    c.capacity ≤ c.lines.keys.length ∧ other = op.2

section
variable {c c' : FullyAssociativeCache} {addr other victim : UInt64}

theorem alike_refl (result : Option (Result × FullyAssociativeCache)) : Option.Rel Alike result result := by
  cases result with
  | none => exact .none
  | some result => exact .some ⟨rfl,fun _ => rfl⟩

/-- Accesses and fills look at the block of their address only. -/
theorem interchangeable_access (same : c.SameBlock addr other) (isWrite : Bool) :
    c.Interchangeable (.access isWrite) addr other := by
  intro victim
  have equal : c.access addr isWrite = c.access other isWrite := by
    unfold access
    rw [show c.getBlockAddr addr = c.getBlockAddr other from same]
  simp only [perform,equal]
  exact alike_refl _

theorem interchangeable_fill (same : c.SameBlock addr other) (data : Option (List UInt8)) (state : State) :
    c.Interchangeable (.fill data state) addr other := by
  intro victim
  have equal : c.fill victim addr data state = c.fill victim other data state := by
    unfold fill
    rw [show c.getBlockAddr addr = c.getBlockAddr other from same]
  simp only [perform,equal]
  exact alike_refl _

/-! ### Which lines there are -/

/-- The cache after a step has the same sizes; it has no new line, or one new line at the
    address of the operation, in the place of the victim when the cache was full. -/
structure Placed (c : FullyAssociativeCache) (op : LineOp × UInt64) (c' : FullyAssociativeCache) : Prop where
  capacity : c'.capacity = c.capacity
  blockSize : c'.blockSize = c.blockSize
  lines : (∀ addr ∈ c'.lines, addr ∈ c.lines) ∨
    ∃ addr, c.placedAt op.1 = some addr ∧ addr ∉ c.lines ∧
      ∀ other, other ∈ c'.lines ↔ other = addr ∨ other ∈ c.lines ∧ ¬ (c.capacity ≤ c.lines.keys.length ∧ other = op.2)
  fresh : ∀ addr, c.placedAt op.1 = some addr → addr ∉ c.lines → addr ∈ c'.lines

theorem mem_putLine (line : CacheLine) : other ∈ (c.putLine addr line).lines ↔ other = addr ∨ other ∈ c.lines :=
  AList.mem_insert c.lines

theorem mem_of_lookup {line : CacheLine} (held : c.lines.lookup addr = some line) : addr ∈ c.lines := by
  rw [← AList.lookup_isSome,held]
  rfl

/-- Room is made by giving up the victim of a full cache. -/
theorem mem_ensureCapacity (made : c.ensureCapacity victim = some c') : c'.capacity = c.capacity ∧ c'.blockSize = c.blockSize ∧
    ∀ other, other ∈ c'.lines ↔ other ∈ c.lines ∧ ¬ (c.capacity ≤ c.lines.keys.length ∧ other = victim) := by
  unfold ensureCapacity at made
  by_cases room : c.lines.keys.length < c.capacity
  · rw [if_pos room] at made
    obtain rfl := Option.some.inj made
    refine ⟨rfl,rfl,fun other => ⟨fun member => ⟨member,fun both => ?_⟩,fun both => both.1⟩⟩
    omega
  · rw [if_neg room] at made
    obtain ⟨_,evicted,rfl⟩ := Option.map_eq_some_iff.mp made
    obtain ⟨line,_,rfl⟩ := Option.map_eq_some_iff.mp evicted
    refine ⟨rfl,rfl,fun other => ?_⟩
    rw [AList.mem_erase]
    constructor
    · rintro ⟨different,member⟩
      exact ⟨member,fun both => different both.2⟩
    · rintro ⟨member,kept⟩
      exact ⟨fun same => kept ⟨by omega,same⟩,member⟩

theorem placed_new {op : LineOp} {line : CacheLine} {c₁ : FullyAssociativeCache} (absent : c.lines.lookup addr = none)
    (made : c.ensureCapacity victim = some c₁) (places : c.placedAt op = some addr) : Placed c (op,victim) (c₁.putLine addr line) := by
  obtain ⟨capacity,blockSize,lines⟩ := mem_ensureCapacity made
  refine ⟨capacity,blockSize,.inr ⟨addr,places,AList.lookup_eq_none.mp absent,fun other => ?_⟩,?_⟩
  · rw [mem_putLine,lines]
  · intro addr' places' _
    cases places.symm.trans places'
    exact (mem_putLine line).mpr (.inl rfl)

/-- A line that is there is written over. -/
theorem placed_old {op : LineOp} {line line' : CacheLine} (held : c.lines.lookup addr = some line)
    (places : ∀ addr', c.placedAt op = some addr' → addr' = addr) : Placed c (op,victim) (c.putLine addr line') := by
  refine ⟨rfl,rfl,.inl ?_,?_⟩
  · intro other member
    rcases (mem_putLine line').mp member with rfl | before
    · exact mem_of_lookup held
    · exact before
  · intro addr' places' absent
    rw [places addr' places'] at absent
    exact absurd (mem_of_lookup held) absent

theorem placed_unchanged {op : LineOp} (nowhere : c.placedAt op = none) : Placed c (op,victim) c :=
  ⟨rfl,rfl,.inl fun _ member => member,fun addr places => by rw [nowhere] at places; cases places⟩

theorem placed_step {op : LineOp × UInt64} (stepped : c.step op = some c') : Placed c op c' := by
  obtain ⟨op,victim⟩ := op
  cases op with
  | access addr isWrite =>
    obtain ⟨⟨result,_⟩,accessed,rfl⟩ := Option.map_eq_some_iff.mp stepped
    obtain ⟨blockAddr,_,found⟩ := Option.map_eq_some_iff.mp accessed
    split at found
    · cases found
      exact placed_unchanged rfl
    · next line held =>
      cases found
      exact placed_old (Option.filter_eq_some_iff.mp held).1 fun _ nothing => by cases nothing
  | fill addr data state =>
    obtain ⟨⟨result,_⟩,filled,rfl⟩ := Option.map_eq_some_iff.mp stepped
    obtain ⟨blockAddr,block,found⟩ := Option.bind_eq_some_iff.mp filled
    have same : ∀ addr', c.placedAt (.fill addr data state) = some addr' → addr' = blockAddr := fun addr' places => by
      cases block.symm.trans places
      rfl
    split at found
    · next line held =>
      cases found
      exact placed_old held same
    · next absent =>
      obtain ⟨⟨evicted,c₁⟩,made,put⟩ := Option.map_eq_some_iff.mp found
      cases put
      refine placed_new absent ?_ block
      unfold ensureCapacity
      by_cases full : c.capacity ≤ c.lines.keys.length
      · rw [if_pos full] at made
        rw [if_neg (by omega),made]
        rfl
      · rw [if_neg full] at made
        cases made
        exact if_pos (by omega)
  | setState addr state =>
    change c.setState victim addr state = some c' at stepped
    unfold setState at stepped
    split at stepped
    · next absent =>
      obtain ⟨c₁,made,rfl⟩ := Option.map_eq_some_iff.mp stepped
      exact placed_new absent made rfl
    · next line held =>
      cases stepped
      exact placed_old held fun _ here => (Option.some.inj here).symm
  | setData addr data =>
    change c.setData victim addr data = some c' at stepped
    unfold setData at stepped
    split at stepped
    · next absent =>
      obtain ⟨c₁,made,rfl⟩ := Option.map_eq_some_iff.mp stepped
      exact placed_new absent made rfl
    · next line held =>
      cases stepped
      exact placed_old held fun _ here => (Option.some.inj here).symm
  | invalidate addr =>
    cases stepped
    refine ⟨rfl,rfl,.inl fun other member => (AList.mem_erase.mp member).2,?_⟩
    rintro addr' ⟨⟩
  | handleSnoop op addr =>
    obtain rfl := Option.some.inj stepped
    unfold handleSnoop
    split
    · exact placed_unchanged rfl
    · next line held =>
      dsimp only
      split_ifs
      · exact placed_old (Option.filter_eq_some_iff.mp held).1 fun _ nothing => by cases nothing
      · exact placed_unchanged rfl

end

/-! ### No two lines -/

section
variable {c c' : FullyAssociativeCache}

theorem Placed.sameBlock_iff {op : LineOp × UInt64} (placed : Placed c op c') (addr other : UInt64) :
    c'.SameBlock addr other ↔ c.SameBlock addr other := by
  unfold SameBlock getBlockAddr
  rw [placed.blockSize]

/-- No block gets a second line just when a new line is put where no other one of its block
    stays. -/
theorem OneLine.step_iff (one : c.OneLine) {op : LineOp × UInt64} (stepped : c.step op = some c') :
    c'.OneLine ↔ c.PlacesAlone op := by
  have placed := placed_step stepped
  constructor
  · intro one' addr places absent other member same
    by_contra stays
    rcases placed.lines with old | ⟨addr',places',_,lines⟩
    · exact absent (old addr (placed.fresh addr places absent))
    · cases places.symm.trans places'
      have equal := one' addr ((lines addr).mpr (.inl rfl)) other ((lines other).mpr (.inr ⟨member,stays⟩))
        ((placed.sameBlock_iff addr other).mpr same)
      exact absent (equal ▸ member)
  · intro alone addr member other member' same
    rw [placed.sameBlock_iff] at same
    rcases placed.lines with old | ⟨new,places,absent,lines⟩
    · exact one addr (old addr member) other (old other member') same
    · rcases (lines addr).mp member with rfl | ⟨before,stays⟩
      · rcases (lines other).mp member' with rfl | ⟨before',stays'⟩
        · rfl
        · exact absurd (alone addr places absent other before' same) stays'
      · rcases (lines other).mp member' with rfl | ⟨before',_⟩
        · exact absurd (alone other places absent addr before same.symm) stays
        · exact one addr before other before' same

/-! ### No two addresses alike -/

/-- There is room for a line, or a line to give up. -/
theorem exists_victim (some_room : 0 < c.capacity) : ∃ victim c₁, c.ensureCapacity victim = some c₁ ∧
    ∀ addr, addr ∉ c.lines → c₁.lines.lookup addr = none := by
  have absent_after : ∀ {victim c₁}, c.ensureCapacity victim = some c₁ → ∀ addr, addr ∉ c.lines → c₁.lines.lookup addr = none := by
    intro victim c₁ made addr absent
    rw [AList.lookup_eq_none,(mem_ensureCapacity made).2.2]
    exact fun both => absent both.1
  by_cases room : c.lines.keys.length < c.capacity
  · have made : c.ensureCapacity 0 = some c := if_pos room
    exact ⟨0,c,made,absent_after made⟩
  · obtain ⟨victim,held⟩ := List.exists_mem_of_length_pos (l := c.lines.keys) (by omega)
    obtain ⟨line,found⟩ := Option.isSome_iff_exists.mp (AList.lookup_isSome.mpr (AList.mem_keys.mpr held))
    have made : c.ensureCapacity victim = some { c with lines := c.lines.erase victim } := by
      rw [ensureCapacity,if_neg room,evictOne,found]
      rfl
    exact ⟨victim,_,made,absent_after made⟩

/-- Only an address and itself can be exchanged in every operation. -/
theorem interchangeable_all_iff (some_room : 0 < c.capacity) (addr other : UInt64) :
    (∀ op, c.Interchangeable op addr other) ↔ addr = other := by
  constructor
  · intro all
    by_contra different
    have present : c.isPresent addr = c.isPresent other := by
      cases all .isPresent 0 with
      | some alike => exact Result.bool.inj alike.1
    by_cases here : addr ∈ c.lines
    · -- after an invalidation of one of them the other is still there
      cases all .invalidate 0 with
      | some alike =>
        have gone : (c.lines.erase addr).lookup addr = (c.lines.erase other).lookup addr := alike.2 addr
        rw [AList.lookup_erase,AList.lookup_erase_ne different] at gone
        exact AList.lookup_eq_none.mp gone.symm here
    · -- a line for one of them is none for the other
      have here' : other ∉ c.lines := by
        intro member
        rw [isPresent,isPresent,AList.lookup_eq_none.mpr here,AList.lookup_isSome.mpr member] at present
        cases present
      obtain ⟨victim,c₁,made,absent⟩ := exists_victim some_room
      have put : ∀ {at_ : UInt64}, at_ ∉ c.lines → c.perform victim (.setState .shared) at_ =
          some (.nothing,c₁.putLine at_ { addr := at_, state := .shared, data := none }) := by
        intro at_ missing
        rw [perform,setState,AList.lookup_eq_none.mpr missing,made]
        rfl
      have both := all (.setState .shared) victim
      rw [put here,put here'] at both
      cases both with
      | some alike =>
        have lines := alike.2 addr
        rw [lookup_putLine] at lines
        have other_line : (c₁.putLine other { addr := other, state := .shared, data := none }).lines.lookup addr = none :=
          (AList.lookup_insert_ne different).trans (absent addr here)
        rw [other_line] at lines
        cases lines
  · rintro rfl op victim
    exact alike_refl _

/-- Addresses of one block are the same just when blocks have one byte. -/
theorem sameBlock_eq_iff : (∀ addr other, c.SameBlock addr other → addr = other) ↔ c.blockSize = 1 := by
  unfold SameBlock getBlockAddr
  constructor
  · intro equal
    by_contra large
    refine absurd (equal 0 1 ?_) (by decide)
    by_cases zero : c.blockSize = 0
    · rw [if_pos zero,if_pos zero]
    · rw [if_neg zero,if_neg zero]
      have below : 1 < c.blockSize.toNat := by
        have nonzero : c.blockSize.toNat ≠ 0 := fun none_left => zero (UInt64.toNat.inj none_left)
        have not_one : c.blockSize.toNat ≠ 1 := fun is_one => large (UInt64.toNat.inj is_one)
        omega
      have quotient : (1 : UInt64) / c.blockSize = 0 / c.blockSize := by
        apply UInt64.toNat.inj
        rw [UInt64.toNat_div,UInt64.toNat_div,show (1 : UInt64).toNat = 1 from rfl,show (0 : UInt64).toNat = 0 from rfl,
          Nat.div_eq_of_lt below,Nat.zero_div]
      rw [quotient]
  · intro one addr other same
    have whole : ∀ addr : UInt64, addr / 1 * 1 = addr := by
      intro addr
      apply UInt64.toNat.inj
      rw [UInt64.mul_one,UInt64.toNat_div,show (1 : UInt64).toNat = 1 from rfl,Nat.div_one]
    rw [one,if_neg (by decide),if_neg (by decide),whole,whole] at same
    exact Option.some.inj same

end

/-- For every capacity and block size: in every state that operations lead to, two addresses
    of a block can be exchanged in every operation only if they are equal, but always in
    accesses and fills; and every state of a run has one line at most for each block just
    when every new line is put into a block that has none, or whose line goes. -/
theorem interchangeable_iff (capacity : Int) (blockSize : UInt64) (ops : List (LineOp × UInt64)) :
    let start := newFullyAssociativeCacheWithBlockSize capacity blockSize
    (∀ c, Reachable step start c →
      ((∀ addr other, c.SameBlock addr other → ∀ op, c.Interchangeable op addr other) ↔ blockSize = 1) ∧
      ∀ addr other, c.SameBlock addr other → ((∀ op, c.Interchangeable op addr other) ↔ addr = other) ∧
        (∀ isWrite, c.Interchangeable (.access isWrite) addr other) ∧
        ∀ data state, c.Interchangeable (.fill data state) addr other) ∧
    ((∀ taken ∈ trace step start ops, taken.2.2.OneLine) ↔ ∀ taken ∈ trace step start ops, taken.1.PlacesAlone taken.2.1) := by
  intro start
  have sizes : ∀ c, Reachable step start c → 0 < c.capacity ∧ c.blockSize = blockSize := by
    intro c reached
    refine reached.invariant (P := fun c => 0 < c.capacity ∧ c.blockSize = blockSize) ⟨?_,rfl⟩ ?_
    · show 0 < if capacity ≤ 0 then 64 else capacity.toNat
      split_ifs <;> omega
    · intro c c' op sizes _ stepped
      have placed := placed_step stepped
      rw [placed.capacity,placed.blockSize]
      exact sizes
  constructor
  · intro c reached
    obtain ⟨some_room,size⟩ := sizes c reached
    refine ⟨?_,fun addr other same => ⟨interchangeable_all_iff some_room addr other,interchangeable_access same,
      interchangeable_fill same⟩⟩
    rw [← size,← sameBlock_eq_iff]
    exact forall_congr' fun addr => forall_congr' fun other => forall_congr' fun _ => interchangeable_all_iff some_room addr other
  · refine @trace_forall_iff _ _ step OneLine (fun _ _ c' => c'.OneLine) PlacesAlone (fun one stepped => one.step_iff stepped)
      (fun one stepped alone => (one.step_iff stepped).mpr alone) _ _ ?_
    intro addr member
    exact absurd member (AList.notMem_empty addr)

/-- A fill at an address inside a block leaves no line there, and setting the state there
    gives the block a second line. -/
theorem second_line : ∃ c c', Reachable step (newFullyAssociativeCache 4) c ∧ c.SameBlock 64 68 ∧
    ¬ c.Interchangeable .isPresent 64 68 ∧ c.step (.setState 68 .modified,0) = some c' ∧ ¬ c'.OneLine := by
  have ends : ((newFullyAssociativeCache 4).step (.fill 68 (some [7]) .shared,0)).bind (fun c =>
      (c.step (.setState 68 .modified,0)).map fun c' =>
        ((c.blockSize,c.isPresent 64,c.isPresent 68),(c'.blockSize,c'.isPresent 64,c'.isPresent 68))) =
      some ((64,true,false),(64,true,true)) := by decide +kernel
  obtain ⟨c,filled,last⟩ := Option.bind_eq_some_iff.mp ends
  obtain ⟨c',stepped,all⟩ := Option.map_eq_some_iff.mp last
  simp only [Prod.mk.injEq] at all
  obtain ⟨⟨size,first,second⟩,size',first',second'⟩ := all
  have one_block : ∀ c : FullyAssociativeCache, c.blockSize = 64 → c.SameBlock 64 68 := by
    intro c size
    unfold SameBlock getBlockAddr
    rw [size]
    decide
  refine ⟨c,c',Reaches.refl.step _ trivial filled,one_block c size,fun alike => ?_,stepped,fun one => ?_⟩
  · cases alike 0 with
    | some alike =>
      have present : c.isPresent 64 = c.isPresent 68 := Result.bool.inj alike.1
      rw [first,second] at present
      cases present
  · have equal := one 64 (AList.lookup_isSome.mp first') 68 (AList.lookup_isSome.mp second') (one_block c' size')
    exact absurd equal (by decide)

end FullyAssociativeCache
end FlowSim.Cache
