import Mathlib

/-!
The storage of a set-associative cache: sets of ways, each empty or with a line,
and a clock of last uses that picks the way to replace.
-/
namespace FlowSim.Cache
set_option linter.unusedSimpArgs false

/-- The states of a line. -/
inductive State where
  | invalid
  | shared
  | exclusive
  | modified
  | owned
deriving DecidableEq, Repr

structure CacheLine where
  addr : UInt64
  state : State
  data : Option (List UInt8)
deriving DecidableEq, Repr

/-- What an access finds. -/
structure AccessResult where
  hit : Bool
  data : Option (List UInt8)
  needFill : Bool
  oldState : State
  newState : State
  writeback : Bool
deriving DecidableEq, Repr

/-- One set: its lines, and when each of its ways was used last. -/
structure CacheSet where
  lines : List (Option CacheLine)
  lruCounters : List Nat
deriving DecidableEq, Repr

/-- The sets. The evict callback and the statistics are left out. -/
structure Storage where
  numSets : Nat
  numWays : Nat
  blockSize : UInt64
  sets : List CacheSet
  lruClock : Nat
deriving DecidableEq, Repr

/-! ### Blocks -/

theorem div_mul_div {addr size : UInt64} (nonzero : size ≠ 0) : addr / size * size / size = addr / size := by
  have whole : (addr / size * size).toNat = addr.toNat / size.toNat * size.toNat := by
    rw [UInt64.toNat_mul,UInt64.toNat_div]
    exact Nat.mod_eq_of_lt (lt_of_le_of_lt (Nat.div_mul_le_self ..) addr.toNat_lt)
  have pos : 0 < size.toNat := Nat.pos_of_ne_zero fun zero => nonzero (UInt64.toNat.inj zero)
  apply UInt64.toNat.inj
  rw [UInt64.toNat_div,whole,Nat.mul_div_cancel _ pos,UInt64.toNat_div]

/-- The block of a block's address is the block. -/
theorem div_mul_div_mul (addr size : UInt64) : addr / size * size / size * size = addr / size * size := by
  by_cases zero : size = 0
  · rw [zero,UInt64.mul_zero,UInt64.mul_zero]
  · rw [div_mul_div zero]

namespace CacheSet

def empty (numWays : Nat) : CacheSet := { lines := List.replicate numWays none, lruCounters := List.replicate numWays 0 }

/-- The line in a way. -/
def line (set : CacheSet) (way : Nat) : Option CacheLine := (set.lines[way]?).join

/-- The first way that has the block in a valid state. -/
def findWay (set : CacheSet) (blockAddr : UInt64) : Option Nat :=
  set.lines.findIdx? (fun line => line.any (fun line => line.addr = blockAddr ∧ line.state ≠ .invalid))

/-- From way `way` on, the first way that was used before the best so far. -/
def findLRUFrom : Nat → List Nat → Nat × Nat → Nat
  | _, [], best => best.1
  | way, counter :: rest, best => findLRUFrom (way + 1) rest (if counter < best.2 then (way,counter) else best)

/-- The way that was used least recently. -/
def findLRUWay (set : CacheSet) : Nat :=
  match set.lruCounters with
  | [] => 0
  | counter :: rest => findLRUFrom 1 rest (0,counter)

def setLine (set : CacheSet) (way : Nat) (line : Option CacheLine) : CacheSet := { set with lines := set.lines.set way line }

def touch (set : CacheSet) (way clock : Nat) : CacheSet := { set with lruCounters := set.lruCounters.set way clock }

end CacheSet

namespace Storage

/-- A cache without lines; sizes that are not positive have defaults. -/
def newStorage (numSets numWays : Int) (blockSize : UInt64) : Storage :=
  let numSets := if numSets ≤ 0 then 64 else numSets.toNat
  let numWays := if numWays ≤ 0 then 4 else numWays.toNat
  { numSets, numWays, blockSize := if blockSize = 0 then 64 else blockSize,
    sets := List.replicate numSets (.empty numWays), lruClock := 0 }

def getSetIndex (c : Storage) (addr : UInt64) : Nat := (addr / c.blockSize).toNat % c.numSets

def getBlockAddr (c : Storage) (addr : UInt64) : UInt64 := addr / c.blockSize * c.blockSize

def set (c : Storage) (setIdx : Nat) : CacheSet := (c.sets[setIdx]?).getD (.empty c.numWays)

/-- The way of the address, in its set. -/
def find (c : Storage) (addr : UInt64) : Option Nat := (c.set (c.getSetIndex addr)).findWay (c.getBlockAddr addr)

/-- The way of a set is used now, and holds the line. -/
def use (c : Storage) (setIdx way : Nat) (line : Option CacheLine) : Storage :=
  let lruClock := c.lruClock + 1
  { c with lruClock, sets := c.sets.modify setIdx (fun set => (set.setLine way line).touch way lruClock) }

/-- A read or a write: a hit uses the line, and a write makes it modified. -/
def access (c : Storage) (addr : UInt64) (isWrite : Bool) : AccessResult × Storage :=
  let setIdx := c.getSetIndex addr
  match (c.find addr).bind (fun way => ((c.set setIdx).line way).map (fun line => (way,line))) with
  | none => ({ hit := false, data := none, needFill := true, oldState := .invalid, newState := .invalid, writeback := false },c)
  | some (way,line) =>
    let newState := if isWrite then .modified else line.state
    ({ hit := true, data := line.data, needFill := false, oldState := line.state, newState, writeback := false },
      c.use setIdx way (some { line with state := newState }))

/-- Puts a block into the cache: over its own line, or in the place of the line used
    least recently. Gives the address of the line that had to go, and whether it has
    to be written back. -/
def fill (c : Storage) (addr : UInt64) (data : List UInt8) (state : State) : (UInt64 × Bool) × Storage :=
  let blockAddr := c.getBlockAddr addr
  let setIdx := c.getSetIndex addr
  match c.find addr with
  | some way => ((0,false),c.use setIdx way (some { addr := blockAddr, state, data := some data }))
  | none =>
    let way := (c.set setIdx).findLRUWay
    let evicted := match (c.set setIdx).line way with
      | some line => (line.addr,decide (line.state = .modified))
      | none => (0,false)
    (evicted,c.use setIdx way (some { addr := blockAddr, state, data := some data }))

theorem findWay_eq_some {set : CacheSet} {blockAddr : UInt64} {way : Nat} (found : set.findWay blockAddr = some way) :
    ∃ line, set.line way = some line ∧ line.addr = blockAddr ∧ line.state ≠ .invalid := by
  obtain ⟨inside,has,_⟩ := List.findIdx?_eq_some_iff_getElem.mp found
  obtain ⟨line,there,valid⟩ := (Option.any_eq_true _ _).mp has
  refine ⟨line,?_,of_decide_eq_true valid⟩
  rw [CacheSet.line,List.getElem?_eq_getElem inside,there]
  rfl

/-- An access finds no line and changes nothing, or it finds the line and uses it. -/
theorem access_cases (c : Storage) (addr : UInt64) (isWrite : Bool) :
    (c.find addr = none ∧ c.access addr isWrite =
      ({ hit := false, data := none, needFill := true, oldState := .invalid, newState := .invalid, writeback := false },c)) ∨
    ∃ way line, c.find addr = some way ∧ (c.set (c.getSetIndex addr)).line way = some line ∧ line.addr = c.getBlockAddr addr ∧
      line.state ≠ .invalid ∧ c.access addr isWrite =
        ({ hit := true, data := line.data, needFill := false, oldState := line.state,
           newState := if isWrite then .modified else line.state, writeback := false },
          c.use (c.getSetIndex addr) way (some { line with state := if isWrite then .modified else line.state })) := by
  unfold access
  dsimp only
  cases found : c.find addr with
  | none => exact .inl ⟨rfl,rfl⟩
  | some way =>
    obtain ⟨line,there,same,valid⟩ := findWay_eq_some found
    refine .inr ⟨way,line,rfl,there,same,valid,?_⟩
    rw [Option.bind_some,there]
    rfl

/-- An access hits when its block has a way. -/
theorem hit_access (c : Storage) (addr : UInt64) (isWrite : Bool) : (c.access addr isWrite).1.hit = (c.find addr).isSome := by
  rcases c.access_cases addr isWrite with ⟨nowhere,missed⟩ | ⟨way,line,found,_,_,_,used⟩
  · rw [missed,nowhere]
    rfl
  · rw [used,found]
    rfl

/-- A new cache has no line. -/
theorem find_newStorage (numSets numWays : Int) (blockSize addr : UInt64) :
    (newStorage numSets numWays blockSize).find addr = none := by
  have no_line : ∀ ways blockAddr, (CacheSet.empty ways).findWay blockAddr = none := by
    intro ways blockAddr
    rw [CacheSet.findWay,List.findIdx?_eq_none_iff]
    intro line member
    rw [List.eq_of_mem_replicate member]
    rfl
  unfold find set
  rcases found : (newStorage numSets numWays blockSize).sets[_]? with _ | set
  · exact no_line _ _
  · rw [List.eq_of_mem_replicate (List.mem_of_getElem? found)]
    exact no_line _ _

end Storage
end FlowSim.Cache
