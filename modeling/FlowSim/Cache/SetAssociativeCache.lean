import FlowSim.Cache.Storage

/-!
A cache with latencies: its storage, the registers that track misses under way, and
the lower level that misses are requested from.
-/
namespace FlowSim.Cache
set_option linter.unusedSimpArgs false

inductive AccessType where
  | load
  | store
  | prefetch
deriving DecidableEq, Repr

structure CacheConfig where
  numSets : UInt32
  numWays : UInt32
  blockSize : UInt32
  mshrSize : UInt32
  hitLatency : Nat
  fillLatency : Nat
deriving DecidableEq, Repr

def defaultL1DConfig : CacheConfig where
  numSets := 64
  numWays := 8
  blockSize := 64
  mshrSize := 8
  hitLatency := 4
  fillLatency := 4

/-! ### Misses under way -/

/-- A block that was missed, and the instructions that wait for it. No entry is ever
    merged into another. -/
structure MSHREntry where
  address : UInt64
  vAddress : UInt64
  instrID : Nat
  type : AccessType
  enqueueCycle : Nat
  readyCycle : Nat
  instrDependOnMe : List Nat
deriving DecidableEq, Repr

structure MSHRQueue where
  entries : List MSHREntry
  maxSize : Nat
deriving DecidableEq, Repr

namespace MSHRQueue

def newMSHRQueue (maxSize : Nat) : MSHRQueue := { entries := [], maxSize }

def isFull (mq : MSHRQueue) : Bool := decide (mq.maxSize ≤ mq.entries.length)

def find (mq : MSHRQueue) (addr : UInt64) : Option Nat := mq.entries.findIdx? (fun entry => entry.address = addr)

def allocate (mq : MSHRQueue) (entry : MSHREntry) : Option (Nat × MSHRQueue) :=
  if mq.isFull then none else some (mq.entries.length,{ mq with entries := mq.entries ++ [entry] })

/-- One more instruction waits for the block of an entry. -/
def merge (mq : MSHRQueue) (index instrID : Nat) : MSHRQueue :=
  { mq with entries := mq.entries.modify index (fun entry =>
      if instrID ∈ entry.instrDependOnMe then entry
      else { entry with instrDependOnMe := entry.instrDependOnMe ++ [instrID] }) }

def removeByAddress (mq : MSHRQueue) (addr : UInt64) : MSHRQueue :=
  { mq with entries := mq.entries.eraseP (fun entry => entry.address = addr) }

end MSHRQueue

/-! ### The cache -/

/-- A request for a block to the lower level. -/
structure MemoryRequest where
  address : UInt64
  vAddress : UInt64
  instrID : Nat
  isWrite : Bool
  data : UInt64
deriving DecidableEq, Repr

/-- The result of an access: whether it hit, the cycle the data is there, and the
    entry of the miss, -1 when there is none. -/
structure Accessed where
  hit : Bool
  readyCycle : Nat
  mshrIndex : Int
deriving DecidableEq, Repr

/-- Of the lower level the cache keeps whether it is attached, and of the statistics the
    number of write-backs. -/
structure SetAssociativeCache where
  config : CacheConfig
  core : Storage
  currentCycle : Nat
  standaloneMode : Bool
  mshr : MSHRQueue
  lowerLevel : Bool
  writebacks : Nat
deriving DecidableEq, Repr

namespace SetAssociativeCache

def notPowerOfTwo (name : String) (n : UInt32) : String := name ++ " must be power of 2, got " ++ toString n
def notPositive (name : String) (n : UInt32) : String := name ++ " must be > 0, got " ++ toString n

def validateConfig (config : CacheConfig) : Option String :=
  if config.numSets = 0 ∨ config.numSets &&& (config.numSets - 1) ≠ 0 then some (notPowerOfTwo "NumSets" config.numSets)
  else if config.numWays = 0 then some (notPositive "NumWays" config.numWays)
  else if config.blockSize = 0 ∨ config.blockSize &&& (config.blockSize - 1) ≠ 0 then
    some (notPowerOfTwo "BlockSize" config.blockSize)
  else if config.mshrSize = 0 then some (notPositive "MSHRSize" config.mshrSize)
  else none

def newSetAssociativeCache (config : CacheConfig) : Except String SetAssociativeCache :=
  match validateConfig config with
  | some err => .error err
  | none => .ok {
      config, core := .newStorage config.numSets.toNat config.numWays.toNat config.blockSize.toUInt64,
      currentCycle := 0, standaloneMode := true, mshr := .newMSHRQueue config.mshrSize.toNat, lowerLevel := false,
      writebacks := 0 }

/-- A cache is made only from a configuration that is valid. -/
theorem valid_of_new {config : CacheConfig} {c : SetAssociativeCache} (made : newSetAssociativeCache config = .ok c) :
    validateConfig config = none ∧ c = {
      config, core := .newStorage config.numSets.toNat config.numWays.toNat config.blockSize.toUInt64,
      currentCycle := 0, standaloneMode := true, mshr := .newMSHRQueue config.mshrSize.toNat, lowerLevel := false,
      writebacks := 0 } := by
  unfold newSetAssociativeCache at made
  cases valid : validateConfig config with
  | some err =>
    rw [valid] at made
    cases made
  | none =>
    rw [valid] at made
    exact ⟨rfl,(Except.ok.inj made).symm⟩

/-- With a lower level, the cache no longer fills itself. -/
def setLowerLevel (c : SetAssociativeCache) : SetAssociativeCache := { c with lowerLevel := true, standaloneMode := false }

def setStandaloneMode (c : SetAssociativeCache) (standalone : Bool) : SetAssociativeCache :=
  { c with standaloneMode := standalone }

def blockAddr (c : SetAssociativeCache) (addr : UInt64) : UInt64 :=
  addr / c.config.blockSize.toUInt64 * c.config.blockSize.toUInt64

/-- The bytes a fill puts into the cache; the data of the response is not looked at. -/
def fillBytes : List UInt8 := List.replicate 8 0

/-- The block of the address is there; the line that has to go for it may have to be
    written back. -/
def handleFill (c : SetAssociativeCache) (addr : UInt64) (cycle : Nat) : SetAssociativeCache :=
  let block := c.blockAddr addr
  let filled := c.core.fill block fillBytes .exclusive
  let needWriteback := filled.1.2
  { c with
    currentCycle := cycle
    mshr := c.mshr.removeByAddress block
    core := filled.2
    writebacks := if needWriteback then c.writebacks + 1 else c.writebacks }

/-- A miss joins the one under way for its block, or starts one, with a request to the
    lower level; when there is no room it does neither. -/
def handleMiss (c : SetAssociativeCache) (addr vaddr : UInt64) (instrID : Nat) (accessType : AccessType) (cycle : Nat) :
    Accessed × Option MemoryRequest × SetAssociativeCache :=
  let block := c.blockAddr addr
  match c.mshr.find block with
  | some index =>
    let readyCycle := (c.mshr.entries[index]?).elim 0 MSHREntry.readyCycle
    (⟨false,readyCycle,index⟩,none,{ c with mshr := c.mshr.merge index instrID })
  | none =>
    let entry : MSHREntry := {
      address := block, vAddress := vaddr, instrID, type := accessType, enqueueCycle := cycle,
      readyCycle := cycle + c.config.fillLatency, instrDependOnMe := [instrID] }
    match c.mshr.allocate entry with
    | none => (⟨false,cycle + c.config.hitLatency + c.config.fillLatency,-1⟩,none,c)
    | some (index,mshr) =>
      let c := { c with mshr }
      if c.lowerLevel then
        (⟨false,entry.readyCycle,index⟩,some {
          address := block, vAddress := vaddr, instrID, isWrite := decide (accessType = .store), data := 0 },c)
      else if c.standaloneMode then
        (⟨false,entry.readyCycle,index⟩,none,c.handleFill block (cycle + c.config.fillLatency))
      else (⟨false,entry.readyCycle,index⟩,none,c)

/-- An access, with the request it makes to the lower level. -/
def access (c : SetAssociativeCache) (addr vaddr : UInt64) (instrID : Nat) (accessType : AccessType) (cycle : Nat) :
    Accessed × Option MemoryRequest × SetAssociativeCache :=
  let (result,core) := c.core.access addr (decide (accessType = .store))
  let c := { c with currentCycle := cycle, core }
  if result.hit then (⟨true,cycle + c.config.hitLatency,-1⟩,none,c)
  else c.handleMiss addr vaddr instrID accessType cycle

theorem hit_handleMiss (c : SetAssociativeCache) (addr vaddr : UInt64) (instrID : Nat) (accessType : AccessType) (cycle : Nat) :
    (c.handleMiss addr vaddr instrID accessType cycle).1.hit = false := by
  unfold handleMiss
  dsimp only
  cases c.mshr.find (c.blockAddr addr) with
  | some index => rfl
  | none =>
    dsimp only
    cases c.mshr.allocate _ with
    | none => rfl
    | some allocated =>
      dsimp only
      split_ifs <;> rfl

/-- The first access to a new cache misses. -/
theorem hit_new {config : CacheConfig} {c : SetAssociativeCache} (made : newSetAssociativeCache config = .ok c)
    (addr vaddr : UInt64) (instrID : Nat) (accessType : AccessType) (cycle : Nat) :
    (c.access addr vaddr instrID accessType cycle).1.hit = false := by
  obtain ⟨_,rfl⟩ := valid_of_new made
  unfold access
  dsimp only
  rw [if_neg (by rw [Storage.hit_access,Storage.find_newStorage]; decide)]
  exact hit_handleMiss ..

end SetAssociativeCache
end FlowSim.Cache
