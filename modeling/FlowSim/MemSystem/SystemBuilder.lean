import FlowSim.MemSystem.Nodes
import FlowSim.Node.RingRouter

/-!
The whole memory system: cores, their second-level caches in pairs, third-level caches
and memory controllers on a bufferless ring, and a DRAM channel for each controller. The
errors of the connections are not looked at, and are left out.
-/
namespace FlowSim.MemSystem
open FlowSim.Lib FlowSim.Node FlowSim.Cache FlowSim.Queue
set_option linter.unusedSimpArgs false

/-! ### Loops that may fail -/

section
variable {α β : Type} {f : α → Except String β}

/-- A loop succeeds with what its rounds give. -/
theorem mapM_ok_iff : ∀ {xs : List α} {ys : List β},
    xs.mapM f = .ok ys ↔ List.Forall₂ (fun x y => f x = .ok y) xs ys
  | [], ys => by
    rw [List.mapM_nil,List.forall₂_nil_left_iff]
    exact ⟨fun same => (Except.ok.inj same).symm,fun none_given => by rw [none_given]; rfl⟩
  | x :: xs, ys => by
    rw [List.mapM_cons,List.forall₂_cons_left_iff]
    constructor
    · intro succeeded
      cases first : f x with
      | error err =>
        rw [first] at succeeded
        cases succeeded
      | ok y =>
        cases rest : xs.mapM f with
        | error err =>
          rw [first,rest] at succeeded
          cases succeeded
        | ok later =>
          rw [first,rest] at succeeded
          exact ⟨y,later,rfl,mapM_ok_iff.mp rest,(Except.ok.inj succeeded).symm⟩
    · rintro ⟨y,later,first,rest,rfl⟩
      rw [first,mapM_ok_iff.mpr rest]
      rfl

theorem mapM_succeeds_iff {xs : List α} : (∃ ys, xs.mapM f = .ok ys) ↔ ∀ x ∈ xs, ∃ y, f x = .ok y := by
  simp only [mapM_ok_iff]
  induction xs with
  | nil => simp
  | cons x xs ih =>
    simp only [List.forall₂_cons_left_iff,List.forall_mem_cons,← ih]
    constructor
    · rintro ⟨_,y,ys,first,rest,_⟩
      exact ⟨⟨y,first⟩,ys,rest⟩
    · rintro ⟨⟨y,first⟩,ys,rest⟩
      exact ⟨_,y,ys,first,rest,rfl⟩

theorem mapM_range_succeeds {f : Nat → Except String β} {n : Nat} (round : ∀ i < n, ∃ y, f i = .ok y) :
    ∃ ys, (List.range n).mapM f = .ok ys :=
  mapM_succeeds_iff.mpr fun i inside => round i (List.mem_range.mp inside)

theorem mem_of_mapM_ok {xs : List α} {ys : List β} (succeeded : xs.mapM f = .ok ys) :
    ∀ y ∈ ys, ∃ x ∈ xs, f x = .ok y := by
  intro y member
  induction mapM_ok_iff.mp succeeded with
  | nil => exact absurd member List.not_mem_nil
  | @cons x head xs tail first rest ih =>
    rcases List.mem_cons.mp member with rfl | member
    · exact ⟨x,List.mem_cons_self ..,first⟩
    · obtain ⟨x',inside,given⟩ := ih (mapM_ok_iff.mpr rest) member
      exact ⟨x',List.mem_cons_of_mem _ inside,given⟩

theorem length_of_mapM_ok {xs : List α} {ys : List β} (succeeded : xs.mapM f = .ok ys) : ys.length = xs.length :=
  (mapM_ok_iff.mp succeeded).length_eq.symm

end

/-! ### What is built -/

/-- A node of the network, with its handler and its queues. -/
structure NodeHandle (σ : Type) where
  id : Int
  handler : σ
  queues : Queues

/-- A link from an output port to an input port. -/
structure Connection where
  source : Int
  sourcePort : Nat
  target : Int
  targetPort : Nat
  latency : Nat
  bandwidth : Nat
  bufferless : Bool
deriving DecidableEq, Repr

structure ChampSimSystem where
  cpus : List (NodeHandle CPUNodeHandler)
  l2s : List (NodeHandle L2CacheNodeHandler)
  l3s : List (NodeHandle L2CacheNodeHandler)
  memCtrls : List (NodeHandle MemoryControllerHandler)
  drams : List (NodeHandle DRAMNodeHandler)
  ringRouters : List (NodeHandle BufferlessRingRouterNode)
  connections : List Connection

def numChannels : Nat := 8
def numMemCtrls : Nat := 8
def numL3s : Nat := 8
def cpusPerL2 : Nat := 2
def l2sPerL3 : Nat := 4
def ringLatency : Nat := 5
def localLatency : Nat := 3
def routerBuffer : Int := 16
def numRingNodes : Nat := numL3s + numMemCtrls

/-- As many input and output queues of one size as a node has ports. -/
def queuesOf (ports capacity : Nat) (pos : 0 < capacity) : Queues where
  inputs := List.replicate ports (.newInputQueue capacity 1 pos Nat.one_pos)
  outputs := List.replicate ports (.newOutputQueue capacity 1 Nat.one_pos)

def l2Config : CacheConfig where
  numSets := 512
  numWays := 16
  blockSize := 64
  mshrSize := 32
  hitLatency := 20
  fillLatency := 10

def l3Config : CacheConfig where
  numSets := 2048
  numWays := 16
  blockSize := 64
  mshrSize := 64
  hitLatency := 40
  fillLatency := 20

section
variable (openTrace : Nat → Except String (Nat → Option Cpu.TraceInstr)) (packets : Dram.PacketRef → Dram.DRAMPacket)
  (numCPUs numL2s : Nat)

/-- A core with its first-level cache; its trace is opened under the core's number as a byte. -/
def buildCPU (i : Nat) : Except String (NodeHandle CPUNodeHandler) := do
  let traceReader ← openTrace (i % 256)
  let l1dCache ← SetAssociativeCache.newSetAssociativeCache defaultL1DConfig
  let myL2NodeID := numCPUs + i / cpusPerL2
  return {
    id := i
    handler := .newCPUNodeHandler i myL2NodeID (.newO3CPU traceReader Cpu.defaultO3CPUConfig) l1dCache
    queues := queuesOf 1 128 (by decide) }

def buildL2 (l2Index : Nat) : Except String (NodeHandle L2CacheNodeHandler) := do
  let l2NodeID := numCPUs + l2Index
  let l2Cache ← SetAssociativeCache.newSetAssociativeCache l2Config
  let startCPU := l2Index * cpusPerL2
  let myCPUNodeIDs := (List.range cpusPerL2).map fun i => ((startCPU + i : Nat) : Int)
  let myL3NodeID := numCPUs + numL2s + l2Index / l2sPerL3
  return {
    id := l2NodeID
    handler := .newL2CacheNodeHandler l2NodeID myCPUNodeIDs myL3NodeID l2Cache
    queues := queuesOf (cpusPerL2 + 1) 128 (by decide) }

/-- A third-level cache is a shared cache over four others; it knows its own router as the
    node that it sends its misses to. -/
def buildL3 (l3Index : Nat) : Except String (NodeHandle L2CacheNodeHandler) := do
  let l3WorkerID := numCPUs + numL2s + l3Index
  let l3Cache ← SetAssociativeCache.newSetAssociativeCache l3Config
  let startL2 := l3Index * l2sPerL3
  let myL2NodeIDs := (List.range l2sPerL3).map fun i => ((numCPUs + startL2 + i : Nat) : Int)
  let ringRouterID := 200 + l3Index * 2
  return {
    id := l3WorkerID
    handler := .newL2CacheNodeHandler l3WorkerID myL2NodeIDs ringRouterID l3Cache
    queues := queuesOf (l2sPerL3 + 1) 256 (by decide) }

/-- A memory controller knows its own router as the only node above it. -/
def buildMemCtrl (mcIndex : Nat) : NodeHandle MemoryControllerHandler :=
  let memCtrlWorkerID := numCPUs + numL2s + numL3s + mcIndex
  let ringRouterID := 200 + mcIndex * 2 + 1
  let dramNodeID := numCPUs + numL2s + numL3s + numMemCtrls + mcIndex
  { id := memCtrlWorkerID
    handler := .newMemoryControllerHandler memCtrlWorkerID [(ringRouterID : Int)] [(dramNodeID : Int)] .mappingInterleaved
    queues := queuesOf 2 256 (by decide) }

def buildDRAM (i : Nat) : Except String (NodeHandle DRAMNodeHandler) := do
  let dramNodeID := numCPUs + numL2s + numL3s + numMemCtrls + i
  let memCtrlWorkerID := numCPUs + numL2s + numL3s + i
  let dramChannel ← Dram.DRAMChannel.newDRAMChannel Dram.defaultDRAMConfig packets
  return {
    id := dramNodeID
    handler := .newDRAMNodeHandler dramNodeID memCtrlWorkerID dramChannel
    queues := queuesOf 1 128 (by decide) }

/-- The worker of a router: a third-level cache at an even place, a memory controller at an
    odd one. -/
def routerWorkerID (i : Nat) : Nat :=
  if i % 2 = 0 then numCPUs + numL2s + i / 2 else numCPUs + numL2s + numL3s + (i - 1) / 2

def buildRouter (i : Nat) : NodeHandle BufferlessRingRouterNode :=
  let routerID := 200 + i
  { id := routerID
    handler := .newBufferlessRingRouter (routerWorkerID numCPUs numL2s i) routerBuffer
    queues := queuesOf 2 256 (by decide) }

end

/-! ### The connections -/

def nodeAt {σ : Type} (nodes : List (NodeHandle σ)) (i : Nat) : Except String Int :=
  match nodes[i]? with
  | some node => .ok node.id
  | none => .error indexOutOfRange

/-- Two nodes connected in both directions, by the same ports. -/
def bothWays (one : Int) (port : Nat) (other : Int) (otherPort latency : Nat) (bufferless : Bool) : List Connection :=
  [⟨one,port,other,otherPort,latency,1,bufferless⟩,⟨other,otherPort,one,port,latency,1,bufferless⟩]

section
variable (cpus : List (NodeHandle CPUNodeHandler)) (l2s l3s : List (NodeHandle L2CacheNodeHandler))
  (memCtrls : List (NodeHandle MemoryControllerHandler)) (drams : List (NodeHandle DRAMNodeHandler))
  (ringRouters : List (NodeHandle BufferlessRingRouterNode))

def connectCPU (cpuIdx : Nat) : Except String (List Connection) := do
  let cpu ← nodeAt cpus cpuIdx
  let l2 ← nodeAt l2s (cpuIdx / cpusPerL2)
  return bothWays cpu 0 l2 (cpuIdx % cpusPerL2) 10 false

def connectL2 (l2Idx : Nat) : Except String (List Connection) := do
  let l2 ← nodeAt l2s l2Idx
  let l3 ← nodeAt l3s (l2Idx / l2sPerL3)
  return bothWays l2 cpusPerL2 l3 (l2Idx % l2sPerL3) 20 false

def connectL3 (l3Idx : Nat) : Except String (List Connection) := do
  let l3 ← nodeAt l3s l3Idx
  let router ← nodeAt ringRouters (l3Idx * 2)
  return bothWays l3 l2sPerL3 router 1 localLatency true

def connectMemCtrl (mcIdx : Nat) : Except String (List Connection) := do
  let mc ← nodeAt memCtrls mcIdx
  let router ← nodeAt ringRouters (mcIdx * 2 + 1)
  return bothWays mc 0 router 1 localLatency true

def connectRing (i : Nat) : Except String (List Connection) := do
  let router ← nodeAt ringRouters i
  let nextRouter ← nodeAt ringRouters ((i + 1) % numRingNodes)
  return [⟨router,0,nextRouter,0,ringLatency,1,true⟩]

def connectDRAM (mcIdx : Nat) : Except String (List Connection) := do
  let mc ← nodeAt memCtrls mcIdx
  let dram ← nodeAt drams mcIdx
  return bothWays mc 1 dram 0 20 false

end

/-- What the runtime says to a slice of negative length. -/
def lenOutOfRange : String := "runtime error: makeslice: len out of range"

/-- Builds the system for a number of cores. `openTrace` opens the trace file for a core;
    the configurations of caches and channels are valid, so that their errors do not
    occur. -/
def buildChampSimSystem (openTrace : Nat → Except String (Nat → Option Cpu.TraceInstr))
    (packets : Dram.PacketRef → Dram.DRAMPacket) (numCPUs : Int) : Except String ChampSimSystem :=
  if numCPUs < 0 then .error lenOutOfRange
  else do
    let numCPUs := numCPUs.toNat
    let numL2s := numCPUs / cpusPerL2
    let cpus ← (List.range numCPUs).mapM (buildCPU openTrace numCPUs)
    let l2s ← (List.range numL2s).mapM (buildL2 numCPUs numL2s)
    let l3s ← (List.range numL3s).mapM (buildL3 numCPUs numL2s)
    let memCtrls := (List.range numMemCtrls).map (buildMemCtrl numCPUs numL2s)
    let drams ← (List.range numChannels).mapM (buildDRAM packets numCPUs numL2s)
    let ringRouters := (List.range numRingNodes).map (buildRouter numCPUs numL2s)
    let cpuLinks ← (List.range numCPUs).mapM (connectCPU cpus l2s)
    let l2Links ← (List.range numL2s).mapM (connectL2 l2s l3s)
    let l3Links ← (List.range numL3s).mapM (connectL3 l3s ringRouters)
    let memCtrlLinks ← (List.range numMemCtrls).mapM (connectMemCtrl memCtrls ringRouters)
    let ringLinks ← (List.range numRingNodes).mapM (connectRing ringRouters)
    let dramLinks ← (List.range numMemCtrls).mapM (connectDRAM memCtrls drams)
    return {
      cpus, l2s, l3s, memCtrls, drams, ringRouters
      connections := (cpuLinks ++ l2Links ++ l3Links ++ memCtrlLinks ++ ringLinks ++ dramLinks).flatten }

/-! ### When the system is built -/

section
variable {openTrace : Nat → Except String (Nat → Option Cpu.TraceInstr)} {packets : Dram.PacketRef → Dram.DRAMPacket}
  {numCPUs : Int} {sys : ChampSimSystem}

/-- Every part of the system is built, and every connection made. -/
structure Built (openTrace : Nat → Except String (Nat → Option Cpu.TraceInstr)) (packets : Dram.PacketRef → Dram.DRAMPacket)
    (numCPUs : Nat) (sys : ChampSimSystem) : Prop where
  cpus : (List.range numCPUs).mapM (buildCPU openTrace numCPUs) = .ok sys.cpus
  l2s : (List.range (numCPUs / cpusPerL2)).mapM (buildL2 numCPUs (numCPUs / cpusPerL2)) = .ok sys.l2s
  l3s : (List.range numL3s).mapM (buildL3 numCPUs (numCPUs / cpusPerL2)) = .ok sys.l3s
  memCtrls : sys.memCtrls = (List.range numMemCtrls).map (buildMemCtrl numCPUs (numCPUs / cpusPerL2))
  drams : (List.range numChannels).mapM (buildDRAM packets numCPUs (numCPUs / cpusPerL2)) = .ok sys.drams
  ringRouters : sys.ringRouters = (List.range numRingNodes).map (buildRouter numCPUs (numCPUs / cpusPerL2))
  connected : ∃ cpuLinks l2Links l3Links memCtrlLinks ringLinks dramLinks,
    (List.range numCPUs).mapM (connectCPU sys.cpus sys.l2s) = .ok cpuLinks ∧
    (List.range (numCPUs / cpusPerL2)).mapM (connectL2 sys.l2s sys.l3s) = .ok l2Links ∧
    (List.range numL3s).mapM (connectL3 sys.l3s sys.ringRouters) = .ok l3Links ∧
    (List.range numMemCtrls).mapM (connectMemCtrl sys.memCtrls sys.ringRouters) = .ok memCtrlLinks ∧
    (List.range numRingNodes).mapM (connectRing sys.ringRouters) = .ok ringLinks ∧
    (List.range numMemCtrls).mapM (connectDRAM sys.memCtrls sys.drams) = .ok dramLinks ∧
    sys.connections = (cpuLinks ++ l2Links ++ l3Links ++ memCtrlLinks ++ ringLinks ++ dramLinks).flatten

theorem build_ok_iff : buildChampSimSystem openTrace packets numCPUs = .ok sys ↔
    0 ≤ numCPUs ∧ Built openTrace packets numCPUs.toNat sys := by
  unfold buildChampSimSystem
  split_ifs with negative
  · exact ⟨fun failed => (nomatch failed),fun ⟨positive,_⟩ => by omega⟩
  · simp only [bind_ok_iff]
    constructor
    · rintro ⟨cpus,cpusBuilt,l2s,l2sBuilt,l3s,l3sBuilt,drams,dramsBuilt,cpuLinks,cpuMade,l2Links,l2Made,l3Links,l3Made,
        mcLinks,mcMade,ringLinks,ringMade,dramLinks,dramMade,same⟩
      rw [← Except.ok.inj same]
      exact ⟨by omega,cpusBuilt,l2sBuilt,l3sBuilt,rfl,dramsBuilt,rfl,
        cpuLinks,l2Links,l3Links,mcLinks,ringLinks,dramLinks,cpuMade,l2Made,l3Made,mcMade,ringMade,dramMade,rfl⟩
    · rintro ⟨_,built⟩
      obtain ⟨cpuLinks,l2Links,l3Links,mcLinks,ringLinks,dramLinks,cpuMade,l2Made,l3Made,mcMade,ringMade,dramMade,all⟩ :=
        built.connected
      refine ⟨_,built.cpus,_,built.l2s,_,built.l3s,_,built.drams,cpuLinks,cpuMade,l2Links,l2Made,l3Links,?_,
        mcLinks,?_,ringLinks,?_,dramLinks,?_,?_⟩
      · rw [← built.ringRouters]
        exact l3Made
      · rw [← built.ringRouters,← built.memCtrls]
        exact mcMade
      · rw [← built.ringRouters]
        exact ringMade
      · rw [← built.memCtrls]
        exact dramMade
      · rw [← built.ringRouters,← built.memCtrls,← all]
        rfl

theorem nodeAt_succeeds_iff {σ : Type} {nodes : List (NodeHandle σ)} {i : Nat} :
    (∃ id, nodeAt nodes i = .ok id) ↔ i < nodes.length := by
  unfold nodeAt
  by_cases inside : i < nodes.length
  · rw [List.getElem?_eq_getElem inside]
    exact ⟨fun _ => inside,fun _ => ⟨_,rfl⟩⟩
  · rw [List.getElem?_eq_none (by omega)]
    exact ⟨fun ⟨_,failed⟩ => (nomatch failed),fun possible => absurd possible inside⟩

theorem connect_succeeds {σ τ : Type} {nodes : List (NodeHandle σ)} {others : List (NodeHandle τ)} {i j : Nat}
    (one : i < nodes.length) (other : j < others.length) (links : Int → Int → List Connection) :
    ∃ made, (do
      let x ← nodeAt nodes i
      let y ← nodeAt others j
      return links x y) = (.ok made : Except String (List Connection)) := by
  obtain ⟨x,foundOne⟩ := nodeAt_succeeds_iff.mpr one
  obtain ⟨y,foundOther⟩ := nodeAt_succeeds_iff.mpr other
  exact ⟨_,bind_ok_iff.mpr ⟨x,foundOne,bind_ok_iff.mpr ⟨y,foundOther,rfl⟩⟩⟩

theorem Built.length_l3s {n : Nat} (built : Built openTrace packets n sys) : sys.l3s.length = 8 :=
  length_of_mapM_ok built.l3s

/-- The second-level cache of every core and the third-level cache of every second-level
    cache have to be there. -/
theorem Built.size {n : Nat} (built : Built openTrace packets n sys) : n ≤ 64 ∧ n % 2 = 0 := by
  obtain ⟨_,_,_,_,_,_,cpuMade,l2Made,_⟩ := built.connected
  have l2s : sys.l2s.length = n / 2 := (length_of_mapM_ok built.l2s).trans List.length_range
  have cpuFound : ∀ i < n, i / 2 < sys.l2s.length := by
    intro i inside
    obtain ⟨links,made⟩ := mapM_succeeds_iff.mp ⟨_,cpuMade⟩ i (List.mem_range.mpr inside)
    simp only [connectCPU,bind_ok_iff] at made
    obtain ⟨_,_,l2,found,_⟩ := made
    exact nodeAt_succeeds_iff.mp ⟨l2,found⟩
  have l2Found : ∀ i < n / 2, i / 4 < 8 := by
    intro i inside
    obtain ⟨links,made⟩ := mapM_succeeds_iff.mp ⟨_,l2Made⟩ i (List.mem_range.mpr inside)
    simp only [connectL2,bind_ok_iff] at made
    obtain ⟨_,_,l3,found,_⟩ := made
    have within := nodeAt_succeeds_iff.mp ⟨l3,found⟩
    rwa [built.length_l3s] at within
  have even : n % 2 = 0 := by
    by_contra odd
    have := cpuFound (n - 1) (by omega)
    omega
  refine ⟨?_,even⟩
  by_contra large
  have := l2Found 32 (by omega)
  omega

/-- The system is built exactly for the even numbers of cores up to 64, when the trace can be
    opened for each of them. -/
theorem build_succeeds_iff : (∃ sys, buildChampSimSystem openTrace packets numCPUs = .ok sys) ↔
    0 ≤ numCPUs ∧ numCPUs ≤ 64 ∧ numCPUs % 2 = 0 ∧ ∀ i < numCPUs.toNat, ∃ reader, openTrace (i % 256) = .ok reader := by
  simp only [build_ok_iff]
  constructor
  · rintro ⟨sys,positive,built⟩
    obtain ⟨small,even⟩ := built.size
    refine ⟨positive,by omega,by omega,?_⟩
    intro i inside
    obtain ⟨cpu,cpuBuilt⟩ := mapM_succeeds_iff.mp ⟨_,built.cpus⟩ i (List.mem_range.mpr inside)
    simp only [buildCPU,bind_ok_iff] at cpuBuilt
    obtain ⟨reader,opened,_⟩ := cpuBuilt
    exact ⟨reader,opened⟩
  · rintro ⟨positive,small,even,opened⟩
    let n := numCPUs.toNat
    obtain ⟨cpus,cpusBuilt⟩ := mapM_range_succeeds (f := buildCPU openTrace n) (n := n) fun i inside => by
      obtain ⟨reader,readerOpened⟩ := opened i inside
      exact ⟨_,bind_ok_iff.mpr ⟨reader,readerOpened,rfl⟩⟩
    obtain ⟨l2s,l2sBuilt⟩ := mapM_range_succeeds (f := buildL2 n (n / cpusPerL2)) (n := n / cpusPerL2) fun i _ => ⟨_,rfl⟩
    obtain ⟨l3s,l3sBuilt⟩ := mapM_range_succeeds (f := buildL3 n (n / cpusPerL2)) (n := numL3s) fun i _ => ⟨_,rfl⟩
    obtain ⟨drams,dramsBuilt⟩ := mapM_range_succeeds (f := buildDRAM packets n (n / cpusPerL2)) (n := numChannels)
      fun i _ => ⟨_,rfl⟩
    have lengthCPUs : cpus.length = n := (length_of_mapM_ok cpusBuilt).trans List.length_range
    have lengthL2s : l2s.length = n / 2 := (length_of_mapM_ok l2sBuilt).trans List.length_range
    have lengthL3s : l3s.length = 8 := length_of_mapM_ok l3sBuilt
    have lengthDrams : drams.length = 8 := length_of_mapM_ok dramsBuilt
    let memCtrls := (List.range numMemCtrls).map (buildMemCtrl n (n / cpusPerL2))
    let routers := (List.range numRingNodes).map (buildRouter n (n / cpusPerL2))
    have lengthMCs : memCtrls.length = 8 := rfl
    have lengthRouters : routers.length = 16 := rfl
    obtain ⟨cpuLinks,cpuMade⟩ := mapM_range_succeeds (f := connectCPU cpus l2s) (n := n) fun i inside => by
      have l2 : i / cpusPerL2 < l2s.length := by
        simp only [cpusPerL2]
        omega
      exact connect_succeeds (by omega) l2 fun cpu l2 => bothWays cpu 0 l2 (i % cpusPerL2) 10 false
    obtain ⟨l2Links,l2Made⟩ := mapM_range_succeeds (f := connectL2 l2s l3s) (n := n / cpusPerL2) fun i inside => by
      have within : i < n / 2 := inside
      have l3 : i / l2sPerL3 < l3s.length := by
        simp only [l2sPerL3]
        omega
      exact connect_succeeds (by omega) l3 fun l2 l3 => bothWays l2 cpusPerL2 l3 (i % l2sPerL3) 20 false
    obtain ⟨l3Links,l3Made⟩ := mapM_range_succeeds (f := connectL3 l3s routers) (n := numL3s) fun i inside => by
      have within : i < 8 := inside
      exact connect_succeeds (by omega) (by omega) fun l3 router => bothWays l3 l2sPerL3 router 1 localLatency true
    obtain ⟨mcLinks,mcMade⟩ := mapM_range_succeeds (f := connectMemCtrl memCtrls routers) (n := numMemCtrls) fun i inside => by
      have within : i < 8 := inside
      exact connect_succeeds (by omega) (by omega) fun mc router => bothWays mc 0 router 1 localLatency true
    obtain ⟨ringLinks,ringMade⟩ := mapM_range_succeeds (f := connectRing routers) (n := numRingNodes) fun i inside => by
      have within : i < 16 := inside
      have next : (i + 1) % numRingNodes < 16 := Nat.mod_lt _ (by decide)
      exact connect_succeeds (by omega) (by omega) fun router nextRouter => [⟨router,0,nextRouter,0,ringLatency,1,true⟩]
    obtain ⟨dramLinks,dramMade⟩ := mapM_range_succeeds (f := connectDRAM memCtrls drams) (n := numMemCtrls) fun i inside => by
      have within : i < 8 := inside
      exact connect_succeeds (by omega) (by omega) fun mc dram => bothWays mc 1 dram 0 20 false
    exact ⟨⟨cpus,l2s,l3s,memCtrls,drams,routers,_⟩,positive,cpusBuilt,l2sBuilt,l3sBuilt,rfl,dramsBuilt,rfl,
      cpuLinks,l2Links,l3Links,mcLinks,ringLinks,dramLinks,cpuMade,l2Made,l3Made,mcMade,ringMade,dramMade,rfl⟩

end
end FlowSim.MemSystem
