import FlowSim.Cache.SetAssociativeCache
import FlowSim.Cache.MESIController
import FlowSim.Cpu.O3CPU
import FlowSim.Dram.DRAMChannel
import FlowSim.Node.Handler

/-!
The handlers of the memory system: cores with their first-level caches, shared
caches, memory controllers, and DRAM channels. A handler takes its input packets in
turn and frees each one it has handled; it does not look at what becomes of the
packets it injects. The output queues of a node are its handler's, in their order.
-/
namespace FlowSim.MemSystem
open FlowSim.Lib FlowSim.Node FlowSim.Cache FlowSim.Queue
set_option linter.unusedSimpArgs false

/-! ### Packets -/

def packetTypeMemoryRequest : Int := 1
def packetTypeMemoryResponse : Int := 2

def opRead : Int := 0
def opWrite : Int := 1

def newMemoryRequestPacket (sourceID targetID : Int) (addr vaddr instrID : UInt64) (isWrite : Bool) (data : UInt64) :
    Packet where
  sourceID := sourceID
  targetID := targetID
  type := packetTypeMemoryRequest
  addr := addr
  vAddr := vaddr
  instrID := instrID
  op := if isWrite then opWrite else opRead
  data := data

def newMemoryResponsePacket (sourceID targetID : Int) (addr data instrID cycle : UInt64) : Packet where
  sourceID := sourceID
  targetID := targetID
  type := packetTypeMemoryResponse
  addr := addr
  data := data
  instrID := instrID
  cycle := cycle

/-! ### Input packets -/

section
variable {σ : Type}

/-- Handles the packets in turn and frees each one; the first error ends the loop. -/
def handleInputs (handle : σ → Packet → Prog nodeInterface (Option String × σ)) :
    σ → List PacketRef → Prog nodeInterface (Option String × σ)
  | h, [] => return (none,h)
  | h, ref :: refs => do
    let (error,h) ← handle h ref.packet
    match error with
    | some err => return (some err,h)
    | none =>
      free ref
      handleInputs handle h refs

/-- The same for the input queues from index `i` on. -/
def handleQueues (handle : Nat → σ → Packet → Prog nodeInterface (Option String × σ)) :
    Nat → σ → List (List PacketRef) → Prog nodeInterface (Option String × σ)
  | _, h, [] => return (none,h)
  | i, h, refs :: queues => do
    let (error,h) ← handleInputs (handle i) h refs
    match error with
    | some err => return (some err,h)
    | none => handleQueues handle (i + 1) h queues

end

/-- The error of a packet of another type. -/
def invalidType (what : String) (pkt : Packet) : String := what ++ toString pkt.type

/-- What the runtime says when the code cannot go on. -/
def divideByZero : String := "runtime error: integer divide by zero"
def indexOutOfRange : String := "runtime error: index out of range"

/-! ### The shared cache -/

/-- The cores are those of the nodes above, in the order of the queues; the memory
    controller comes after them. -/
structure L2CacheNodeHandler where
  l2Cache : SetAssociativeCache
  mesiController : MESIController
  nodeID : Int
  cpuNodeIDs : List Int
  memCtrlID : Int

namespace L2CacheNodeHandler

def newL2CacheNodeHandler (nodeID : Int) (cpuNodeIDs : List Int) (memCtrlID : Int) (l2Cache : SetAssociativeCache) :
    L2CacheNodeHandler :=
  { l2Cache, mesiController := .newMESIController, nodeID, cpuNodeIDs, memCtrlID }

def responseTo (h : L2CacheNodeHandler) (cycle cpuIndex : Nat) (address data instrID : UInt64) : Packet :=
  newMemoryResponsePacket h.nodeID (h.cpuNodeIDs.getD cpuIndex 0) address data instrID (UInt64.ofNat cycle)

def requestToMemory (h : L2CacheNodeHandler) (pkt : Packet) : Packet :=
  newMemoryRequestPacket h.nodeID h.memCtrlID pkt.addr pkt.vAddr pkt.instrID (decide (pkt.op = opWrite)) pkt.data

def sendResponseToCPU (h : L2CacheNodeHandler) (cycle cpuIndex : Nat) (address data instrID : UInt64) :
    Prog nodeInterface (Option String × L2CacheNodeHandler) :=
  if cpuIndex < h.cpuNodeIDs.length then do
    let _ ← injectPackets cpuIndex cycle [h.responseTo cycle cpuIndex address data instrID]
    return (none,h)
  else return (some indexOutOfRange,h)

def sendRequestToMemory (h : L2CacheNodeHandler) (cycle : Nat) (pkt : Packet) :
    Prog nodeInterface (Option String × L2CacheNodeHandler) := do
  let _ ← injectPackets h.cpuNodeIDs.length cycle [h.requestToMemory pkt]
  return (none,h)

/-- A memory response fills the cache and is passed on to the first core. -/
def handleMemoryResponse (cycle : Nat) (h : L2CacheNodeHandler) (pkt : Packet) :
    Prog nodeInterface (Option String × L2CacheNodeHandler) :=
  if pkt.type ≠ packetTypeMemoryResponse then return (some (invalidType "invalid response type for L2: " pkt),h)
  else
    let h := { h with l2Cache := h.l2Cache.handleFill pkt.addr cycle }
    let cpuIndex := 0
    h.sendResponseToCPU cycle cpuIndex pkt.addr pkt.data pkt.instrID

/-- A core's request is answered when it hits, and passed on to memory when it misses.
    The coherence messages of a hit are not sent anywhere. -/
def handleCPURequest (cycle cpuIndex : Nat) (h : L2CacheNodeHandler) (pkt : Packet) :
    Prog nodeInterface (Option String × L2CacheNodeHandler) :=
  if pkt.type ≠ packetTypeMemoryRequest then return (some (invalidType "invalid packet type for L2: " pkt),h)
  else
    let accessType := if pkt.op = opWrite then .store else .load
    let (accessed,_,l2Cache) := h.l2Cache.access pkt.addr pkt.vAddr pkt.instrID.toNat accessType cycle
    let h := { h with l2Cache }
    if accessed.hit then
      let type : CoherenceMessageType := if pkt.op = opWrite then .write else .read
      let (_,mesiController) := h.mesiController.handleRequest { type, address := pkt.addr, requestorID := cpuIndex }
      let h := { h with mesiController }
      h.sendResponseToCPU cycle cpuIndex pkt.addr pkt.data pkt.instrID
    else h.sendRequestToMemory cycle pkt

/-- First the responses of the memory controller, then the requests of the cores. -/
def process : Handler L2CacheNodeHandler := fun cycle h inputs => do
  let (error,h) ← handleInputs (handleMemoryResponse cycle) h (inputs.getD h.cpuNodeIDs.length [])
  match error with
  | some err => return (some err,h)
  | none => handleQueues (handleCPURequest cycle) 0 h (inputs.take h.cpuNodeIDs.length)

end L2CacheNodeHandler

/-! ### The memory controller -/

inductive AddressMappingStrategy where
  | mappingInterleaved
  | mappingRanged
  | other (strategy : Int)
deriving DecidableEq, Repr

structure MemoryControllerHandler where
  nodeID : Int
  upstreamNodeIDs : List Int
  dramChannelIDs : List Int
  addressMapping : AddressMappingStrategy
deriving DecidableEq, Repr

/-- The binary logarithm, rounded up. -/
def log2 (n : Nat) : Nat := if n ≤ 1 then 0 else Nat.log2 (n - 1) + 1

namespace MemoryControllerHandler

def newMemoryControllerHandler (nodeID : Int) (upstreamNodeIDs dramChannelIDs : List Int) (strategy : AddressMappingStrategy) :
    MemoryControllerHandler :=
  { nodeID, upstreamNodeIDs, dramChannelIDs, addressMapping := strategy }

/-- The DRAM channel of an address; none when the code divides by zero. -/
def selectChannel (h : MemoryControllerHandler) (address : UInt64) : Option Nat :=
  let numChannels := h.dramChannelIDs.length
  if numChannels = 0 then none
  else match h.addressMapping with
  | .mappingInterleaved => some ((address.toNat >>> 6 &&& (2 ^ log2 numChannels - 1)) % numChannels)
  | .mappingRanged =>
    let addressPerChannel := 2 ^ (64 - log2 numChannels) % 2 ^ 64
    if addressPerChannel = 0 then none else some (address.toNat / addressPerChannel % numChannels)
  | .other _ => some (address.toNat % numChannels)

def requestTo (h : MemoryControllerHandler) (channelIndex : Nat) (pkt : Packet) : Packet :=
  newMemoryRequestPacket h.nodeID (h.dramChannelIDs.getD channelIndex 0) pkt.addr pkt.vAddr pkt.instrID
    (decide (pkt.op = opWrite)) pkt.data

/-- A request goes to the channel of its address. -/
def handleUpstreamRequest (cycle : Nat) (h : MemoryControllerHandler) (pkt : Packet) :
    Prog nodeInterface (Option String × MemoryControllerHandler) :=
  if pkt.type ≠ packetTypeMemoryRequest then
    return (some (invalidType "invalid packet type for MemoryController: " pkt),h)
  else match h.selectChannel pkt.addr with
  | none => return (some divideByZero,h)
  | some channelIndex => do
    let _ ← injectPackets (h.upstreamNodeIDs.length + channelIndex) cycle [h.requestTo channelIndex pkt]
    return (none,h)

/-- The place of the node among those above; the first one stands for all others. -/
def upstreamIndex (h : MemoryControllerHandler) (destNodeID : Int) : Nat :=
  (h.upstreamNodeIDs.findIdx? (fun nodeID => nodeID = destNodeID)).getD 0

def responseTo (h : MemoryControllerHandler) (cycle upstreamIndex : Nat) (pkt : Packet) : Packet :=
  newMemoryResponsePacket h.nodeID (h.upstreamNodeIDs.getD upstreamIndex 0) pkt.addr pkt.data pkt.instrID
    (UInt64.ofNat cycle)

/-- A response goes to the node that it has as its target. -/
def handleDRAMResponse (cycle : Nat) (h : MemoryControllerHandler) (pkt : Packet) :
    Prog nodeInterface (Option String × MemoryControllerHandler) :=
  if pkt.type ≠ packetTypeMemoryResponse then
    return (some (invalidType "invalid response type for MemoryController: " pkt),h)
  else
    let upstreamIndex := h.upstreamIndex pkt.targetID
    if upstreamIndex < h.upstreamNodeIDs.length then do
      let _ ← injectPackets upstreamIndex cycle [h.responseTo cycle upstreamIndex pkt]
      return (none,h)
    else return (some indexOutOfRange,h)

/-- First the responses of the DRAM channels, then the requests from above. -/
def process : Handler MemoryControllerHandler := fun cycle h inputs => do
  let numUpstream := h.upstreamNodeIDs.length
  let (error,h) ← handleQueues (fun _ => handleDRAMResponse cycle) numUpstream h
    ((inputs.drop numUpstream).take h.dramChannelIDs.length)
  match error with
  | some err => return (some err,h)
  | none => handleQueues (fun _ => handleUpstreamRequest cycle) 0 h (inputs.take numUpstream)

end MemoryControllerHandler

/-! ### The DRAM channel -/

/-- `nextPkt` is the next packet's pointer, and `instrIDs` what the callbacks of the
    packets remember. -/
structure DRAMNodeHandler where
  dramChannel : Dram.Session
  nodeID : Int
  cpuID : Int
  pendingResponses : List Packet
  nextPkt : Dram.PacketRef
  instrIDs : Dram.PacketRef → UInt64

namespace DRAMNodeHandler

def newDRAMNodeHandler (nodeID cpuID : Int) (dramChannel : Dram.DRAMChannel) : DRAMNodeHandler where
  dramChannel := ⟨dramChannel,[]⟩
  nodeID := nodeID
  cpuID := cpuID
  pendingResponses := []
  nextPkt := 0
  instrIDs := fun _ => 0

def hex (n : UInt64) : String := "0x" ++ String.ofList (Nat.toDigits 16 n.toNat)

def queueFull (addr : UInt64) : String := "DRAM queue full for address " ++ hex addr

/-- A request becomes a packet of the channel, whose callback adds a response to the
    pending ones. -/
def handleMemoryRequest (h : DRAMNodeHandler) (pkt : Packet) : Option String × DRAMNodeHandler :=
  if pkt.type ≠ packetTypeMemoryRequest then (some (invalidType "invalid packet type for DRAM: " pkt),h)
  else
    let dramPkt : Dram.DRAMPacket := {
      address := pkt.addr, data := pkt.data, isWrite := decide (pkt.op = opWrite), scheduled := false, readyTime := 0,
      callback := true }
    let (success,dramChannel) := h.dramChannel.addRequest h.nextPkt dramPkt
    let h := { h with
      dramChannel, nextPkt := h.nextPkt + 1, instrIDs := Function.update h.instrIDs h.nextPkt pkt.instrID }
    if success then (none,h) else (some (queueFull pkt.addr),h)

/-- The response that a callback adds. -/
def responseOf (h : DRAMNodeHandler) (call : Dram.Call) : Packet where
  sourceID := 0
  targetID := 0
  addr := call.addr
  data := call.data
  instrID := h.instrIDs call.pkt
  cycle := call.cycle
  type := packetTypeMemoryResponse

/-- Ticks the channel and sets its clock; the callbacks called on the way add their
    responses. -/
def tick (h : DRAMNodeHandler) (cycle : Nat) : Option DRAMNodeHandler :=
  h.dramChannel.dc.tick.map fun dc =>
    { h with
      dramChannel := { h.dramChannel with dc := dc.setCycle (UInt64.ofNat cycle) }
      pendingResponses := h.pendingResponses ++ (dc.calls.drop h.dramChannel.dc.calls.length).map h.responseOf }

def addressed (h : DRAMNodeHandler) (pkt : Packet) : Packet := { pkt with sourceID := h.nodeID, targetID := h.cpuID }

/-- Sends the pending responses in one batch and forgets them. -/
def sendPendingResponses (h : DRAMNodeHandler) (cycle : Nat) : Prog nodeInterface (Option String × DRAMNodeHandler) :=
  let packets := h.pendingResponses.map h.addressed
  if 0 < packets.length then do
    let _ ← injectPackets 0 cycle packets
    return (none,{ h with pendingResponses := [] })
  else return (none,h)

def process : Handler DRAMNodeHandler := fun cycle h inputs => do
  let (error,h) ← handleInputs (fun h pkt => return h.handleMemoryRequest pkt) h (inputs.headD [])
  match error with
  | some err => return (some ("failed to handle memory request: " ++ err),h)
  | none =>
    match h.tick cycle with
    | none => return (some indexOutOfRange,h)
    | some h => h.sendPendingResponses cycle

end DRAMNodeHandler

/-! ### The core -/

/-- The requests of the first-level cache on their way to the network. -/
structure FlowSimMemoryAdapter where
  requestQueue : List Packet
deriving DecidableEq, Repr

namespace FlowSimMemoryAdapter

def newFlowSimMemoryAdapter : FlowSimMemoryAdapter := ⟨[]⟩

def sendRequest (a : FlowSimMemoryAdapter) (req : MemoryRequest) : FlowSimMemoryAdapter :=
  { a with requestQueue := a.requestQueue ++ [{
      sourceID := 0, targetID := 0, addr := req.address, vAddr := req.vAddress, instrID := UInt64.ofNat req.instrID,
      op := if req.isWrite then opWrite else opRead, data := req.data, type := packetTypeMemoryRequest }] }

/-- Hands out all requests and forgets them. -/
def getPendingRequests (a : FlowSimMemoryAdapter) : List Packet × FlowSimMemoryAdapter := (a.requestQueue,⟨[]⟩)

end FlowSimMemoryAdapter

structure CPUNodeHandler where
  cpu : Cpu.O3CPU
  l1dCache : SetAssociativeCache
  memoryAdapter : FlowSimMemoryAdapter
  nodeID : Int
  dramID : Int

namespace CPUNodeHandler

/-- A core that is not standalone, whose cache asks the adapter for its blocks. -/
def newCPUNodeHandler (nodeID dramID : Int) (cpu : Cpu.O3CPU) (l1dCache : SetAssociativeCache) : CPUNodeHandler where
  cpu := cpu.setStandaloneMode false
  l1dCache := l1dCache.setLowerLevel
  memoryAdapter := .newFlowSimMemoryAdapter
  nodeID := nodeID
  dramID := dramID

def accessTypeOf : Cpu.AccessType → Cache.AccessType
  | .load => .load
  | .store => .store

/-- The cache's results for accesses of the core, one after the other, and the
    requests that the adapter gets. -/
def accessAll (l1dCache : SetAssociativeCache) (memoryAdapter : FlowSimMemoryAdapter) :
    List Cpu.CacheAccess → List Accessed × SetAssociativeCache × FlowSimMemoryAdapter
  | [] => ([],l1dCache,memoryAdapter)
  | access :: rest =>
    let (accessed,request,l1dCache) :=
      l1dCache.access access.addr access.vaddr access.instrID (accessTypeOf access.accessType) access.cycle
    let memoryAdapter := request.elim memoryAdapter memoryAdapter.sendRequest
    let (later,l1dCache,memoryAdapter) := accessAll l1dCache memoryAdapter rest
    (accessed :: later,l1dCache,memoryAdapter)

/-- A memory response fills the cache and completes a load of its instruction. -/
def handleMemoryResponse (h : CPUNodeHandler) (cycle : Nat) (pkt : Packet) : Option String × CPUNodeHandler :=
  if pkt.type ≠ packetTypeMemoryResponse then (some (invalidType "invalid packet type for CPU: " pkt),h)
  else
    let l1dCache := h.l1dCache.handleFill pkt.addr cycle
    let (cpu,_) := h.cpu.handleLoadResponse pkt.instrID.toNat cycle
    (none,{ h with l1dCache, cpu })

/-- The core's tick, when the cache answers its accesses with these ready cycles: they
    have to be those that the cache gives. -/
def tick (h : CPUNodeHandler) (answers : Nat → Nat) : Option CPUNodeHandler :=
  (h.cpu.setL1DCache answers).tick.toOption.bind fun cpu =>
    let made := h.cpu.accesses.length
    let (results,l1dCache,memoryAdapter) := accessAll h.l1dCache h.memoryAdapter (cpu.accesses.drop made)
    if results.map Accessed.readyCycle = (List.range' made results.length).map answers then
      some { h with cpu, l1dCache, memoryAdapter }
    else none

def addressed (h : CPUNodeHandler) (req : Packet) : Packet :=
  { req with sourceID := h.nodeID, targetID := h.dramID, type := packetTypeMemoryRequest }

/-- Sends the adapter's requests in one batch. -/
def sendPendingRequests (h : CPUNodeHandler) (cycle : Nat) : Prog nodeInterface (Option String × CPUNodeHandler) :=
  let (requests,memoryAdapter) := h.memoryAdapter.getPendingRequests
  let h := { h with memoryAdapter }
  if requests.length = 0 then return (none,h)
  else do
    let _ ← injectPackets 0 cycle (requests.map h.addressed)
    return (none,h)

/-- Where the answers of the cache do not fit the core's accesses, or the core panics,
    there is no next state, and the handler stops. -/
def process (answers : Nat → Nat) : Handler CPUNodeHandler := fun cycle h inputs => do
  let (error,h) ← handleInputs (fun h pkt => return h.handleMemoryResponse cycle pkt) h (inputs.headD [])
  match error with
  | some err => return (some ("failed to handle memory response: " ++ err),h)
  | none =>
    match h.tick answers with
    | none => return (some indexOutOfRange,h)
    | some h => h.sendPendingRequests cycle

end CPUNodeHandler
end FlowSim.MemSystem
