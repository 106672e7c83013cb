import Mathlib

/-!
A DRAM channel: the address mapping that finds the bank of an address, the read
and write queues, the banks, and the data bus. Packets are named by their
references and kept with the channel, since queues, banks and the bus refer to
the same packet; so is a log of the callbacks that were called. What a nil
pointer or an index out of range makes panic gives `none`.
-/
namespace FlowSim.Dram
set_option linter.unusedSimpArgs false

structure DRAMConfig where
  channels : UInt32
  ranks : UInt32
  bankGroups : UInt32
  banks : UInt32
  rows : UInt32
  columns : UInt32
  rqSize : UInt32
  wqSize : UInt32
  tRP : UInt64
  tRCD : UInt64
  tCAS : UInt64
  tRAS : UInt64
  channelWidth : UInt32
deriving DecidableEq

def defaultDRAMConfig : DRAMConfig where
  channels := 1
  ranks := 1
  bankGroups := 4
  banks := 4
  rows := 32768
  columns := 1024
  rqSize := 64
  wqSize := 64
  tRP := 15
  tRCD := 15
  tCAS := 15
  tRAS := 35
  channelWidth := 8

/-! ### Address mapping -/

structure AddressMapping where
  offsetBits : UInt32
  channelBits : UInt32
  bankgroupBits : UInt32
  bankBits : UInt32
  columnBits : UInt32
  rankBits : UInt32
  rowBits : UInt32
  channelMask : UInt64
  bankgroupMask : UInt64
  bankMask : UInt64
  columnMask : UInt64
  rankMask : UInt64
  rowMask : UInt64
  ranks : UInt32
  bankgroups : UInt32
  banks : UInt32
deriving DecidableEq

def isPowerOfTwo (n : UInt32) : Bool := decide (n > 0) && (n &&& (n - 1)) == 0

/-- The number of zeros below the lowest one. -/
def trailingZeros32 (n : UInt32) : UInt32 :=
  ((List.range 32).find? (fun i => n.toNat.testBit i)).elim 32 UInt32.ofNat

/-- A shift by 64 or more leaves nothing. -/
def shiftRight (addr : UInt64) (shift : UInt32) : UInt64 :=
  if shift < 64 then addr >>> shift.toUInt64 else 0

namespace AddressMapping

def notPowerOfTwo (name : String) (n : UInt32) : String := name ++ " must be power of 2, got " ++ toString n

def newAddressMapping (config : DRAMConfig) : Except String AddressMapping :=
  if !isPowerOfTwo config.channels then .error (notPowerOfTwo "Channels" config.channels)
  else if !isPowerOfTwo config.ranks then .error (notPowerOfTwo "Ranks" config.ranks)
  else if !isPowerOfTwo config.bankGroups then .error (notPowerOfTwo "BankGroups" config.bankGroups)
  else if !isPowerOfTwo config.banks then .error (notPowerOfTwo "Banks" config.banks)
  else if !isPowerOfTwo config.rows then .error (notPowerOfTwo "Rows" config.rows)
  else if !isPowerOfTwo config.columns then .error (notPowerOfTwo "Columns" config.columns)
  else if !isPowerOfTwo config.channelWidth then .error (notPowerOfTwo "ChannelWidth" config.channelWidth)
  else .ok {
    offsetBits := trailingZeros32 config.channelWidth
    channelBits := trailingZeros32 config.channels
    bankgroupBits := trailingZeros32 config.bankGroups
    bankBits := trailingZeros32 config.banks
    columnBits := trailingZeros32 config.columns
    rankBits := trailingZeros32 config.ranks
    rowBits := trailingZeros32 config.rows
    channelMask := (config.channels - 1).toUInt64
    bankgroupMask := (config.bankGroups - 1).toUInt64
    bankMask := (config.banks - 1).toUInt64
    columnMask := (config.columns - 1).toUInt64
    rankMask := (config.ranks - 1).toUInt64
    rowMask := (config.rows - 1).toUInt64
    ranks := config.ranks
    bankgroups := config.bankGroups
    banks := config.banks }

variable (m : AddressMapping) (addr : UInt64)

def getChannel : UInt64 := shiftRight addr m.offsetBits &&& m.channelMask

def getBankGroup : UInt64 := shiftRight addr (m.offsetBits + m.channelBits) &&& m.bankgroupMask

def getBank : UInt64 := shiftRight addr (m.offsetBits + m.channelBits + m.bankgroupBits) &&& m.bankMask

def getColumn : UInt64 :=
  shiftRight addr (m.offsetBits + m.channelBits + m.bankgroupBits + m.bankBits) &&& m.columnMask

def getRank : UInt64 :=
  shiftRight addr (m.offsetBits + m.channelBits + m.bankgroupBits + m.bankBits + m.columnBits) &&& m.rankMask

def getRow : UInt64 :=
  shiftRight addr (m.offsetBits + m.channelBits + m.bankgroupBits + m.bankBits + m.columnBits + m.rankBits) &&& m.rowMask

/-- The place of the bank of an address among the bank requests. -/
def getBankIndex : UInt64 :=
  m.getRank addr * m.bankgroups.toUInt64 * m.banks.toUInt64 + m.getBankGroup addr * m.banks.toUInt64 + m.getBank addr

def totalBanks : UInt32 := m.ranks * m.bankgroups * m.banks

end AddressMapping

/-! ### The channel -/

/-- A packet's pointer. -/
abbrev PacketRef := Nat

/-- A request. Of its callback the model keeps whether it is set. -/
structure DRAMPacket where
  address : UInt64
  data : UInt64
  isWrite : Bool
  scheduled : Bool
  readyTime : UInt64
  callback : Bool
deriving DecidableEq

structure BankRequest where
  valid : Bool
  rowBufferHit : Bool
  underRefresh : Bool
  openRow : Option UInt64
  readyTime : UInt64
  pkt : Option PacketRef
deriving DecidableEq

/-- A call of a packet's callback. -/
structure Call where
  pkt : PacketRef
  addr : UInt64
  data : UInt64
  cycle : UInt64
deriving DecidableEq

/-- `activeRequest` is the place of the bank request on the data bus. `packets`
    and `calls` are the packets' memory and the log of the callbacks. -/
structure DRAMChannel where
  config : DRAMConfig
  mapping : AddressMapping
  rq : List PacketRef
  wq : List PacketRef
  bankRequest : List BankRequest
  activeRequest : Option Nat
  currentCycle : UInt64
  writeMode : Bool
  dbusAvailable : UInt64
  packets : PacketRef → DRAMPacket
  calls : List Call

namespace DRAMChannel

def idleBank : BankRequest where
  valid := false
  rowBufferHit := false
  underRefresh := false
  openRow := none
  readyTime := 0
  pkt := none

/-- A new channel, over whatever the packets' memory holds. -/
def newDRAMChannel (config : DRAMConfig) (packets : PacketRef → DRAMPacket) : Except String DRAMChannel :=
  match AddressMapping.newAddressMapping config with
  | .error err => .error ("failed to create address mapping: " ++ err)
  | .ok mapping => .ok {
      config, mapping, rq := [], wq := [], bankRequest := List.replicate mapping.totalBanks.toNat idleBank,
      activeRequest := none, currentCycle := 0, writeMode := false, dbusAvailable := 0, packets, calls := [] }

def setPacket (dc : DRAMChannel) (pkt : PacketRef) (content : DRAMPacket) : DRAMChannel :=
  { dc with packets := Function.update dc.packets pkt content }

def setBank (dc : DRAMChannel) (i : Nat) (bank : BankRequest) : DRAMChannel :=
  { dc with bankRequest := dc.bankRequest.set i bank }

/-- A request without a ready time is ready now. -/
def setReadyTime (dc : DRAMChannel) (pkt : PacketRef) : DRAMChannel :=
  if (dc.packets pkt).readyTime = 0 then dc.setPacket pkt { dc.packets pkt with readyTime := dc.currentCycle } else dc

/-- Adds a request to the queue of its kind, unless that is full. -/
def addRequest (dc : DRAMChannel) (pkt : PacketRef) : Bool × DRAMChannel :=
  if (dc.packets pkt).isWrite then
    if dc.wq.length ≥ dc.config.wqSize.toNat then (false,dc)
    else (true,{ dc.setReadyTime pkt with wq := dc.wq ++ [pkt] })
  else if dc.rq.length ≥ dc.config.rqSize.toNat then (false,dc)
  else (true,{ dc.setReadyTime pkt with rq := dc.rq ++ [pkt] })

def setCycle (dc : DRAMChannel) (cycle : UInt64) : DRAMChannel := { dc with currentCycle := cycle }

/-! ### The data bus -/

/-- Takes the packet out of the first queue it is in. -/
def removeFromQueue (dc : DRAMChannel) (pkt : PacketRef) : DRAMChannel :=
  if pkt ∈ dc.rq then { dc with rq := dc.rq.erase pkt } else { dc with wq := dc.wq.erase pkt }

/-- Calls the callback of the packet, if it has one. -/
def callback (dc : DRAMChannel) (pkt : PacketRef) : DRAMChannel :=
  if (dc.packets pkt).callback then
    { dc with calls := dc.calls ++ [⟨pkt,(dc.packets pkt).address,(dc.packets pkt).data,dc.currentCycle⟩] }
  else dc

/-- Finishes the request on the data bus when its time has come. -/
def finishDBusRequest (dc : DRAMChannel) : Option DRAMChannel :=
  match dc.activeRequest with
  | none => some dc
  | some i => dc.bankRequest[i]?.bind fun bank =>
    if bank.readyTime > dc.currentCycle then some dc
    else bank.pkt.map fun pkt =>
      { (dc.callback pkt).setBank i { bank with valid := false, pkt := none } with activeRequest := none }.removeFromQueue pkt

/-- The valid bank request that has been ready for longest, the first of these. -/
def nextRequest (dc : DRAMChannel) : Option Nat × UInt64 :=
  (List.range dc.bankRequest.length).foldl (fun next i =>
    match dc.bankRequest[i]? with
    | some bank =>
      if bank.valid && decide (bank.readyTime ≤ dc.currentCycle) && decide (bank.readyTime < next.2) then
        (some i,bank.readyTime)
      else next
    | none => next) (none,18446744073709551615)

def burstTime : UInt64 := 8

/-- Puts a bank request on the data bus when the bus is free. -/
def populateDBus (dc : DRAMChannel) : DRAMChannel :=
  if dc.activeRequest.isSome then dc
  else if dc.dbusAvailable > dc.currentCycle then dc
  else match dc.nextRequest.1 with
  | none => dc
  | some i =>
    match dc.bankRequest[i]? with
    | none => dc
    | some bank =>
      { dc.setBank i { bank with readyTime := dc.currentCycle + burstTime } with
        activeRequest := some i, dbusAvailable := dc.currentCycle + burstTime }

/-! ### Read and write mode -/

/-- A request goes back to the queue. -/
def unschedule (dc : DRAMChannel) (pkt : PacketRef) : DRAMChannel :=
  dc.setPacket pkt { dc.packets pkt with scheduled := false, readyTime := dc.currentCycle }

/-- Cancels the request of a bank, unless it is on the data bus. -/
def resetBank (dc : DRAMChannel) (i : Nat) : DRAMChannel :=
  match dc.bankRequest[i]? with
  | none => dc
  | some bank =>
    if dc.activeRequest ≠ some i ∧ bank.valid = true then
      let openRow := if bank.readyTime ≥ dc.currentCycle + dc.config.tCAS then bank.openRow else none
      let dc := bank.pkt.elim dc dc.unschedule
      dc.setBank i { bank with valid := false, openRow, pkt := none }
    else dc

def shouldSwitch (dc : DRAMChannel) : Bool :=
  let wqOccupancy := dc.wq.length
  let rqOccupancy := dc.rq.length
  let wqHighWM := dc.config.wqSize.toNat * 7 / 8
  let wqLowWM := dc.config.wqSize.toNat * 6 / 8
  if !dc.writeMode then decide (wqOccupancy ≥ wqHighWM) || (decide (rqOccupancy = 0) && decide (wqOccupancy > 0))
  else decide (wqOccupancy = 0) || (decide (rqOccupancy > 0) && decide (wqOccupancy < wqLowWM))

/-- Switches between reads and writes: all bank requests but the one on the data
    bus are cancelled, and the bus is not available for a while. -/
def swapWriteMode (dc : DRAMChannel) : DRAMChannel :=
  if dc.shouldSwitch then
    let dc := (List.range dc.bankRequest.length).foldl resetBank { dc with writeMode := !dc.writeMode }
    let free := (dc.activeRequest.bind (fun i => dc.bankRequest[i]?)).elim dc.currentCycle BankRequest.readyTime
    { dc with dbusAvailable := free + dc.config.tRAS }
  else dc

/-! ### Scheduling -/

/-- The row that an address is in is open. -/
def rowHit (dc : DRAMChannel) (bank : BankRequest) (pkt : PacketRef) : Bool :=
  bank.openRow == some (dc.mapping.getRow (dc.packets pkt).address)

def bankIndex (dc : DRAMChannel) (pkt : PacketRef) : Nat := (dc.mapping.getBankIndex (dc.packets pkt).address).toNat

def priority (dc : DRAMChannel) (bank : BankRequest) (pkt : PacketRef) : Int64 :=
  100 + (if dc.rowHit bank pkt then 1000 else 0) + (dc.currentCycle - (dc.packets pkt).readyTime).toInt64

/-- Goes over the queue for the packet of highest priority whose bank is idle. -/
def scheduleLoop (dc : DRAMChannel) : List PacketRef → Option PacketRef → Int64 → Option (Option PacketRef)
  | [], bestPkt, _ => some bestPkt
  | pkt :: queue, bestPkt, bestPriority =>
    if (dc.packets pkt).scheduled then scheduleLoop dc queue bestPkt bestPriority
    else dc.bankRequest[dc.bankIndex pkt]?.bind fun bank =>
      if bank.valid || bank.underRefresh then scheduleLoop dc queue bestPkt bestPriority
      else if dc.priority bank pkt > bestPriority then scheduleLoop dc queue (some pkt) (dc.priority bank pkt)
      else scheduleLoop dc queue bestPkt bestPriority

def schedulePacket (dc : DRAMChannel) : Option (Option PacketRef) :=
  dc.scheduleLoop (if dc.writeMode then dc.wq else dc.rq) none (-1)

/-- The bank with the packet, and the row of its address open. -/
def serve (dc : DRAMChannel) (bank : BankRequest) (pkt : PacketRef) : BankRequest :=
  if dc.rowHit bank pkt then
    { bank with rowBufferHit := true, valid := true, pkt := some pkt, readyTime := dc.currentCycle + dc.config.tCAS }
  else
    let latency :=
      if bank.openRow.isSome then dc.config.tRP + dc.config.tRCD + dc.config.tCAS else dc.config.tRCD + dc.config.tCAS
    { bank with
      rowBufferHit := false, openRow := some (dc.mapping.getRow (dc.packets pkt).address),
      valid := true, pkt := some pkt, readyTime := dc.currentCycle + latency }

/-- Gives the packet to its bank, if the packet is ready and the bank idle. -/
def servicePacket (dc : DRAMChannel) : Option PacketRef → Option (Bool × DRAMChannel)
  | none => some (false,dc)
  | some pkt =>
    if (dc.packets pkt).readyTime > dc.currentCycle then some (false,dc)
    else dc.bankRequest[dc.bankIndex pkt]?.map fun bank =>
      if bank.valid || bank.underRefresh then (false,dc)
      else (true,(dc.setBank (dc.bankIndex pkt) (dc.serve bank pkt)).setPacket pkt
        { dc.packets pkt with scheduled := true })

def operate (dc : DRAMChannel) : Option DRAMChannel :=
  dc.finishDBusRequest.bind fun dc =>
    let dc := dc.swapWriteMode.populateDBus
    dc.schedulePacket.bind fun pkt => (dc.servicePacket pkt).map Prod.snd

def tick (dc : DRAMChannel) : Option DRAMChannel := operate { dc with currentCycle := dc.currentCycle + 1 }

end DRAMChannel

/-! ### Runs -/

/-- A channel with the packets that it has accepted. -/
structure Session where
  dc : DRAMChannel
  accepted : List PacketRef

/-- What is done to a channel. A caller adds a packet it has not had accepted
    before, with whatever it has put into it. -/
inductive Op where
  | addRequest (pkt : PacketRef) (content : DRAMPacket)
  | tick
  | setCycle (cycle : UInt64)

/-- Adds a packet with the given contents. -/
def Session.addRequest (s : Session) (pkt : PacketRef) (content : DRAMPacket) : Bool × Session :=
  let (success,dc) := (s.dc.setPacket pkt content).addRequest pkt
  (success,⟨dc,if success then s.accepted ++ [pkt] else s.accepted⟩)

def Session.step (s : Session) : Op → Option Session
  | .addRequest pkt content =>
    if pkt ∉ s.accepted ∧ content.scheduled = false then some (s.addRequest pkt content).2 else none
  | .tick => s.dc.tick.map fun dc => { s with dc }
  | .setCycle cycle => some { s with dc := s.dc.setCycle cycle }

end FlowSim.Dram
