import FlowSim.Lib.Prog
import FlowSim.Lib.Transition
import FlowSim.Lib.Interleave
import FlowSim.Lib.Conjunction
import FlowSim.Lib.Events
import FlowSim.Lib.Confluence
import FlowSim.Lib.Family
import FlowSim.Lib.Restraint
import FlowSim.Lib.Traffic
import FlowSim.Lib.RingBuffer
import FlowSim.Lib.MixedRadix
import FlowSim.Lib.Climb
import FlowSim.Lib.ReplyChannel
import FlowSim.Lib.Recency
import FlowSim.Lib.Reading
import FlowSim.Lib.Search
import FlowSim.Packet
import FlowSim.AheadPort.Sync
import FlowSim.AheadPort.Decisions
import FlowSim.AheadPort.Port
import FlowSim.AheadPort.Stability
import FlowSim.AheadPort.WakeUp
import FlowSim.AheadPort.Delivery
import FlowSim.AheadPort.Exchange
import FlowSim.AheadPort.Ends
import FlowSim.AheadPort.Independence
import FlowSim.AheadPort.Wiring
import FlowSim.AheadPort.Carriage
import FlowSim.Queue.InputQueue
import FlowSim.Queue.Credit
import FlowSim.Queue.Promise
import FlowSim.Queue.FIFO
import FlowSim.Queue.OutputQueue
import FlowSim.Queue.Sending
import FlowSim.Queue.Saturation
import FlowSim.Node.Handler
import FlowSim.Node.RingRouter
import FlowSim.Node.RingInjection
import FlowSim.Node.BaseNode
import FlowSim.Node.Environment
import FlowSim.Node.Chunking
import FlowSim.Node.Ticking
import FlowSim.Node.Conduct
import FlowSim.Node.Carriage
import FlowSim.Links.Link
import FlowSim.Links.BufferedLinkType
import FlowSim.Links.BufferedTick
import FlowSim.Links.Safety
import FlowSim.Links.Backlog
import FlowSim.Links.BufferlessLinkType
import FlowSim.Links.Occupancy
import FlowSim.Links.Reset
import FlowSim.Links.Downstream
import FlowSim.Links.Readiness
import FlowSim.Queue.Taking
import FlowSim.Queue.Custody
import FlowSim.Links.EndToEnd
import FlowSim.Links.Conduct
import FlowSim.Links.Carriage
import FlowSim.Network.Network
import FlowSim.Network.Workers
import FlowSim.Network.Schedule
import FlowSim.Network.Waits
import FlowSim.Network.Pace
import FlowSim.Network.Progress
import FlowSim.Network.Deadlock
import FlowSim.Network.Conservation
import FlowSim.Loadbench.Ring
import FlowSim.Loadbench.Traffic
import FlowSim.Transaction.Types
import FlowSim.Transaction.Manager
import FlowSim.Transaction.Holders
import FlowSim.Transaction.Routing
import FlowSim.Transaction.LateWait
import FlowSim.Transaction.Emission
import FlowSim.Transaction.Progress
import FlowSim.Transaction.Place
import FlowSim.Transaction.Hosting
import FlowSim.Transaction.Residue
import FlowSim.Transaction.Answers
import FlowSim.Directory.FullyAssociative
import FlowSim.Directory.SingleWriter
import FlowSim.Directory.Recorded
import FlowSim.Directory.Eviction
import FlowSim.Dram.DRAMChannel
import FlowSim.Dram.Conservation
import FlowSim.Dram.Contents
import FlowSim.Dram.Location
import FlowSim.Dram.Scheduling
import FlowSim.Dram.Steps
import FlowSim.Dram.Timing
import FlowSim.Dram.Draining
import FlowSim.Cache.Storage
import FlowSim.Cache.Lookup
import FlowSim.Cache.SetAssociativeCache
import FlowSim.Cache.Outcomes
import FlowSim.Cache.Coverage
import FlowSim.Cache.Stores
import FlowSim.Cache.Snoop
import FlowSim.Cache.Victims
import FlowSim.Cache.Reports
import FlowSim.Cache.FullyAssociativeCache
import FlowSim.Cache.Blocks
import FlowSim.Cache.MESIController
import FlowSim.Cache.Sharers
import FlowSim.Cpu.RegisterAllocator
import FlowSim.Cpu.Renaming
import FlowSim.Cpu.Buffers
import FlowSim.Cpu.ReorderRing
import FlowSim.Cpu.Forwarding
import FlowSim.Cpu.O3CPU
import FlowSim.Cpu.Loops
import FlowSim.Cpu.Scheduling
import FlowSim.Cpu.Execution
import FlowSim.Cpu.Frontier
import FlowSim.Cpu.Pipeline
import FlowSim.Cpu.Stages
import FlowSim.Cpu.Retirement
import FlowSim.Cpu.LoadStore
import FlowSim.Cpu.Dataflow
import FlowSim.Cpu.Partition
import FlowSim.Cpu.Ledger
import FlowSim.Cpu.Bookkeeping
import FlowSim.Cpu.Completions
import FlowSim.Cpu.Recovery
import FlowSim.Cpu.DIB
import FlowSim.Trace.Records
import FlowSim.Trace.BulkReader
import FlowSim.Trace.Truncation
import FlowSim.Trace.BufferedReader
import FlowSim.Trace.SharedReader
import FlowSim.Trace.SharedBlocks
import FlowSim.Trace.Returning
import FlowSim.Trace.Agreement
import FlowSim.MemSystem.Nodes
import FlowSim.MemSystem.Answers
import FlowSim.MemSystem.Takes
import FlowSim.MemSystem.Rejection
import FlowSim.MemSystem.Requesters
import FlowSim.MemSystem.Misses
import FlowSim.MemSystem.SystemBuilder
import FlowSim.MemSystem.RingExits
import FlowSim.MemSystem.BackPressure
import FlowSim.Coherence.Tree
import FlowSim.Coherence.Router
import FlowSim.Coherence.Built
import FlowSim.Coherence.Reaching
import FlowSim.Coherence.Path
import FlowSim.Coherence.Calls
import FlowSim.Coherence.Interleaving
import FlowSim.Coherence.Analyzer
import FlowSim.Coherence.Inference
import FlowSim.Coherence.Analysis
import FlowSim.Coherence.IterationOrder
import FlowSim.Coherence.WellFormed
import FlowSim.Chi.SingleWriter
import FlowSim.Chi.DirtyData
import FlowSim.Visualization.RoundTrip
