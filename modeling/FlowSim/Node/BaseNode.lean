import FlowSim.Node.Handler

/-!
A node in time. In a cycle it ticks its input queues, lets the handler work and
ticks its output queues, these also for later cycles of the same `AdvanceTo` as long
as a full bandwidth waits. The node works on ports named by its own queues.
-/
namespace FlowSim.Node
open FlowSim.Lib FlowSim.AheadPort FlowSim.Queue
set_option linter.unusedSimpArgs false

/-- The ports of a node, by the queue that holds them. -/
inductive NodePort where
  | input (queue : Nat)
  | output (queue : Nat)
deriving DecidableEq, Repr

/-- Operations on the ports of a node. -/
abbrev nodePorts : Interface := ⟨NodePort × PortOp,fun op => op.2.Resp⟩

/-- Runs the program of a port on the given port. -/
def atPort {α : Type} (port : NodePort) : Prog portInterface α → Prog nodePorts α
  | .done value => .done value
  | .call op next => .call (port,op) (fun answer => atPort port (next answer))

/-- A node with the handler's state. Names, caches, directories, the protocol's data
    and the monitor are left out. -/
structure BaseNode (σ : Type) where
  id : Int
  queues : Queues
  connected : NodePort → Bool
  outputQueueAhead : List Nat
  state : σ
  currentCycle : Nat
  advanceTarget : Nat

namespace BaseNode
variable {σ : Type}

/-- A node at cycle 0 with the given queues. -/
def newBaseNode (id : Int) (queues : Queues) (connected : NodePort → Bool) (state : σ) : BaseNode σ where
  id := id
  queues := queues
  connected := connected
  outputQueueAhead := List.replicate queues.outputs.length 0
  state := state
  currentCycle := 0
  advanceTarget := 0

/-! ### Receiving -/

/-- Ticks an input queue; without a port there is nothing to do. -/
def tickInput (connected : Bool) (i cycle : Nat) (iq : InputQueue) : Prog nodePorts (Option String × InputQueue) :=
  if connected then atPort (.input i) (iq.tick cycle) else return (none,iq)

/-- Ticks the input queues from index `i` on, and collects references to what waits
    in them. The first error ends the loop. -/
def tickInputQueues (sortSlice : SliceSort) (connected : NodePort → Bool) (cycle : Nat) :
    Nat → List InputQueue → Prog nodePorts (Option String × List InputQueue × List (List PacketRef))
  | _, [] => return (none,[],[])
  | i, iq :: rest => do
    let (error,iq) ← tickInput (connected (.input i)) i cycle iq
    match error with
    | some error => return (some error,iq :: rest,[])
    | none =>
      let (error,rest,refs) ← tickInputQueues sortSlice connected cycle (i + 1) rest
      return (error,iq :: rest,iq.peekPickTo sortSlice i iq.capacity :: refs)

/-! ### Sending -/

/-- Ticks an output queue; without a port there is nothing to do. -/
def tickOutput (connected : Bool) (i cycle : Nat) (oq : OutputQueue) : Prog nodePorts OutputQueue :=
  if connected then atPort (.output i) (oq.tick cycle) else return oq

/-- Ticks one output queue for `remaining` cycles from `curr` on. A cycle after the
    node's own is ticked only while a full bandwidth waits. -/
def tickAhead (connected : Bool) (i cycle : Nat) :
    (remaining curr ahead : Nat) → OutputQueue → Prog nodePorts (OutputQueue × Nat)
  | 0, _, ahead, oq => return (oq,ahead)
  | remaining + 1, curr, ahead, oq =>
    if cycle < curr ∧ oq.length < oq.outBandwidth then return (oq,ahead)
    else do
      let oq ← tickOutput connected i curr oq
      tickAhead connected i cycle remaining (curr + 1) (curr + 1) oq

/-- Ticks the output queues from index `i` on, each from the first cycle it has not
    been ticked for. -/
def tickOutputQueues (connected : NodePort → Bool) (cycle advanceTarget : Nat) :
    Nat → List OutputQueue → List Nat → Prog nodePorts (List OutputQueue × List Nat)
  | i, oq :: outputs, ahead :: aheads => do
    let startCycle := max cycle ahead
    let (oq,ahead) ← tickAhead (connected (.output i)) i cycle (advanceTarget + 1 - startCycle) startCycle ahead oq
    let (outputs,aheads) ← tickOutputQueues connected cycle advanceTarget (i + 1) outputs aheads
    return (oq :: outputs,ahead :: aheads)
  | _, outputs, aheads => return (outputs,aheads)

/-! ### A cycle and a stretch of time -/

def inputTickFailed (id : Int) (error : String) : String := s!"node {id} input tick failed: {error}"
def processFailed (id : Int) (error : String) : String := s!"node {id} process failed: {error}"

/-- Receive, process, send. -/
def tick (handler : Handler σ) (sortSlice : SliceSort) (n : BaseNode σ) (cycle : Nat) :
    Prog nodePorts (Option String × BaseNode σ) := do
  let (error,inputs,refs) ← tickInputQueues sortSlice n.connected cycle 0 n.queues.inputs
  let received := { n with queues := { n.queues with inputs } }
  match error with
  | some error => return (some (inputTickFailed n.id error),received)
  | none =>
    let ((error,state),queues) := runOn (handler cycle n.state refs) received.queues
    let processed := { received with queues, state }
    match error with
    | some error => return (some (processFailed n.id error),processed)
    | none =>
      let (outputs,outputQueueAhead) ←
        tickOutputQueues n.connected cycle n.advanceTarget 0 processed.queues.outputs n.outputQueueAhead
      return (none,{ processed with queues := { processed.queues with outputs }, outputQueueAhead })

/-- Ticks `remaining` cycles, until one fails. -/
def advanceLoop (handler : Handler σ) (sortSlice : SliceSort) :
    (remaining : Nat) → BaseNode σ → Prog nodePorts (Option String × BaseNode σ)
  | 0, n => return (none,n)
  | remaining + 1, n => do
    let (error,n) ← n.tick handler sortSlice n.currentCycle
    match error with
    | some error => return (some error,n)
    | none => advanceLoop handler sortSlice remaining { n with currentCycle := n.currentCycle + 1 }

/-- Ticks all cycles up to the target, which is included. -/
def advanceTo (handler : Handler σ) (sortSlice : SliceSort) (n : BaseNode σ) (targetCycle : Nat) :
    Prog nodePorts (Option String × BaseNode σ) :=
  if targetCycle < n.currentCycle then return (none,n)
  else advanceLoop handler sortSlice (targetCycle + 1 - n.currentCycle) { n with advanceTarget := targetCycle }

/-- Advances to one target after the other, until one fails. -/
def advanceThrough (handler : Handler σ) (sortSlice : SliceSort) :
    (targets : List Nat) → BaseNode σ → Prog nodePorts (Option String × BaseNode σ)
  | [], n => return (none,n)
  | target :: rest, n => do
    let (error,n) ← n.advanceTo handler sortSlice target
    match error with
    | some error => return (some error,n)
    | none => advanceThrough handler sortSlice rest n

end BaseNode
end FlowSim.Node
