import FlowSim.Node.BaseNode

/-!
The description of a network as it is exchanged with the outside. Coordinates are of type `F`
and values of style sheets and further properties of type `V`. The configurations of caches,
directories, processors and memories are left out, and so are zoom and pan.
-/
namespace FlowSim.Visualization

/-- A port: what is configured, and in an export also what its buffer holds. -/
structure Port where
  portId : Int
  bandwidth : Int
  bufferSize : Option Int := none
  bufferLength : Option Int := none
  capacity : Option Int := none
  bitmap : Option String := none
  packetTypes : Option (List Int) := none
deriving DecidableEq, Repr

structure Position (F : Type) where
  x : F
  y : F
deriving DecidableEq, Repr

/-- What is displayed of a node; without an id it counts as missing. -/
structure NodeData (V : Type) where
  id : String
  label : Option String
  type : Option String
  additionalProperties : List (String × V)
deriving DecidableEq, Repr

/-- The node types that get no handler of their own, and names that are no type. -/
inductive NodeType where
  | router
  | generic
  | other (name : String)
deriving DecidableEq, Repr

structure Node (F V : Type) where
  nodeId : Int
  nodeName : String
  nodeType : Option NodeType
  nodeFeatures : Option (List String)
  inPorts : Option (List Port)
  outPorts : Option (List Port)
  position : Position F
  data : NodeData V
  style : Option (List (String × V))
deriving DecidableEq, Repr

structure EdgeData (V : Type) where
  id : String
  source : String
  target : String
  lineType : Option String
  additionalProperties : List (String × V)
deriving DecidableEq, Repr

structure Edge (V : Type) where
  edgeId : Int
  srcNodeId : Int
  srcPortId : Option Int
  dstNodeId : Int
  dstPortId : Option Int
  latency : Option Int
  bandwidth : Option Int
  packetTypes : Option (List Int)
  data : EdgeData V
  linkStatus : Option (List (String × List Nat))
deriving DecidableEq, Repr

structure FlowSimNetwork (F V : Type) where
  version : Option String
  cycle : Option Int
  nodes : List (Node F V)
  edges : List (Edge V)

end FlowSim.Visualization
