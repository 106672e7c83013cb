import FlowSim.Coherence.Tree
import FlowSim.Lib.Search

/-!
The analyzer that infers a tree of directories from a topology. It goes through several maps,
and sorts the directories by level with a sort that leaves those of one level in any order;
all these orders are chosen by an `Orders`.
-/
namespace FlowSim.Coherence
open FlowSim.Lib
set_option linter.unusedSimpArgs false

inductive NodeRole where
  | compute
  | cache
  | directory
  | memoryCtrl
  | memory
  | interconnect
deriving DecidableEq, Repr

structure NodeCapability where
  role : NodeRole
  cacheLevel : Int
  hasDirectory : Bool
deriving DecidableEq, Repr

/-- The nodes by their ids, and the neighbours of each. -/
structure Topology where
  nodes : List (Int × NodeCapability)
  distinct : (nodes.map Prod.fst).Nodup
  connections : List (Int × List Int)

structure DirInfo where
  nodeID : Int
  level : Int
deriving DecidableEq, Repr

/-- The orders in which the maps are gone through, and the order after the sort. -/
structure Orders where
  ofNodes : List (Int × NodeCapability) → List (Int × NodeCapability)
  ofLevels : List (Int × List Int) → List (Int × List Int)
  ofDirNodes : List (Int × NodeRef) → List (Int × NodeRef)
  ofRoots : List (Int × NodeRef) → List (Int × NodeRef)
  ofResponsible : List (Int × NodeRef) → List (Int × NodeRef)
  ofChecked : List (Int × NodeRef) → List (Int × NodeRef)
  sorted : List DirInfo → List DirInfo
  nodes_perm : ∀ l, (ofNodes l).Perm l
  levels_perm : ∀ l, (ofLevels l).Perm l
  dirNodes_perm : ∀ l, (ofDirNodes l).Perm l
  roots_perm : ∀ l, (ofRoots l).Perm l
  responsible_perm : ∀ l, (ofResponsible l).Perm l
  checked_perm : ∀ l, (ofChecked l).Perm l
  sorted_perm : ∀ l, (sorted l).Perm l
  sorted_levels : ∀ l, (sorted l).Pairwise fun a b => a.level ≤ b.level

structure AnalysisResult where
  computeNodes : List Int := []
  cacheNodes : List (Int × List Int) := []
  directoryNodes : List Int := []
  memoryNodes : List Int := []
  coherenceTree : Option CoherenceTree := none
  warnings : List String := []
  errors : List String := []

/-! ### The topology -/

namespace Topology
variable (topology : Topology)

def neighbors (nodeID : Int) : List Int := (find topology.connections nodeID).getD []

/-- Enough steps for a search to go through all nodes. -/
def searchFuel : Nat := (topology.connections.flatMap Prod.snd).length + 2

def isConnected (nodeA nodeB : Int) : Bool :=
  (search topology.neighbors (fun current => current = nodeB) topology.searchFuel [nodeA] [nodeA]).isSome

/-- The nearest node that is a directory of the tree, -1 when there is none. -/
def findNearestDirectory (tree : CoherenceTree) (startNode : Int) : Int :=
  (search topology.neighbors (fun current => (find tree.directoryNodes current).isSome) topology.searchFuel
    [startNode] [startNode]).getD (-1)

/-- The level by which the directories are sorted. -/
def dirLevel (nodeID : Int) : Int :=
  match find topology.nodes nodeID with
  | some capability => if capability.role = .cache then capability.cacheLevel else 999
  | none => 999

def getNodeLevel (nodeID : Int) : Int :=
  match find topology.nodes nodeID with
  | some capability => if capability.role = .memoryCtrl then 999 else capability.cacheLevel
  | none => 0

end Topology

/-! ### Classification -/

def classifyNode (result : AnalysisResult) (node : Int × NodeCapability) : AnalysisResult :=
  match node.2.role with
  | .compute => { result with computeNodes := result.computeNodes ++ [node.1] }
  | .cache =>
    let level := node.2.cacheLevel
    { result with
      cacheNodes := put result.cacheNodes level ((find result.cacheNodes level).getD [] ++ [node.1])
      directoryNodes := if node.2.hasDirectory then result.directoryNodes ++ [node.1] else result.directoryNodes }
  | .memoryCtrl =>
    { result with
      directoryNodes := if node.2.hasDirectory then result.directoryNodes ++ [node.1] else result.directoryNodes
      memoryNodes := result.memoryNodes ++ [node.1] }
  | .memory => { result with memoryNodes := result.memoryNodes ++ [node.1] }
  | .directory | .interconnect => result

def classifyNodes (topology : Topology) (orders : Orders) : AnalysisResult :=
  (orders.ofNodes topology.nodes).foldl classifyNode {}

/-! ### The hierarchy -/

namespace CoherenceTree

def setNode (t : CoherenceTree) (ref : NodeRef) (node : CoherenceNode) : CoherenceTree :=
  { t with node := Function.update t.node ref node }

def addNode (t : CoherenceTree) (dirID : Int) : CoherenceTree :=
  let t' := t.setNode t.size { nodeID := dirID, domain := [], children := [], parent := none, addressResponsibility := none }
  { t' with size := t.size + 1, directoryNodes := put t.directoryNodes dirID t.size }

def adopt (t : CoherenceTree) (child parent : NodeRef) : CoherenceTree :=
  let t := t.setNode child { t.node child with parent := some parent }
  t.setNode parent { t.node parent with children := (t.node parent).children ++ [child] }

def removeChild (t : CoherenceTree) (parent : NodeRef) (childID : Int) : CoherenceTree :=
  t.setNode parent { t.node parent with children := (t.node parent).children.filter fun child => t.idOf child ≠ childID }

/-- Makes the second directory the parent of the first, if it is higher and connected, and there
    is none yet or a higher one. -/
def considerParent (topology : Topology) (dir : DirInfo) (t : CoherenceTree) (other : DirInfo) : CoherenceTree :=
  if dir.level < other.level ∧ topology.isConnected dir.nodeID other.nodeID then
    match find t.directoryNodes dir.nodeID, find t.directoryNodes other.nodeID with
    | some child, some parent =>
      match t.parentOf child with
      | some existing =>
        if other.level < topology.getNodeLevel (t.idOf existing) then (t.removeChild existing (t.idOf child)).adopt child parent
        else t
      | none => t.adopt child parent
    | _, _ => t
  else t

/-- Each directory with all that come after it. -/
def inferParents (topology : Topology) : List DirInfo → CoherenceTree → CoherenceTree
  | [], t => t
  | dir :: rest, t => inferParents topology rest (rest.foldl (considerParent topology dir) t)

end CoherenceTree

def noRoots : String := "没有找到根节点（可能存在环）"

def differentLevels : String := "发现多个不同层级的根节点，无法自动推断（需要用户显式指定）"

def inferHierarchy (topology : Topology) (orders : Orders) (tree : CoherenceTree) : Except String CoherenceTree :=
  let dirs := orders.sorted ((orders.ofDirNodes tree.directoryNodes).map fun entry => ⟨entry.1,topology.dirLevel entry.1⟩)
  let tree := tree.inferParents topology dirs
  match ((orders.ofRoots tree.directoryNodes).filter fun entry => (tree.parentOf entry.2).isNone).map Prod.snd with
  | [] => .error noRoots
  | [root] => .ok { tree with root := some root }
  | root :: others =>
    if others.all fun other => topology.getNodeLevel (tree.idOf other) = topology.getNodeLevel (tree.idOf root) then
      .ok { tree with root := none }
    else .error differentLevels

/-! ### Domains and addresses -/

namespace CoherenceTree

def addMember (t : CoherenceTree) (dirID nodeID : Int) : CoherenceTree :=
  match find t.directoryNodes dirID with
  | some ref => t.setNode ref { t.node ref with domain := (t.node ref).domain ++ [nodeID] }
  | none => t

def assignCompute (topology : Topology) (t : CoherenceTree) (cpuID : Int) : CoherenceTree :=
  if topology.findNearestDirectory t cpuID ≠ -1 then t.addMember (topology.findNearestDirectory t cpuID) cpuID else t

def domainOf (t : CoherenceTree) (dirID : Int) : List Int :=
  match find t.directoryNodes dirID with
  | some ref => (t.node ref).domain
  | none => []

def assignCache (topology : Topology) (t : CoherenceTree) (cacheID : Int) : CoherenceTree :=
  match find topology.nodes cacheID with
  | some capability =>
    if capability.hasDirectory then t
    else
      let dirID := topology.findNearestDirectory t cacheID
      if dirID ≠ -1 ∧ cacheID ∉ t.domainOf dirID then t.addMember dirID cacheID else t
  | none => t

/-- Several roots have no address ranges of their own. -/
def assignAddressResponsibility (orders : Orders) (t : CoherenceTree) : CoherenceTree :=
  let roots := ((orders.ofResponsible t.directoryNodes).filter fun entry => (t.parentOf entry.2).isNone).map Prod.snd
  if 1 < roots.length then
    roots.foldl (fun t root => t.setNode root { t.node root with addressResponsibility := none }) t
  else t

end CoherenceTree

def assignDomains (topology : Topology) (orders : Orders) (result : AnalysisResult) (tree : CoherenceTree) : CoherenceTree :=
  let tree := result.computeNodes.foldl (CoherenceTree.assignCompute topology) tree
  (orders.ofLevels result.cacheNodes).foldl (fun tree level => level.2.foldl (CoherenceTree.assignCache topology) tree) tree

/-! ### The analysis -/

def noDirectories : String := " 没有找到任何 Directory 节点，无法构建一致性树"

def noHierarchy (err : String) : String := " 无法自动推断一致性层次: " ++ err

/-- The tree with the warnings. -/
def inferCoherenceTree (topology : Topology) (config : AddressMappingConfig) (orders : Orders) (result : AnalysisResult) :
    List String × Except String CoherenceTree :=
  if result.directoryNodes.length = 0 then ([],.error noDirectories)
  else
    let tree := result.directoryNodes.foldl CoherenceTree.addNode
      { node := fun _ => default, size := 0, root := none, directoryNodes := [], addressMappingConfig := config }
    match inferHierarchy topology orders tree with
    | .error err => ([err],.error (noHierarchy err))
    | .ok tree => ([],.ok ((assignDomains topology orders result tree).assignAddressResponsibility orders))

def analyze (topology : Topology) (config : AddressMappingConfig) (orders : Orders) : AnalysisResult × Option String :=
  let result := classifyNodes topology orders
  match inferCoherenceTree topology config orders result with
  | (_,.error err) => ({ result with errors := [err] },some err)
  | (warnings,.ok tree) =>
    let result := { result with coherenceTree := some tree, warnings }
    match { tree with directoryNodes := orders.ofChecked tree.directoryNodes }.validate with
    | .error err => ({ result with errors := ["一致性树验证失败: " ++ err] },some err)
    | .ok () => (result,none)

end FlowSim.Coherence
