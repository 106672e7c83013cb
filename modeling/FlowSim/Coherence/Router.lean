import FlowSim.Coherence.Tree

/-!
Routing along the tree of directories. A node's router computes once, for every
directory, the next hop on the way there; requests of an address are then sent towards
its home directory.
-/
namespace FlowSim.Coherence
open FlowSim.Lib
set_option linter.unusedSimpArgs false

structure CoherenceRouter where
  myNodeID : Int
  tree : CoherenceTree
  routingTable : List (Int × Int)
  myDirectoryID : Int

namespace CoherenceRouter

/-- The directory in whose domain a node is; a directory that is in none is its own. -/
def findMyDirectory (tree : CoherenceTree) (myNodeID : Int) : Int :=
  match tree.directoryNodes.find? (fun entry => myNodeID ∈ (tree.node entry.2).domain) with
  | some entry => entry.1
  | none => if (find tree.directoryNodes myNodeID).isSome then myNodeID else -1

/-- The path over the common parent; empty when there is none. -/
def computeDirectoryPath (tree : CoherenceTree) (srcDirID dstDirID : Int) : List Int :=
  match find tree.directoryNodes srcDirID, find tree.directoryNodes dstDirID with
  | some srcDir, some dstDir =>
    if srcDirID = dstDirID then [srcDirID]
    else match tree.findCommonParent srcDir dstDir with
    | none => []
    | some commonParent => tree.getPathToAncestor srcDir commonParent ++ tree.getPathFromAncestor commonParent dstDir
  | _, _ => []

/-- The next hop to a directory, -1 when there is none. -/
def computeNextHop (tree : CoherenceTree) (myNodeID myDirID dstDirID : Int) : Int :=
  if myNodeID ≠ myDirID then myDirID
  else if myDirID = dstDirID then myDirID
  else match computeDirectoryPath tree myDirID dstDirID with
  | _ :: next :: _ => next
  | _ => -1

def precomputeRoutingTable (tree : CoherenceTree) (myNodeID myDirID : Int) : List (Int × Int) :=
  tree.directoryNodes.filterMap fun entry =>
    let nextHop := computeNextHop tree myNodeID myDirID entry.1
    if nextHop ≠ -1 then some (entry.1,nextHop) else none

def newCoherenceRouter (myNodeID : Int) (tree : CoherenceTree) : CoherenceRouter :=
  let myDirectoryID := findMyDirectory tree myNodeID
  { myNodeID, tree, myDirectoryID, routingTable := precomputeRoutingTable tree myNodeID myDirectoryID }

def noHome (err : String) : String := "无法找到 Home Node: " ++ err
def noRoute (homeNodeID : Int) : String := "路由表中没有到 Home Node " ++ toString homeNodeID ++ " 的路由"

/-- The next hop of a request for the address; the node itself when it is the home. -/
def routeForCoherence (r : CoherenceRouter) (addr : UInt64) : Except String Int :=
  match r.tree.getHomeNode addr with
  | .error err => .error (noHome err)
  | .ok homeNodeID =>
    if homeNodeID = r.myNodeID then .ok r.myNodeID
    else match find r.routingTable homeNodeID with
    | none => .error (noRoute homeNodeID)
    | some nextHop => .ok nextHop

end CoherenceRouter
end FlowSim.Coherence
