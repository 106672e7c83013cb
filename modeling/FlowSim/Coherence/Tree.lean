import FlowSim.Lib.Climb

/-!
The tree of directories that are responsible for coherence, the builder that puts it
together, and the home directory of an address. Nodes are named by their references,
since a tree refers to the same node from its parent, from its children and from the
map of directories; the nodes are in the tree's memory. The maps are lists here, gone
through in their order.
-/
namespace FlowSim.Coherence
open FlowSim.Lib
set_option linter.unusedSimpArgs false

structure AddressRange where
  start : UInt64
  stop : UInt64
deriving DecidableEq, Repr

def AddressRange.contains (r : AddressRange) (addr : UInt64) : Bool := decide (r.start ≤ addr) && decide (addr ≤ r.stop)

/-- A node's pointer. -/
abbrev NodeRef := Nat

structure CoherenceNode where
  nodeID : Int
  domain : List Int
  children : List NodeRef
  parent : Option NodeRef
  addressResponsibility : Option AddressRange
deriving DecidableEq, Repr, Inhabited

structure AddressMappingConfig where
  granularity : UInt64
deriving DecidableEq, Repr

def AddressMappingConfig.validate (c : AddressMappingConfig) : Except String Unit :=
  if c.granularity = 0 then .error "Granularity 不能为 0"
  else if c.granularity % 64 ≠ 0 then .error ("Granularity 必须是 64 的倍数，当前值: " ++ toString c.granularity)
  else .ok ()

/-! ### Maps from node ids -/

section
variable {α : Type}

/-- The value of a key. -/
def find (m : List (Int × α)) (key : Int) : Option α := (m.find? fun entry => entry.1 = key).map Prod.snd

/-- The map with another value for the key. -/
def put (m : List (Int × α)) (key : Int) (value : α) : List (Int × α) := m.filter (fun entry => entry.1 ≠ key) ++ [(key,value)]

end

/-! ### The tree -/

/-- The references below `size` are in use. -/
structure CoherenceTree where
  node : NodeRef → CoherenceNode
  size : Nat
  root : Option NodeRef
  directoryNodes : List (Int × NodeRef)
  addressMappingConfig : AddressMappingConfig

namespace CoherenceTree
variable (t : CoherenceTree)

def parentOf (ref : NodeRef) : Option NodeRef := (t.node ref).parent

def idOf (ref : NodeRef) : Int := (t.node ref).nodeID

/-- A node and its ancestors, nearest first. -/
def ancestors (ref : NodeRef) : List NodeRef := climb t.parentOf t.size ref

/-- The place in a list of the given length that interleaving gives to an address. -/
def interleaved (addr : UInt64) (length : Nat) : Nat := (addr / t.addressMappingConfig.granularity).toNat % length

/-- The lowest directory below the node that is responsible for the address. -/
def findResponsibleNode (addr : UInt64) : (depth : Nat) → NodeRef → NodeRef
  | 0, node => node
  | depth + 1, node =>
    let children := (t.node node).children
    if children.length = 0 then node
    else if children.any (fun child => (t.node child).addressResponsibility.isSome) then
      match children.find? (fun child => (t.node child).addressResponsibility.any (·.contains addr)) with
      | some child => findResponsibleNode addr depth child
      | none => node
    else
      let childIDs := (children.map t.idOf).insertionSort (· ≤ ·)
      match childIDs[t.interleaved addr childIDs.length]? with
      | none => node
      | some selectedChildID =>
        match children.find? (fun child => t.idOf child = selectedChildID) with
        | some child => findResponsibleNode addr depth child
        | none => node

def mapAddressToDirectory (addr : UInt64) : Except String Int :=
  match t.root with
  | some root => .ok (t.idOf (t.findResponsibleNode addr t.size root))
  | none =>
    let targetDirs := ((t.directoryNodes.filter fun entry => (t.parentOf entry.2).isNone).map Prod.fst).insertionSort (· ≤ ·)
    match targetDirs[t.interleaved addr targetDirs.length]? with
    | none => .error "没有找到 Directory 节点"
    | some dirID => .ok dirID

def getHomeNode (addr : UInt64) : Except String Int :=
  if t.root.isNone ∧ t.directoryNodes.length = 0 then .error "一致性树为空"
  else match t.directoryNodes with
  | [(nodeID,_)] => .ok nodeID
  | _ => t.mapAddressToDirectory addr

/-! ### Paths -/

/-- The first of the second node's ancestors that has the id of an ancestor of the first
    node; of the ancestors with one id the last one counts. -/
def findCommonParent (node1 node2 : NodeRef) : Option NodeRef :=
  (t.ancestors node2).findSome? fun current =>
    (t.ancestors node1).reverse.find? fun ancestor => t.idOf ancestor = t.idOf current

/-- The list up to the first element with the property, and that element. -/
def takeThrough {α : Type} (p : α → Bool) : List α → List α
  | [] => []
  | a :: l => if p a then [a] else a :: takeThrough p l

/-- From the node over its parent to the first ancestor above it with the id, or to the
    last one. -/
def getPathToAncestor (node ancestor : NodeRef) : List Int :=
  (t.idOf node) :: (takeThrough (fun current => t.idOf current = t.idOf ancestor) (t.ancestors node).tail).map t.idOf

def getPathFromAncestor (ancestor node : NodeRef) : List Int :=
  (t.idOf node :: (((t.ancestors node).tail).takeWhile fun current => t.idOf current ≠ t.idOf ancestor).map t.idOf).reverse

/-! ### Validation -/

def twoDomains (nodeID existingDirID dirID : Int) : String :=
  "节点 " ++ toString nodeID ++ " 属于多个 Coherence Domain (Dir " ++ toString existingDirID ++ " 和 Dir " ++
    toString dirID ++ ")"

/-- Every node may be in one domain only. -/
def checkDomains : (allNodes : List (Int × Int)) → List (Int × Int) → Except String Unit
  | _, [] => .ok ()
  | allNodes, (nodeID,dirID) :: rest =>
    match find allNodes nodeID with
    | some existingDirID => .error (twoDomains nodeID existingDirID dirID)
    | none => checkDomains (put allNodes nodeID dirID) rest

/-- The members of all domains, each with its directory. -/
def members : List (Int × Int) := t.directoryNodes.flatMap fun entry => (t.node entry.2).domain.map (·,entry.1)

def cyclic (nodeID : Int) : String := "一致性树存在环，节点 " ++ toString nodeID

/-- No node may be below a node with its id. -/
def checkCycle : (depth : Nat) → (visited : List Int) → NodeRef → Except String Unit
  | 0, _, node => .error (cyclic (t.idOf node))
  | depth + 1, visited, node =>
    if t.idOf node ∈ visited then .error (cyclic (t.idOf node))
    else (t.node node).children.forM (checkCycle depth (t.idOf node :: visited))

def validate : Except String Unit := do
  checkDomains [] t.members
  match t.root with
  | some root => t.checkCycle (t.size + 1) [] root
  | none => return ()

end CoherenceTree

/-! ### The builder -/

structure CoherenceDomain where
  managedNodes : List Int
  addressRange : Option AddressRange
deriving DecidableEq, Repr

structure CoherenceTreeBuilder where
  tree : CoherenceTree
  nodes : List (Int × NodeRef)
  config : AddressMappingConfig

namespace CoherenceTreeBuilder

def newCoherenceTreeBuilder (config : AddressMappingConfig) : CoherenceTreeBuilder where
  tree := { node := fun _ => default, size := 0, root := none, directoryNodes := [], addressMappingConfig := config }
  nodes := []
  config := config

def setNode (b : CoherenceTreeBuilder) (ref : NodeRef) (node : CoherenceNode) : CoherenceTreeBuilder :=
  { b with tree := { b.tree with node := Function.update b.tree.node ref node } }

def addDirectory (b : CoherenceTreeBuilder) (nodeID : Int) (domain : CoherenceDomain) : CoherenceTreeBuilder :=
  let ref := b.tree.size
  let b := b.setNode ref {
    nodeID, domain := domain.managedNodes, children := [], parent := none, addressResponsibility := domain.addressRange }
  { b with
    tree := { b.tree with size := ref + 1, directoryNodes := put b.tree.directoryNodes nodeID ref }
    nodes := put b.nodes nodeID ref }

/-- None when a node is missing: then the code panics. -/
def setParent (b : CoherenceTreeBuilder) (childID parentID : Int) : Option CoherenceTreeBuilder :=
  match find b.nodes childID, find b.nodes parentID with
  | some child, some parent =>
    let b := b.setNode child { b.tree.node child with parent := some parent }
    some (b.setNode parent { b.tree.node parent with children := (b.tree.node parent).children ++ [child] })
  | _, _ => none

def setRoot (b : CoherenceTreeBuilder) (rootID : Int) : Option CoherenceTreeBuilder :=
  (find b.nodes rootID).map fun root => { b with tree := { b.tree with root := some root } }

/-- The builder's operations. -/
inductive Op where
  | addDirectory (nodeID : Int) (domain : CoherenceDomain)
  | setParent (childID parentID : Int)
  | setRoot (rootID : Int)
deriving DecidableEq, Repr

def step (b : CoherenceTreeBuilder) : Op → Option CoherenceTreeBuilder
  | .addDirectory nodeID domain => some (b.addDirectory nodeID domain)
  | .setParent childID parentID => b.setParent childID parentID
  | .setRoot rootID => b.setRoot rootID

/-- The tree with its root, unless there are several and none was set. -/
def findRoot (b : CoherenceTreeBuilder) : Except String CoherenceTree :=
  match b.tree.root with
  | some _ => .ok b.tree
  | none =>
    match b.nodes.filter (fun entry => (b.tree.parentOf entry.2).isNone) with
    | [] => .error "没有找到根节点（可能存在环）"
    | [(_,root)] => .ok { b.tree with root := some root }
    | _ => .ok b.tree

def build (b : CoherenceTreeBuilder) : Except String CoherenceTree :=
  match b.findRoot with
  | .error err => .error err
  | .ok tree =>
    match tree.validate with
    | .error err => .error ("一致性树验证失败: " ++ err)
    | .ok () =>
      match b.config.validate with
      | .error err => .error ("地址映射配置验证失败: " ++ err)
      | .ok () => .ok tree

end CoherenceTreeBuilder
end FlowSim.Coherence
