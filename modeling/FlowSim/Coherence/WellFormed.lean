import FlowSim.Coherence.IterationOrder

/-!
What the analyzer infers is well formed, whatever the topology and the orders in which its maps
are gone through. Parents and children are inverse to each other, levels ascend from a directory
to its parent, and no node is in two domains. So the validation of the analysis never fails
(`inferred_tree_is_wellFormed`).
-/
namespace FlowSim.Coherence
open FlowSim.Lib CoherenceTree
set_option linter.unusedSimpArgs false

/-- A directory's node refers to its parent. -/
def CoherenceTree.Below (t : CoherenceTree) (node parent : NodeRef) : Prop := t.parentOf node = some parent

/-- The tree's links and domains fit together. -/
structure CoherenceTree.WellFormed (topology : Topology) (t : CoherenceTree) : Prop where
  keys : (t.directoryNodes.map Prod.fst).Perm topology.directories
  named : ∀ {id ref}, (id,ref) ∈ t.directoryNodes → t.idOf ref = id
  parents : ∀ {node parent}, t.IsDirectory node → t.parentOf node = some parent →
    t.IsDirectory parent ∧ node ∈ (t.node parent).children
  children : ∀ {node child}, t.IsDirectory node → child ∈ (t.node node).children →
    t.IsDirectory child ∧ t.parentOf child = some node
  once : ∀ {node}, t.IsDirectory node → ((t.node node).children.map t.idOf).Nodup
  ascends : ∀ {node parent}, t.IsDirectory node → t.parentOf node = some parent →
    topology.getNodeLevel (t.idOf node) < topology.getNodeLevel (t.idOf parent)
  acyclic : ∀ {node}, t.IsDirectory node → ¬ Relation.TransGen t.Below node node
  domains : ∀ {a b nodeID}, t.IsDirectory a → t.IsDirectory b → nodeID ∈ (t.node a).domain → nodeID ∈ (t.node b).domain → a = b
  members : ∀ {node}, t.IsDirectory node → (t.node node).domain.Nodup

section
variable {topology : Topology} {t : CoherenceTree} {config : AddressMappingConfig} {ids : List Int}

/-- Levels ascend all the way up. -/
theorem level_lt_of_above (parents : ∀ {node parent}, t.IsDirectory node → t.parentOf node = some parent → t.IsDirectory parent)
    (ascends : ∀ {node parent}, t.IsDirectory node → t.parentOf node = some parent →
      topology.getNodeLevel (t.idOf node) < topology.getNodeLevel (t.idOf parent))
    {node above : NodeRef} (directory : t.IsDirectory node) (chain : Relation.TransGen t.Below node above) :
    t.IsDirectory above ∧ topology.getNodeLevel (t.idOf node) < topology.getNodeLevel (t.idOf above) := by
  induction chain with
  | single isParent => exact ⟨parents directory isParent,ascends directory isParent⟩
  | tail _ isParent ih => exact ⟨parents ih.1 isParent,ih.2.trans (ascends ih.1 isParent)⟩

theorem Inferred.wellFormed (inferred : Inferred topology config ids t) (perm : ids.Perm topology.directories)
    (ascending : ids.Pairwise fun a b => topology.dirLevel a ≤ topology.dirLevel b) : t.WellFormed topology := by
  have forest := inferred.forest perm ascending
  have named := inferred.hangs.named
  have ascends : ∀ {node parent}, t.IsDirectory node → t.parentOf node = some parent →
      topology.getNodeLevel (t.idOf node) < topology.getNodeLevel (t.idOf parent) := by
    rintro node parent ⟨id,member⟩ isParent
    have linked : find (topology.links ids) id = some (t.idOf parent) := by
      rw [← inferred.hangs.parents member,isParent]
      rfl
    obtain ⟨isChild,isAbove,higher⟩ := higher_of_links (mem_of_find linked)
    rw [named.named member,getNodeLevel_eq (perm.mem_iff.mp isChild),getNodeLevel_eq (perm.mem_iff.mp isAbove)]
    exact (of_decide_eq_true higher).1
  refine ⟨inferred.keys,named.named,forest.parents,forest.children,?_,ascends,?_,?_,?_⟩
  · rintro node ⟨id,member⟩
    rw [inferred.hangs.children member]
    exact inferred.hangs.single.sublist (List.filter_sublist.map _)
  · intro node directory cycle
    exact lt_irrefl _ (level_lt_of_above (fun isNode isParent => (forest.parents isNode isParent).1) ascends directory cycle).2
  · rintro a b nodeID ⟨idA,memberA⟩ ⟨idB,memberB⟩ inA inB
    have nearA := ((inferred.populated.members memberA nodeID).mp inA).2.1
    have nearB := ((inferred.populated.members memberB nodeID).mp inB).2.1
    refine named.eq_of_id ⟨idA,memberA⟩ ⟨idB,memberB⟩ ?_
    rw [named.named memberA,named.named memberB,← nearA,nearB]
  · rintro node ⟨id,member⟩
    exact inferred.populated.distinct member

end

/-- Every tree that is inferred is well formed, and passes the validation in whatever order this
    goes through the directories; so the analysis returns it. -/
theorem inferred_tree_is_wellFormed (topology : Topology) (config : AddressMappingConfig) (orders : Orders)
    (warnings : List String) (tree : CoherenceTree)
    (succeeds : inferCoherenceTree topology config orders (classifyNodes topology orders) = (warnings,.ok tree)) :
    tree.WellFormed topology ∧
      (∀ directoryNodes, directoryNodes.Perm tree.directoryNodes → validate { tree with directoryNodes } = .ok ()) ∧
      (analyze topology config orders).1.coherenceTree = some tree ∧ (analyze topology config orders).2 = none := by
  obtain ⟨-,perm,ascending⟩ := analyzedOrder_spec topology config orders
  have inferable : topology.Inferable := by
    by_contra not_inferable
    obtain ⟨warnings',err,failed⟩ := inferCoherenceTree_of_not_inferable config orders not_inferable
    cases (Prod.mk.inj (failed.symm.trans succeeds)).2
  obtain ⟨t,inferredTree,inferred⟩ := inferCoherenceTree_of_inferable config orders inferable
  obtain rfl : t = tree := Except.ok.inj (Prod.mk.inj (inferredTree.symm.trans succeeds)).2
  exact ⟨inferred.wellFormed perm ascending,fun _ order => inferred.validate_ok perm ascending order,
    analyze_of_inferred inferredTree inferred⟩

/-- A processor and a cache below two caches with directories and a memory controller. -/
def belowController : Topology where
  nodes := [(1,⟨.compute,0,false⟩),(2,⟨.cache,1,false⟩),(3,⟨.cache,2,true⟩),(4,⟨.cache,3,true⟩),(5,⟨.memoryCtrl,0,true⟩)]
  distinct := by decide
  connections := [(1,[2]),(2,[1,3]),(3,[2,4]),(4,[3,5]),(5,[4])]

/-- Its tree is a chain, and the processor and the cache are in the domain of the lowest. -/
theorem belowController_wellFormed : ∃ tree : CoherenceTree, tree.directoryNodes.map Prod.fst = [3,4,5] ∧
    (tree.directoryNodes.map fun entry => (tree.parentOf entry.2).map tree.idOf) = [some 4,some 5,none] ∧
    tree.domainOf 3 = [1,2] ∧ tree.WellFormed belowController ∧
    (∀ directoryNodes, directoryNodes.Perm tree.directoryNodes → validate { tree with directoryNodes } = .ok ()) ∧
    (analyze belowController ⟨64⟩ (.putFirst 3)).1.coherenceTree = some tree ∧
    (analyze belowController ⟨64⟩ (.putFirst 3)).2 = none := by
  have shape : ((inferCoherenceTree belowController ⟨64⟩ (.putFirst 3) (classifyNodes belowController (.putFirst 3))).2.map
      fun tree => (tree.directoryNodes.map Prod.fst,tree.directoryNodes.map fun entry => (tree.parentOf entry.2).map tree.idOf,
        tree.domainOf 3)).toOption = some ([3,4,5],[some 4,some 5,none],[1,2]) := by decide +kernel
  rcases result : inferCoherenceTree belowController ⟨64⟩ (.putFirst 3) (classifyNodes belowController (.putFirst 3)) with
    ⟨warnings,err | tree⟩
  · rw [result] at shape
    cases shape
  · rw [result] at shape
    have shape := Prod.mk.inj (Option.some.inj shape)
    have links := Prod.mk.inj shape.2
    exact ⟨tree,shape.1,links.1,links.2,inferred_tree_is_wellFormed _ _ _ warnings tree result⟩

end FlowSim.Coherence
