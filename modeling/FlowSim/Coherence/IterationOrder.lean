import FlowSim.Coherence.Analysis

/-!
Whether the orders in which maps are gone through matter to the analyzer. They do where a
directory is connected to two directories of the level nearest above its own: the first of
them becomes its parent. Where there is no such tie, or where the analysis fails, every order
gives the same tree (`analysis_is_determined_iff`).
-/
namespace FlowSim.Coherence
open FlowSim.Lib CoherenceTree
set_option linter.unusedSimpArgs false

namespace CoherenceTree

/-- The trees have the same root, the same directories with the same parents and members, and
    the same homes, in whatever order the maps are gone through. -/
structure Same (t t' : CoherenceTree) : Prop where
  directories : (t.directoryNodes.map Prod.fst).Perm (t'.directoryNodes.map Prod.fst)
  root : t.root.map t.idOf = t'.root.map t'.idOf
  parents : ∀ {id ref ref'}, (id,ref) ∈ t.directoryNodes → (id,ref') ∈ t'.directoryNodes →
    (t.parentOf ref).map t.idOf = (t'.parentOf ref').map t'.idOf
  domains : ∀ {id ref ref'}, (id,ref) ∈ t.directoryNodes → (id,ref') ∈ t'.directoryNodes →
    ∀ nodeID, nodeID ∈ (t.node ref).domain ↔ nodeID ∈ (t'.node ref').domain
  homes : ∀ {directoryNodes directoryNodes'}, directoryNodes.Perm t.directoryNodes → directoryNodes'.Perm t'.directoryNodes →
    ∀ addr, { t with directoryNodes }.getHomeNode addr = { t' with directoryNodes := directoryNodes' }.getHomeNode addr

end CoherenceTree

section
variable (topology : Topology)

/-- A directory that is higher and connected, and of the lowest level of these. -/
structure Topology.Nearest (id parent : Int) : Prop where
  directory : parent ∈ topology.directories
  higher : topology.higher id parent = true
  lowest : ∀ {other}, other ∈ topology.directories → topology.higher id other = true →
    topology.dirLevel parent ≤ topology.dirLevel other

/-- No directory has two nearest higher directories. -/
def Topology.NoTies : Prop :=
  ∀ id ∈ topology.directories, ∀ a b, topology.Nearest id a → topology.Nearest id b → a = b

end

/-! ### Orders that agree -/

theorem insertionSort_perm {l l' : List Int} (perm : l.Perm l') : l.insertionSort (· ≤ ·) = l'.insertionSort (· ≤ ·) :=
  (((List.perm_insertionSort _ l).trans perm).trans (List.perm_insertionSort _ l').symm).eq_of_sortedLE
    List.sortedLE_insertionSort List.sortedLE_insertionSort

section
variable {topology : Topology} {ids ids' : List Int} {id parent : Int}

/-- The first higher directory after the sort is a nearest one. -/
theorem nearest_of_find (perm : ids.Perm topology.directories)
    (ascending : ids.Pairwise fun a b => topology.dirLevel a ≤ topology.dirLevel b)
    (found : ids.find? (topology.higher id) = some parent) : topology.Nearest id parent := by
  obtain ⟨higher,before,after,rfl,lower⟩ := List.find?_eq_some_iff_append.mp found
  refine ⟨perm.mem_iff.mp (List.mem_append_right _ List.mem_cons_self),higher,fun {other} isDirectory isHigher => ?_⟩
  rcases List.mem_append.mp (perm.mem_iff.mpr isDirectory) with earlier | later
  · cases isHigher.symm.trans (by simpa using lower other earlier)
  · rcases List.mem_cons.mp later with rfl | later
    · exact le_refl _
    · exact (List.pairwise_cons.mp (List.pairwise_append.mp ascending).2.1).1 other later

/-- Without ties every order finds the same parents. -/
theorem find_eq_of_noTies (noTies : topology.NoTies) (isDirectory : id ∈ topology.directories)
    (perm : ids.Perm topology.directories) (ascending : ids.Pairwise fun a b => topology.dirLevel a ≤ topology.dirLevel b)
    (perm' : ids'.Perm topology.directories) (ascending' : ids'.Pairwise fun a b => topology.dirLevel a ≤ topology.dirLevel b) :
    ids.find? (topology.higher id) = ids'.find? (topology.higher id) := by
  have same := perm.trans perm'.symm
  cases found : ids.find? (topology.higher id) with
  | none =>
    refine (List.find?_eq_none.mpr fun other member => ?_).symm
    exact List.find?_eq_none.mp found other (same.mem_iff.mpr member)
  | some parent =>
    have nearest := nearest_of_find perm ascending found
    have some_found : (ids'.find? (topology.higher id)).isSome :=
      List.find?_isSome.mpr ⟨parent,perm'.mem_iff.mpr nearest.directory,nearest.higher⟩
    obtain ⟨parent',found'⟩ := Option.isSome_iff_exists.mp some_found
    rw [found',noTies id isDirectory _ _ nearest (nearest_of_find perm' ascending' found')]

section
variable {t t' : CoherenceTree} {config : AddressMappingConfig}
  (inferred : Inferred topology config ids t) (perm : ids.Perm topology.directories)
  (ascending : ids.Pairwise fun a b => topology.dirLevel a ≤ topology.dirLevel b)
  (inferred' : Inferred topology config ids' t') (perm' : ids'.Perm topology.directories)
  (ascending' : ids'.Pairwise fun a b => topology.dirLevel a ≤ topology.dirLevel b)
include inferred perm ascending

theorem parent_eq_find {ref : NodeRef} (member : (id,ref) ∈ t.directoryNodes) :
    (t.parentOf ref).map t.idOf = ids.find? (topology.higher id) := by
  have isDirectory := inferred.keys.mem_iff.mp (List.mem_map_of_mem member)
  rw [inferred.hangs.parents member,
    find_links (perm.nodup_iff.mpr (directories_nodup topology)) ascending (perm.mem_iff.mpr isDirectory)]

include inferred' perm' ascending'

/-- The same parents are found by the same links. -/
theorem links_perm (agree : ∀ id ∈ topology.directories, ids.find? (topology.higher id) = ids'.find? (topology.higher id)) :
    (topology.links ids).Perm (topology.links ids') := by
  refine (List.perm_ext_iff_of_nodup (.of_map _ inferred.hangs.single) (.of_map _ inferred'.hangs.single)).mpr ?_
  rintro ⟨child,parent⟩
  rw [← inferred.hangs.mem_links,← inferred'.hangs.mem_links]
  by_cases isDirectory : child ∈ topology.directories
  · rw [find_links (perm.nodup_iff.mpr (directories_nodup topology)) ascending (perm.mem_iff.mpr isDirectory),
      find_links (perm'.nodup_iff.mpr (directories_nodup topology)) ascending' (perm'.mem_iff.mpr isDirectory),
      agree child isDirectory]
  · rw [find_links_of_not_mem fun member => isDirectory (perm.mem_iff.mp member),
      find_links_of_not_mem fun member => isDirectory (perm'.mem_iff.mp member)]

omit perm ascending perm' ascending' in
theorem childIDs_eq (links_same : (topology.links ids).Perm (topology.links ids')) {ref ref' : NodeRef}
    (member : (id,ref) ∈ t.directoryNodes) (member' : (id,ref') ∈ t'.directoryNodes) : t.childIDs ref = t'.childIDs ref' := by
  rw [childIDs,childIDs,inferred.hangs.children member,inferred'.hangs.children member']
  exact insertionSort_perm ((links_same.filter _).map _)

theorem rootIDs_eq : t.rootIDs = t'.rootIDs := by
  have top_iff : ∀ {t : CoherenceTree} {ids : List Int}, Inferred topology config ids t → ids.Perm topology.directories →
      ids.Pairwise (fun a b => topology.dirLevel a ≤ topology.dirLevel b) → ∀ id, id ∈ t.rootIDs ↔ topology.Top id := by
    intro t ids inferred perm ascending id
    constructor
    · intro isRoot
      obtain ⟨ref,member⟩ := directory_of_mem_rootIDs isRoot
      have isDirectory := inferred.keys.mem_iff.mp (List.mem_map_of_mem member)
      rw [← inferred.hangs.named.named member,mem_rootIDs inferred.hangs.named ⟨id,member⟩] at isRoot
      exact (parent_none_iff inferred.hangs perm ascending member isDirectory).mp isRoot
    · intro top
      obtain ⟨⟨_,ref⟩,member,rfl⟩ := List.mem_map.mp (inferred.keys.mem_iff.mpr top.1)
      have isRoot := (mem_rootIDs inferred.hangs.named ⟨_,member⟩).mpr
        ((parent_none_iff inferred.hangs perm ascending member top.1).mpr top)
      rwa [inferred.hangs.named.named member] at isRoot
  refine ((List.perm_ext_iff_of_nodup (rootIDs_nodup inferred.hangs.named) (rootIDs_nodup inferred'.hangs.named)).mpr
    fun id => ?_).eq_of_sortedLE List.sortedLE_insertionSort List.sortedLE_insertionSort
  rw [top_iff inferred perm ascending,top_iff inferred' perm' ascending']

/-- The searches for an address go on to children of one id. -/
theorem findResponsibleNode_same (links_same : (topology.links ids).Perm (topology.links ids')) (addr : UInt64) :
    ∀ (depth : Nat) {id : Int} {ref ref' : NodeRef}, (id,ref) ∈ t.directoryNodes → (id,ref') ∈ t'.directoryNodes →
      t.idOf (t.findResponsibleNode addr depth ref) = t'.idOf (t'.findResponsibleNode addr depth ref')
  | 0, id, ref, ref', member, member' => (inferred.hangs.named.named member).trans (inferred'.hangs.named.named member').symm
  | depth + 1, id, ref, ref', member, member' => by
    have forest := inferred.forest perm ascending
    have forest' := inferred'.forest perm' ascending'
    have named := inferred.hangs.named
    have named' := inferred'.hangs.named
    have same := childIDs_eq inferred inferred' links_same member member'
    by_cases childless : (t.node ref).children = []
    · have childless' : (t'.node ref').children = [] := by
        rw [← List.length_eq_zero_iff,← childIDs_length,← same,childIDs_length,childless]
        rfl
      rw [findResponsibleNode,if_pos (List.length_eq_zero_iff.mpr childless),findResponsibleNode,
        if_pos (List.length_eq_zero_iff.mpr childless'),named.named member,named'.named member']
    · obtain ⟨child,isChild,chosen⟩ := exists_chosen forest named ⟨id,member⟩ childless
        (addr / t.addressMappingConfig.granularity).toNat
      have listed := mem_childIDs.mpr ⟨child,isChild,rfl⟩
      rw [same] at listed
      obtain ⟨child',isChild',same_id⟩ := mem_childIDs.mp listed
      have same_place : t'.place child' ref' = t.place child ref := by
        rw [place,place,same,same_id]
      have chosen' : t'.interleaved addr (t'.place child' ref').2 = (t'.place child' ref').1 := by
        rw [same_place,interleaved,inferred'.config,← inferred.config]
        exact chosen
      rw [findResponsibleNode_child forest named inferred.hangs.unranged ⟨id,member⟩ isChild chosen,
        findResponsibleNode_child forest' named' inferred'.hangs.unranged ⟨id,member'⟩ isChild' chosen']
      obtain ⟨childID,memberChild⟩ := (forest.children ⟨id,member⟩ isChild).1
      obtain ⟨childID',memberChild'⟩ := (forest'.children ⟨id,member'⟩ isChild').1
      rw [named.named memberChild,named'.named memberChild'] at same_id
      subst same_id
      exact findResponsibleNode_same links_same addr depth memberChild memberChild'

omit perm ascending perm' ascending' in
theorem root_same : t.root.map t.idOf = t'.root.map t'.idOf := by
  cases isRoot : t.root with
  | none =>
    cases isRoot' : t'.root with
    | none => rfl
    | some root' =>
      obtain ⟨a,b,topA,topB,apart⟩ := inferred.roots isRoot
      obtain ⟨-,-,only⟩ := inferred'.root isRoot'
      exact absurd ((only topA).trans (only topB).symm) apart
  | some root =>
    obtain ⟨-,top,only⟩ := inferred.root isRoot
    cases isRoot' : t'.root with
    | none =>
      obtain ⟨a,b,topA,topB,apart⟩ := inferred'.roots isRoot'
      exact absurd ((only topA).trans (only topB).symm) apart
    | some root' => exact congrArg some ((inferred'.root isRoot').2.2 top)

theorem getHomeNode_same (links_same : (topology.links ids).Perm (topology.links ids')) (addr : UInt64) :
    t.getHomeNode addr = t'.getHomeNode addr := by
  have forest := inferred.forest perm ascending
  have forest' := inferred'.forest perm' ascending'
  have size : t.size = t'.size := by
    have keys := inferred.keys.trans inferred'.keys.symm
    rw [inferred.hangs.full,inferred'.hangs.full,← List.length_map Prod.fst,keys.length_eq,List.length_map]
  have roots := root_same inferred inferred'
  cases isRoot : t.root with
  | some root =>
    rw [isRoot] at roots
    obtain ⟨root',isRoot',same_id⟩ := Option.map_eq_some_iff.mp roots.symm
    obtain ⟨⟨id,member⟩,-⟩ := inferred.root isRoot
    obtain ⟨⟨id',member'⟩,-⟩ := inferred'.root isRoot'
    rw [inferred.hangs.named.named member,inferred'.hangs.named.named member'] at same_id
    subst same_id
    rw [getHomeNode_of_root forest inferred.hangs.named inferred.hangs.unranged isRoot,
      getHomeNode_of_root forest' inferred'.hangs.named inferred'.hangs.unranged isRoot',← size,
      findResponsibleNode_same inferred perm ascending inferred' perm' ascending' links_same addr t.size member member']
  | none =>
    rw [isRoot] at roots
    have isRoot' := Option.map_eq_none_iff.mp roots.symm
    have same := rootIDs_eq inferred perm ascending inferred' perm' ascending'
    obtain ⟨top,-,isTop,-,-⟩ := inferred.roots isRoot
    obtain ⟨⟨_,topRef⟩,memberTop,rfl⟩ := List.mem_map.mp (inferred.keys.mem_iff.mpr isTop.1)
    have listed := (mem_rootIDs inferred.hangs.named ⟨_,memberTop⟩).mpr
      ((parent_none_iff inferred.hangs perm ascending memberTop isTop.1).mpr isTop)
    have inside : t.interleaved addr t.rootIDs.length < t.rootIDs.length := Nat.mod_lt _ (List.length_pos_of_mem listed)
    obtain ⟨home,selected⟩ : ∃ home, t.rootIDs[t.interleaved addr t.rootIDs.length]? = some home :=
      ⟨_,List.getElem?_eq_getElem inside⟩
    have selected' : t'.rootIDs[t'.interleaved addr t'.rootIDs.length]? = some home := by
      rwa [← same,interleaved,inferred'.config,← inferred.config]
    obtain ⟨ref,member⟩ := directory_of_mem_rootIDs (List.mem_of_getElem? selected)
    obtain ⟨ref',member'⟩ := directory_of_mem_rootIDs (List.mem_of_getElem? selected')
    rw [← inferred.hangs.named.named member] at selected
    rw [← inferred'.hangs.named.named member'] at selected'
    rw [(getHomeNode_of_roots forest inferred.hangs.named isRoot ⟨home,member⟩).mpr selected,
      (getHomeNode_of_roots forest' inferred'.hangs.named isRoot' ⟨home,member'⟩).mpr selected',
      inferred.hangs.named.named member,inferred'.hangs.named.named member']

/-- Trees that are inferred with the same parents are the same. -/
theorem same_of_agree (agree : ∀ id ∈ topology.directories, ids.find? (topology.higher id) = ids'.find? (topology.higher id)) :
    t.Same t' := by
  have links_same := links_perm inferred perm ascending inferred' perm' ascending' agree
  refine ⟨inferred.keys.trans inferred'.keys.symm,root_same inferred inferred',?_,?_,?_⟩
  · intro id ref ref' member member'
    rw [parent_eq_find inferred perm ascending member,parent_eq_find inferred' perm' ascending' member']
    exact agree id (inferred.keys.mem_iff.mp (List.mem_map_of_mem member))
  · intro id ref ref' member member' nodeID
    rw [inferred.populated.members member,inferred'.populated.members member']
  · intro directoryNodes directoryNodes' order order' addr
    exact getHomeNode_same (inferred.reorder order) perm ascending (inferred'.reorder order') perm' ascending' links_same addr

end

end

/-! ### Orders that differ -/

/-- The sort may leave one directory before the others of its level. -/
def DirInfo.Before (first : Int) (a b : DirInfo) : Prop :=
  a.level < b.level ∨ a.level = b.level ∧ (a.nodeID = first ∨ b.nodeID ≠ first)

instance (first : Int) : DecidableRel (DirInfo.Before first) :=
  fun a b => inferInstanceAs (Decidable (a.level < b.level ∨ a.level = b.level ∧ (a.nodeID = first ∨ b.nodeID ≠ first)))

theorem pairwise_before (first : Int) (dirs : List DirInfo) :
    (dirs.insertionSort (DirInfo.Before first)).Pairwise (DirInfo.Before first) := by
  have total : Std.Total (DirInfo.Before first) := ⟨fun a b => by unfold DirInfo.Before; omega⟩
  have transitive : IsTrans DirInfo (DirInfo.Before first) := ⟨fun a b c => by unfold DirInfo.Before; omega⟩
  exact List.pairwise_insertionSort _ dirs

/-- The orders that go through every map as it is, with one directory before the others of its
    level. -/
def Orders.putFirst (first : Int) : Orders where
  ofNodes := id
  ofLevels := id
  ofDirNodes := id
  ofRoots := id
  ofResponsible := id
  ofChecked := id
  sorted := List.insertionSort (DirInfo.Before first)
  nodes_perm := .refl
  levels_perm := .refl
  dirNodes_perm := .refl
  roots_perm := .refl
  responsible_perm := .refl
  checked_perm := .refl
  sorted_perm := List.perm_insertionSort _
  sorted_levels dirs := by
    refine (pairwise_before first dirs).imp fun {a b} before => ?_
    unfold DirInfo.Before at before
    omega

/-- A nearest directory that is put first becomes the parent. -/
theorem find_putFirst {topology : Topology} (config : AddressMappingConfig) {id first : Int} (nearest : topology.Nearest id first) :
    (analyzedOrder topology config (.putFirst first)).find? (topology.higher id) = some first := by
  obtain ⟨⟨dirs,sorted⟩,perm,-⟩ := analyzedOrder_spec topology config (.putFirst first)
  have before : ((analyzedOrder topology config (.putFirst first)).map topology.info).Pairwise (DirInfo.Before first) := by
    rw [← sorted]
    exact pairwise_before first dirs
  rw [List.pairwise_map] at before
  have listed := perm.mem_iff.mpr nearest.directory
  cases found : (analyzedOrder topology config (.putFirst first)).find? (topology.higher id) with
  | none => exact absurd nearest.higher (List.find?_eq_none.mp found first listed)
  | some parent =>
    obtain ⟨higher,earlier,later,split,lower⟩ := List.find?_eq_some_iff_append.mp found
    rw [split] at before listed perm
    rcases List.mem_append.mp listed with isEarlier | isLater
    · cases nearest.higher.symm.trans (by simpa using lower first isEarlier)
    · rcases List.mem_cons.mp isLater with rfl | isLater
      · rfl
      · have lowest := nearest.lowest (perm.mem_iff.mp (List.mem_append_right _ List.mem_cons_self)) higher
        rcases (List.pairwise_cons.mp (List.pairwise_append.mp before).2.1).1 first isLater with below | ⟨-,same | other⟩
        · exact absurd lowest (not_le.mpr below)
        · exact congrArg some same
        · exact absurd rfl other

/-- Every order of the maps and of directories of one level gives the same tree exactly when
    the analysis fails, or no directory has two nearest higher directories. -/
theorem analysis_is_determined_iff (topology : Topology) (config : AddressMappingConfig) :
    (∀ orders orders', Option.Rel CoherenceTree.Same (outcome (analyze topology config orders))
      (outcome (analyze topology config orders'))) ↔ ¬ topology.Inferable ∨ topology.NoTies := by
  constructor
  · intro determined
    by_cases inferable : topology.Inferable
    · refine .inr fun id isDirectory a b nearestA nearestB => ?_
      obtain ⟨-,permA,ascendingA⟩ := analyzedOrder_spec topology config (.putFirst a)
      obtain ⟨-,permB,ascendingB⟩ := analyzedOrder_spec topology config (.putFirst b)
      obtain ⟨treeA,outcomeA,inferredA⟩ := outcome_of_inferable config (.putFirst a) inferable
      obtain ⟨treeB,outcomeB,inferredB⟩ := outcome_of_inferable config (.putFirst b) inferable
      have related := determined (.putFirst a) (.putFirst b)
      rw [outcomeA,outcomeB] at related
      obtain ⟨⟨_,refA⟩,memberA,rfl⟩ := List.mem_map.mp (inferredA.keys.mem_iff.mpr isDirectory)
      obtain ⟨⟨_,refB⟩,memberB,same_id⟩ := List.mem_map.mp (inferredB.keys.mem_iff.mpr isDirectory)
      dsimp only at same_id
      subst same_id
      cases related with
      | some same =>
        have parents := same.parents memberA memberB
        rw [parent_eq_find inferredA permA ascendingA memberA,parent_eq_find inferredB permB ascendingB memberB,
          find_putFirst config nearestA,find_putFirst config nearestB] at parents
        exact Option.some.inj parents
    · exact .inl inferable
  · intro condition orders orders'
    by_cases inferable : topology.Inferable
    · have noTies := condition.resolve_left (not_not.mpr inferable)
      obtain ⟨-,perm,ascending⟩ := analyzedOrder_spec topology config orders
      obtain ⟨-,perm',ascending'⟩ := analyzedOrder_spec topology config orders'
      obtain ⟨t,succeeds,inferred⟩ := outcome_of_inferable config orders inferable
      obtain ⟨t',succeeds',inferred'⟩ := outcome_of_inferable config orders' inferable
      rw [succeeds,succeeds']
      refine .some (same_of_agree inferred perm ascending inferred' perm' ascending' fun id isDirectory => ?_)
      exact find_eq_of_noTies noTies isDirectory perm ascending perm' ascending'
    · rw [outcome_of_not_inferable config orders inferable,outcome_of_not_inferable config orders' inferable]
      exact .none

/-- A cache between two memory controllers, each with a directory. -/
def betweenControllers : Topology where
  nodes := [(1,⟨.cache,2,true⟩),(2,⟨.memoryCtrl,0,true⟩),(3,⟨.memoryCtrl,0,true⟩)]
  distinct := by decide
  connections := [(1,[2,3])]

/-- The trees when the sort leaves the one controller first, or the other. -/
def belowSecond : CoherenceTree := (outcome (analyze betweenControllers ⟨64⟩ (.putFirst 2))).get (by decide +kernel)

def belowThird : CoherenceTree := (outcome (analyze betweenControllers ⟨64⟩ (.putFirst 3))).get (by decide +kernel)

/-- The parent of the cache is the controller that the sort leaves first. -/
theorem parent_depends_on_order : ¬ Option.Rel CoherenceTree.Same (outcome (analyze betweenControllers ⟨64⟩ (.putFirst 2)))
    (outcome (analyze betweenControllers ⟨64⟩ (.putFirst 3))) := by
  have second : outcome (analyze betweenControllers ⟨64⟩ (.putFirst 2)) = some belowSecond := (Option.some_get _).symm
  have third : outcome (analyze betweenControllers ⟨64⟩ (.putFirst 3)) = some belowThird := (Option.some_get _).symm
  intro related
  rw [second,third] at related
  cases related with
  | some same =>
    have member : (1,0) ∈ belowSecond.directoryNodes := by decide +kernel
    have member' : (1,0) ∈ belowThird.directoryNodes := by decide +kernel
    exact absurd (same.parents member member') (by decide +kernel)

end FlowSim.Coherence
