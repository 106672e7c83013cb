import FlowSim.Coherence.Inference

/-!
The whole analysis. It succeeds just if there are directories and those at the top have one
level (`Topology.Inferable`); then the tree is told by the order of the directories after the
sort (`Inferred`).
-/
namespace FlowSim.Coherence
open FlowSim.Lib CoherenceTree
set_option linter.unusedSimpArgs false

/-! ### Classification -/

def keepsDirectory (capability : NodeCapability) : Bool :=
  capability.hasDirectory && (capability.role = .cache || capability.role = .memoryCtrl)

def Topology.directories (topology : Topology) : List Int :=
  (topology.nodes.filter fun node => keepsDirectory node.2).map Prod.fst

section
variable {nodes : List (Int × NodeCapability)}

theorem directoryNodes_classify : ∀ (nodes : List (Int × NodeCapability)) (result : AnalysisResult),
    (nodes.foldl classifyNode result).directoryNodes =
      result.directoryNodes ++ (nodes.filter fun node => keepsDirectory node.2).map Prod.fst
  | [], result => (List.append_nil _).symm
  | node :: nodes, result => by
    have one : (classifyNode result node).directoryNodes =
        result.directoryNodes ++ if keepsDirectory node.2 then [node.1] else [] := by
      unfold classifyNode keepsDirectory
      cases role : node.2.role <;> cases node.2.hasDirectory <;> simp [role]
    rw [List.foldl_cons,directoryNodes_classify nodes,one,List.filter_cons]
    split_ifs <;> simp

theorem computeNodes_classify : ∀ (nodes : List (Int × NodeCapability)) (result : AnalysisResult),
    (nodes.foldl classifyNode result).computeNodes =
      result.computeNodes ++ (nodes.filter fun node => node.2.role = .compute).map Prod.fst
  | [], result => (List.append_nil _).symm
  | node :: nodes, result => by
    have one : (classifyNode result node).computeNodes =
        result.computeNodes ++ if node.2.role = .compute then [node.1] else [] := by
      unfold classifyNode
      cases role : node.2.role <;> simp [role]
    rw [List.foldl_cons,computeNodes_classify nodes,one,List.filter_cons]
    split_ifs <;> simp_all

theorem mem_put {α : Type} {m : List (Int × α)} {key : Int} {value : α} {entry : Int × α} :
    entry ∈ put m key value ↔ entry ∈ m ∧ entry.1 ≠ key ∨ entry = (key,value) := by
  rw [put,List.mem_append,List.mem_filter,List.mem_singleton,decide_eq_true_iff]

/-- The cache nodes of all levels are the caches. -/
theorem cacheNodes_classify : ∀ (nodes : List (Int × NodeCapability)) {result : AnalysisResult},
    (result.cacheNodes.map Prod.fst).Nodup → ∀ nodeID, nodeID ∈ (nodes.foldl classifyNode result).cacheNodes.flatMap Prod.snd ↔
      nodeID ∈ result.cacheNodes.flatMap Prod.snd ∨ nodeID ∈ (nodes.filter fun node => node.2.role = .cache).map Prod.fst
  | [], result, _, nodeID => by simp
  | node :: nodes, result, distinct, nodeID => by
    have one : ((classifyNode result node).cacheNodes.map Prod.fst).Nodup ∧
        (nodeID ∈ (classifyNode result node).cacheNodes.flatMap Prod.snd ↔
          nodeID ∈ result.cacheNodes.flatMap Prod.snd ∨ node.2.role = .cache ∧ nodeID = node.1) := by
      by_cases isCache : node.2.role = .cache
      · have level : (classifyNode result node).cacheNodes = put result.cacheNodes node.2.cacheLevel
            ((find result.cacheNodes node.2.cacheLevel).getD [] ++ [node.1]) := by
          unfold classifyNode
          rw [isCache]
        rw [level]
        refine ⟨nodup_put distinct,?_⟩
        simp only [List.mem_flatMap,mem_put,isCache,true_and]
        constructor
        · rintro ⟨entry,⟨known,-⟩ | rfl,listed⟩
          · exact .inl ⟨entry,known,listed⟩
          · rcases List.mem_append.mp listed with old | new
            · cases found : find result.cacheNodes node.2.cacheLevel with
              | none =>
                rw [found] at old
                cases old
              | some ids =>
                rw [found] at old
                exact .inl ⟨_,mem_of_find found,old⟩
            · exact .inr (List.mem_singleton.mp new)
        · rintro (⟨⟨level,ids⟩,known,listed⟩ | rfl)
          · by_cases same : level = node.2.cacheLevel
            · subst same
              refine ⟨_,.inr rfl,List.mem_append_left _ ?_⟩
              rw [find_of_mem distinct known]
              exact listed
            · exact ⟨_,.inl ⟨known,same⟩,listed⟩
          · exact ⟨_,.inr rfl,List.mem_append_right _ (List.mem_singleton_self _)⟩
      · have same : (classifyNode result node).cacheNodes = result.cacheNodes := by
          unfold classifyNode
          cases role : node.2.role <;> simp_all
        rw [same]
        exact ⟨distinct,by simp [isCache]⟩
    rw [List.foldl_cons,cacheNodes_classify nodes one.1,one.2,List.filter_cons,or_assoc]
    split_ifs with isCache
    · simp [of_decide_eq_true isCache]
    · simp [of_decide_eq_false (Bool.eq_false_of_not_eq_true isCache)]

end

section
variable (topology : Topology) (orders : Orders)

theorem directoryNodes_perm : (classifyNodes topology orders).directoryNodes.Perm topology.directories := by
  rw [classifyNodes,directoryNodes_classify]
  exact ((orders.nodes_perm topology.nodes).filter _).map _

theorem directories_nodup : topology.directories.Nodup := topology.distinct.sublist (List.filter_sublist.map _)

theorem computeNodes_nodup : (classifyNodes topology orders).computeNodes.Nodup := by
  rw [classifyNodes,computeNodes_classify]
  have distinct := ((orders.nodes_perm topology.nodes).map Prod.fst).nodup_iff.mpr topology.distinct
  exact distinct.sublist (List.filter_sublist.map _)

/-- The nodes that are assigned to domains. -/
def Topology.Assigned (nodeID : Int) : Prop :=
  nodeID ∈ (topology.nodes.filter fun node => node.2.role = .compute).map Prod.fst ∨
    nodeID ∈ (topology.nodes.filter fun node => node.2.role = .cache).map Prod.fst ∧ topology.Plain nodeID

theorem assigned_iff (nodeID : Int) : nodeID ∈ (classifyNodes topology orders).computeNodes ∨
    nodeID ∈ (classifyNodes topology orders).cacheNodes.flatMap Prod.snd ∧ topology.Plain nodeID ↔ topology.Assigned nodeID := by
  have same := orders.nodes_perm topology.nodes
  have start : (({} : AnalysisResult).cacheNodes.map Prod.fst).Nodup := List.nodup_nil
  rw [classifyNodes,computeNodes_classify,cacheNodes_classify _ start]
  unfold Topology.Assigned
  rw [((same.filter _).map Prod.fst).mem_iff.symm,((same.filter _).map Prod.fst).mem_iff.symm]
  simp

end

/-! ### The hierarchy -/

section
variable {topology : Topology} {orders : Orders} {t : CoherenceTree} {links : List (Int × Int)}

/-- A directory that no directory is above. -/
def Topology.Top (topology : Topology) (id : Int) : Prop :=
  id ∈ topology.directories ∧ ∀ other ∈ topology.directories, topology.higher id other = false

/-- All directories at the top have one level. -/
def Topology.LevelTop (topology : Topology) : Prop :=
  ∀ {a b}, topology.Top a → topology.Top b → topology.dirLevel a = topology.dirLevel b

theorem getNodeLevel_eq {id : Int} (isDirectory : id ∈ topology.directories) :
    topology.getNodeLevel id = topology.dirLevel id := by
  obtain ⟨⟨_,capability⟩,kept,rfl⟩ := List.mem_map.mp isDirectory
  obtain ⟨isNode,keeps⟩ := List.mem_filter.mp kept
  unfold Topology.getNodeLevel Topology.dirLevel
  rw [find_of_mem topology.distinct isNode]
  have role : capability.role = .cache ∨ capability.role = .memoryCtrl := by
    simp only [keepsDirectory,Bool.and_eq_true,Bool.or_eq_true,decide_eq_true_iff] at keeps
    exact keeps.2
  rcases role with isCache | isCtrl
  · simp [isCache]
  · simp [isCtrl]

theorem exists_top (some_directory : topology.directories ≠ []) : ∃ id, topology.Top id := by
  obtain ⟨id,isDirectory,highest⟩ := Finset.exists_max_image topology.directories.toFinset topology.dirLevel
    (List.toFinset_nonempty_iff _ |>.mpr some_directory)
  refine ⟨id,List.mem_toFinset.mp isDirectory,fun other member => decide_eq_false fun both => ?_⟩
  exact not_lt.mpr (highest other (List.mem_toFinset.mpr member)) both.1

/-- The directories in the order after the sort. -/
def sortedDirectories (topology : Topology) (orders : Orders) (t : CoherenceTree) : List Int :=
  (orders.sorted ((orders.ofDirNodes t.directoryNodes).map fun entry => ⟨entry.1,topology.dirLevel entry.1⟩)).map DirInfo.nodeID

variable (orders) in
theorem sortedDirectories_spec (keys : (t.directoryNodes.map Prod.fst).Perm topology.directories) :
    orders.sorted ((orders.ofDirNodes t.directoryNodes).map fun entry => ⟨entry.1,topology.dirLevel entry.1⟩) =
        (sortedDirectories topology orders t).map topology.info ∧
      (sortedDirectories topology orders t).Perm topology.directories ∧
      (sortedDirectories topology orders t).Pairwise fun a b => topology.dirLevel a ≤ topology.dirLevel b := by
  have perm := orders.sorted_perm ((orders.ofDirNodes t.directoryNodes).map fun entry => ⟨entry.1,topology.dirLevel entry.1⟩)
  have ascending := orders.sorted_levels ((orders.ofDirNodes t.directoryNodes).map fun entry => ⟨entry.1,topology.dirLevel entry.1⟩)
  unfold sortedDirectories
  generalize orders.sorted _ = dirs at perm ascending
  have informed : ∀ dir ∈ dirs, topology.info dir.nodeID = dir := by
    intro dir member
    obtain ⟨entry,-,rfl⟩ := List.mem_map.mp (perm.mem_iff.mp member)
    rfl
  refine ⟨?_,?_,?_⟩
  · rw [List.map_map]
    exact ((List.map_congr_left informed).trans (List.map_id _)).symm
  · refine (perm.map DirInfo.nodeID).trans ?_
    rw [List.map_map]
    exact ((orders.dirNodes_perm t.directoryNodes).map Prod.fst).trans keys
  · rw [List.pairwise_map]
    refine ascending.imp_of_mem fun {a b} isA isB lower => ?_
    rw [← informed a isA,← informed b isB] at lower
    exact lower

theorem CoherenceTree.Hangs.withRoot (hangs : t.Hangs links) (root : Option NodeRef) : Hangs links { t with root } :=
  ⟨⟨hangs.named.keys,hangs.named.named,hangs.named.inUse⟩,hangs.full,hangs.parents,hangs.parentDirs,hangs.children,
    hangs.childDirs,hangs.unranged,hangs.single⟩

/-- A directory has no parent just if it is at the top. -/
theorem parent_none_iff {ids : List Int} (hangs : t.Hangs (topology.links ids)) (perm : ids.Perm topology.directories)
    (ascending : ids.Pairwise fun a b => topology.dirLevel a ≤ topology.dirLevel b) {id : Int} {ref : NodeRef}
    (member : (id,ref) ∈ t.directoryNodes) (isDirectory : id ∈ topology.directories) :
    t.parentOf ref = none ↔ topology.Top id := by
  have distinct := perm.nodup_iff.mpr (directories_nodup topology)
  rw [← Option.map_eq_none_iff (f := t.idOf),hangs.parents member,find_links distinct ascending (perm.mem_iff.mpr isDirectory),
    List.find?_eq_none]
  constructor
  · intro lower
    exact ⟨isDirectory,fun other listed => by simpa using lower other (perm.mem_iff.mpr listed)⟩
  · rintro ⟨-,lower⟩ other listed
    simpa using lower other (perm.mem_iff.mp listed)

variable (orders) in
/-- The roots are the directories at the top. -/
theorem roots_spec {ids : List Int} (hangs : t.Hangs (topology.links ids)) (perm : ids.Perm topology.directories)
    (ascending : ids.Pairwise fun a b => topology.dirLevel a ≤ topology.dirLevel b)
    (keys : (t.directoryNodes.map Prod.fst).Perm topology.directories) :
    (((orders.ofRoots t.directoryNodes).filter fun entry => (t.parentOf entry.2).isNone).map Prod.snd).Nodup ∧
      ∀ {ref}, ref ∈ ((orders.ofRoots t.directoryNodes).filter fun entry => (t.parentOf entry.2).isNone).map Prod.snd ↔
        t.IsDirectory ref ∧ topology.Top (t.idOf ref) := by
  have same := orders.roots_perm t.directoryNodes
  have top_iff : ∀ {id ref}, (id,ref) ∈ t.directoryNodes → (t.parentOf ref = none ↔ topology.Top (t.idOf ref)) := by
    intro id ref member
    rw [hangs.named.named member]
    exact parent_none_iff hangs perm ascending member (keys.mem_iff.mp (List.mem_map_of_mem member))
  refine ⟨?_,?_⟩
  · refine List.Nodup.map_on ?_ (List.Nodup.filter _ (same.nodup_iff.mpr (List.Nodup.of_map _ hangs.named.keys)))
    rintro ⟨id,ref⟩ kept ⟨id',ref'⟩ kept' rfl
    have member := same.mem_iff.mp (List.mem_of_mem_filter kept)
    have member' := same.mem_iff.mp (List.mem_of_mem_filter kept')
    rw [← hangs.named.named member,← hangs.named.named member']
  · intro ref
    constructor
    · intro isRoot
      obtain ⟨⟨id,ref⟩,kept,rfl⟩ := List.mem_map.mp isRoot
      obtain ⟨member,top⟩ := List.mem_filter.mp kept
      have member := same.mem_iff.mp member
      exact ⟨⟨id,member⟩,(top_iff member).mp (Option.isNone_iff_eq_none.mp top)⟩
    · rintro ⟨⟨id,member⟩,top⟩
      refine List.mem_map.mpr ⟨(id,ref),List.mem_filter.mpr ⟨same.mem_iff.mpr member,?_⟩,rfl⟩
      exact Option.isNone_iff_eq_none.mpr ((top_iff member).mpr top)

/-- What the hierarchy makes of a blank tree: it has a root just if one directory is at the
    top. -/
structure Hierarchy (topology : Topology) (ids : List Int) (t t' : CoherenceTree) : Prop where
  hangs : t'.Hangs (topology.links ids)
  directoryNodes : t'.directoryNodes = t.directoryNodes
  config : t'.addressMappingConfig = t.addressMappingConfig
  domains : ∀ ref, (t'.node ref).domain = (t.node ref).domain
  root : ∀ {root}, t'.root = some root → t'.IsDirectory root ∧ topology.Top (t'.idOf root) ∧
    ∀ {id}, topology.Top id → id = t'.idOf root
  roots : t'.root = none → ∃ a b, topology.Top a ∧ topology.Top b ∧ a ≠ b

variable (orders) in
theorem inferHierarchy_spec {found : List Int} {config : AddressMappingConfig} (blank : t.Blank found config)
    (perm : found.Perm topology.directories) (some_directory : topology.directories ≠ []) :
    (topology.LevelTop → ∃ t', inferHierarchy topology orders t = .ok t' ∧
      Hierarchy topology (sortedDirectories topology orders t) t t') ∧
    (¬ topology.LevelTop → ∃ err, inferHierarchy topology orders t = .error err) := by
  have keys : (t.directoryNodes.map Prod.fst).Perm topology.directories := blank.keys ▸ perm
  obtain ⟨sorted,sorted_perm,ascending⟩ := sortedDirectories_spec orders keys
  have isKey : ∀ {id}, id ∈ topology.directories → ∃ ref, (id,ref) ∈ t.directoryNodes := by
    intro id isDirectory
    obtain ⟨⟨_,ref⟩,member,rfl⟩ := List.mem_map.mp (keys.mem_iff.mpr isDirectory)
    exact ⟨ref,member⟩
  obtain ⟨hangs,same⟩ := inferParents_hangs topology blank.hangs
    (fun id member => isKey (sorted_perm.mem_iff.mp member)) (fun _ _ => rfl)
    (sorted_perm.nodup_iff.mpr (directories_nodup topology)) ascending
    (fun id member => getNodeLevel_eq (sorted_perm.mem_iff.mp member))
  rw [List.nil_append] at hangs
  have keys' : ((inferParents topology ((sortedDirectories topology orders t).map topology.info) t).directoryNodes.map
      Prod.fst).Perm topology.directories := by rwa [same.directoryNodes]
  obtain ⟨distinct,isRoot⟩ := roots_spec orders hangs sorted_perm ascending keys'
  unfold inferHierarchy
  dsimp only
  rw [sorted]
  generalize inferParents topology ((sortedDirectories topology orders t).map topology.info) t = linked at hangs same keys' distinct isRoot ⊢
  generalize ((orders.ofRoots linked.directoryNodes).filter fun entry => (linked.parentOf entry.2).isNone).map Prod.snd = roots
    at distinct isRoot ⊢
  have listed : ∀ {id}, topology.Top id → ∃ ref ∈ roots, linked.idOf ref = id := by
    intro id top
    obtain ⟨⟨_,ref⟩,member,rfl⟩ := List.mem_map.mp (keys'.mem_iff.mpr top.1)
    have named := hangs.named.named member
    exact ⟨ref,isRoot.mpr ⟨⟨_,member⟩,named.symm ▸ top⟩,named⟩
  match roots with
  | [] =>
    obtain ⟨id,top⟩ := exists_top some_directory
    obtain ⟨ref,member,-⟩ := listed top
    cases member
  | [root] =>
    have only : ∀ {id}, topology.Top id → id = linked.idOf root := by
      intro id top
      obtain ⟨ref,member,rfl⟩ := listed top
      rw [List.mem_singleton.mp member]
    refine ⟨fun _ => ⟨_,rfl,⟨hangs.withRoot _,same.directoryNodes,same.config,same.domains,?_,?_⟩⟩,fun apart => ?_⟩
    · intro root' same_root
      obtain rfl := Option.some.inj same_root
      obtain ⟨directory,top⟩ := isRoot.mp (List.mem_singleton_self root)
      exact ⟨directory,top,only⟩
    · intro none_root
      cases none_root
    · exact absurd (fun {a b} topA topB => by rw [only topA,only topB]) apart
  | root :: other :: rest =>
    obtain ⟨directory,top⟩ := isRoot.mp (List.mem_cons_self (a := root) (l := other :: rest))
    obtain ⟨directory',top'⟩ := isRoot.mp (List.mem_cons_of_mem root (List.mem_cons_self (a := other) (l := rest)))
    have apart : linked.idOf root ≠ linked.idOf other := by
      intro same_id
      obtain rfl := hangs.named.eq_of_id directory directory' same_id
      exact (List.nodup_cons.mp distinct).1 List.mem_cons_self
    have level_iff : (other :: rest).all (fun other =>
        decide (topology.getNodeLevel (linked.idOf other) = topology.getNodeLevel (linked.idOf root))) = true ↔ topology.LevelTop := by
      rw [List.all_eq_true]
      constructor
      · intro same_level
        have one_level : ∀ {id}, topology.Top id → topology.dirLevel id = topology.dirLevel (linked.idOf root) := by
          intro id isTop
          obtain ⟨ref,member,rfl⟩ := listed isTop
          rcases List.mem_cons.mp member with rfl | later
          · rfl
          · rw [← getNodeLevel_eq isTop.1,← getNodeLevel_eq top.1]
            exact of_decide_eq_true (same_level ref later)
        intro a b topA topB
        rw [one_level topA,one_level topB]
      · intro level ref later
        have isTop := (isRoot.mp (List.mem_cons_of_mem root later)).2
        rw [getNodeLevel_eq isTop.1,getNodeLevel_eq top.1]
        exact decide_eq_true (level isTop top)
    dsimp only
    refine ⟨fun level => ⟨_,if_pos (level_iff.mpr level),⟨hangs.withRoot _,same.directoryNodes,same.config,same.domains,?_,?_⟩⟩,
      fun not_level => ⟨_,if_neg fun all => not_level (level_iff.mp all)⟩⟩
    · intro root' none_root
      cases none_root
    · intro _
      exact ⟨_,_,top,top',apart⟩

/-! ### The analysis -/

/-- The directory that is nearest to a node, -1 when there is none. -/
def Topology.nearest (topology : Topology) (startNode : Int) : Int :=
  (search topology.neighbors (fun current => decide (current ∈ topology.directories)) topology.searchFuel
    [startNode] [startNode]).getD (-1)

theorem findNearestDirectory_eq (keys : (t.directoryNodes.map Prod.fst).Perm topology.directories) :
    topology.findNearestDirectory t = topology.nearest := by
  have goals : (fun current => (find t.directoryNodes current).isSome) = fun current => decide (current ∈ topology.directories) := by
    funext current
    rw [Bool.eq_iff_iff,decide_eq_true_iff,← keys.mem_iff,Option.isSome_iff_ne_none,ne_eq,find_eq_none,List.mem_map]
    simp
  funext startNode
  rw [Topology.findNearestDirectory,goals]
  rfl

/-- What the analyzer infers when the directories are in this order after the sort. -/
structure Inferred (topology : Topology) (config : AddressMappingConfig) (ids : List Int) (t : CoherenceTree) : Prop where
  hangs : t.Hangs (topology.links ids)
  keys : (t.directoryNodes.map Prod.fst).Perm topology.directories
  config : t.addressMappingConfig = config
  root : ∀ {root}, t.root = some root → t.IsDirectory root ∧ topology.Top (t.idOf root) ∧
    ∀ {id}, topology.Top id → id = t.idOf root
  roots : t.root = none → ∃ a b, topology.Top a ∧ topology.Top b ∧ a ≠ b
  populated : t.Populated topology.nearest topology.Assigned

theorem Inferred.forest {config : AddressMappingConfig} {ids : List Int} (inferred : Inferred topology config ids t)
    (perm : ids.Perm topology.directories) (ascending : ids.Pairwise fun a b => topology.dirLevel a ≤ topology.dirLevel b) :
    t.Forest := by
  refine inferred.hangs.forest topology (fun link isLink => ?_) fun {root} isRoot => ?_
  · exact (of_decide_eq_true (higher_of_links isLink).2.2).1
  · obtain ⟨⟨id,member⟩,top,-⟩ := inferred.root isRoot
    rw [inferred.hangs.named.named member] at top
    exact ⟨⟨id,member⟩,(parent_none_iff inferred.hangs perm ascending member top.1).mpr top⟩

/-- The order in which a map is gone through does not matter to the tree. -/
theorem CoherenceTree.Hangs.reorder (hangs : t.Hangs links) {directoryNodes : List (Int × NodeRef)}
    (perm : directoryNodes.Perm t.directoryNodes) : Hangs links { t with directoryNodes } := by
  have directory : ∀ {ref}, IsDirectory { t with directoryNodes } ref ↔ t.IsDirectory ref :=
    fun {ref} => exists_congr fun id => perm.mem_iff
  exact ⟨⟨(perm.map Prod.fst).nodup_iff.mpr hangs.named.keys,fun member => hangs.named.named (perm.mem_iff.mp member),
      fun member => hangs.named.inUse (perm.mem_iff.mp member)⟩,hangs.full.trans perm.length_eq.symm,
    fun member => hangs.parents (perm.mem_iff.mp member),
    fun isNode above => directory.mpr (hangs.parentDirs (directory.mp isNode) above),
    fun member => hangs.children (perm.mem_iff.mp member),
    fun isNode member => directory.mpr (hangs.childDirs (directory.mp isNode) member),
    fun isNode => hangs.unranged (directory.mp isNode),hangs.single⟩

theorem Inferred.reorder {config : AddressMappingConfig} {ids : List Int} (inferred : Inferred topology config ids t)
    {directoryNodes : List (Int × NodeRef)} (perm : directoryNodes.Perm t.directoryNodes) :
    Inferred topology config ids { t with directoryNodes } := by
  refine ⟨inferred.hangs.reorder perm,(perm.map Prod.fst).trans inferred.keys,inferred.config,?_,inferred.roots,
    fun member => inferred.populated.distinct (perm.mem_iff.mp member),
    fun member => inferred.populated.members (perm.mem_iff.mp member)⟩
  intro root isRoot
  obtain ⟨⟨id,member⟩,top⟩ := inferred.root isRoot
  exact ⟨⟨id,perm.mem_iff.mpr member⟩,top⟩

/-- The tree that an analysis returns, if it succeeds. -/
def outcome (analysis : AnalysisResult × Option String) : Option CoherenceTree :=
  if analysis.2.isNone then analysis.1.coherenceTree else none

/-- The order after the sort in an analysis. -/
def analyzedOrder (topology : Topology) (config : AddressMappingConfig) (orders : Orders) : List Int :=
  sortedDirectories topology orders ((classifyNodes topology orders).directoryNodes.foldl addNode
    { node := fun _ => default, size := 0, root := none, directoryNodes := [], addressMappingConfig := config })

/-- The analysis succeeds for every order or for none. -/
def Topology.Inferable (topology : Topology) : Prop := topology.directories ≠ [] ∧ topology.LevelTop

theorem blank_start (config : AddressMappingConfig) : Blank [] config
    { node := fun _ => default, size := 0, root := none, directoryNodes := [], addressMappingConfig := config } := by
  refine ⟨⟨⟨List.nodup_nil,?_,?_⟩,rfl,?_,?_,?_,?_,?_,List.nodup_nil⟩,rfl,?_,rfl,rfl⟩
  · exact fun member => nomatch member
  · exact fun member => nomatch member
  · exact fun member => nomatch member
  · exact fun ⟨_,member⟩ _ => nomatch member
  · exact fun member => nomatch member
  · exact fun ⟨_,member⟩ _ => nomatch member
  · exact fun ⟨_,member⟩ => nomatch member
  · exact fun ⟨_,member⟩ => nomatch member

variable (orders) in
/-- With domains and addresses the tree is what is inferred. -/
theorem Hierarchy.inferred {ids found : List Int} {config : AddressMappingConfig} {t' : CoherenceTree}
    (hierarchy : Hierarchy topology ids t t') (blank : t.Blank found config) (perm : found.Perm topology.directories) :
    Inferred topology config ids
      ((assignDomains topology orders (classifyNodes topology orders) t').assignAddressResponsibility orders) := by
  have empty : ∀ {ref}, t'.IsDirectory ref → (t'.node ref).domain = [] := by
    rintro ref ⟨id,member⟩
    rw [hierarchy.directoryNodes] at member
    rw [hierarchy.domains,blank.domains ⟨id,member⟩]
  have keys : (t'.directoryNodes.map Prod.fst).Perm topology.directories := by
    rw [hierarchy.directoryNodes,blank.keys]
    exact perm
  obtain ⟨same,populated⟩ := assignDomains_populated hierarchy.hangs empty orders (computeNodes_nodup topology orders)
  have hangs := same.hangs hierarchy.hangs
  rw [hangs.assignAddressResponsibility orders]
  refine ⟨hangs,by rwa [same.directoryNodes],?_,?_,?_,?_⟩
  · rw [same.config,hierarchy.config,blank.config]
  · intro root isRoot
    rw [same.root] at isRoot
    rw [same.isDirectory,same.idOf]
    exact hierarchy.root isRoot
  · intro none_root
    rw [same.root] at none_root
    exact hierarchy.roots none_root
  · rw [findNearestDirectory_eq keys] at populated
    refine ⟨populated.distinct,fun {id ref} member nodeID => ?_⟩
    rw [populated.members member,assigned_iff topology orders]

theorem analyzedOrder_spec (topology : Topology) (config : AddressMappingConfig) (orders : Orders) :
    (∃ dirs, orders.sorted dirs = (analyzedOrder topology config orders).map topology.info) ∧
      (analyzedOrder topology config orders).Perm topology.directories ∧
      (analyzedOrder topology config orders).Pairwise fun a b => topology.dirLevel a ≤ topology.dirLevel b := by
  have perm := directoryNodes_perm topology orders
  have blank := (blank_start config).addNodes (classifyNodes topology orders).directoryNodes
    (perm.nodup_iff.mpr (directories_nodup topology))
  rw [List.nil_append] at blank
  rw [← blank.keys] at perm
  obtain ⟨sorted,spec⟩ := sortedDirectories_spec orders perm
  exact ⟨⟨_,sorted⟩,spec⟩

/-- Where there are directories and those at the top have one level, a tree is inferred from the
    order after the sort. -/
theorem inferCoherenceTree_of_inferable (config : AddressMappingConfig) (orders : Orders) (inferable : topology.Inferable) :
    ∃ t, inferCoherenceTree topology config orders (classifyNodes topology orders) = ([],.ok t) ∧
      Inferred topology config (analyzedOrder topology config orders) t := by
  obtain ⟨some_directory,level⟩ := inferable
  have perm := directoryNodes_perm topology orders
  have blank := (blank_start config).addNodes (classifyNodes topology orders).directoryNodes
    (perm.nodup_iff.mpr (directories_nodup topology))
  rw [List.nil_append] at blank
  obtain ⟨t,inferredTree,hierarchy⟩ := (inferHierarchy_spec orders blank perm some_directory).1 level
  have several : ¬ (classifyNodes topology orders).directoryNodes.length = 0 := by
    rw [perm.length_eq,List.length_eq_zero_iff]
    exact some_directory
  refine ⟨_,?_,hierarchy.inferred orders blank perm⟩
  rw [inferCoherenceTree,if_neg several]
  dsimp only
  rw [inferredTree]

theorem inferCoherenceTree_of_not_inferable (config : AddressMappingConfig) (orders : Orders)
    (not_inferable : ¬ topology.Inferable) : ∃ warnings err,
      inferCoherenceTree topology config orders (classifyNodes topology orders) = (warnings,.error err) := by
  have perm := directoryNodes_perm topology orders
  by_cases some_directory : topology.directories = []
  · refine ⟨[],noDirectories,if_pos ?_⟩
    rw [perm.length_eq,some_directory]
    rfl
  · have blank := (blank_start config).addNodes (classifyNodes topology orders).directoryNodes
      (perm.nodup_iff.mpr (directories_nodup topology))
    rw [List.nil_append] at blank
    obtain ⟨err,failed⟩ := (inferHierarchy_spec orders blank perm some_directory).2
      fun level => not_inferable ⟨some_directory,level⟩
    refine ⟨[err],noHierarchy err,?_⟩
    rw [inferCoherenceTree,if_neg]
    · dsimp only
      rw [failed]
    · rw [perm.length_eq,List.length_eq_zero_iff]
      exact some_directory

/-- The validation accepts what is inferred, in whatever order it goes through the directories. -/
theorem Inferred.validate_ok {config : AddressMappingConfig} {ids : List Int} (inferred : Inferred topology config ids t)
    (perm : ids.Perm topology.directories) (ascending : ids.Pairwise fun a b => topology.dirLevel a ≤ topology.dirLevel b)
    {directoryNodes : List (Int × NodeRef)} (order : directoryNodes.Perm t.directoryNodes) :
    validate { t with directoryNodes } = .ok () := by
  have checked := inferred.reorder order
  exact (checked.forest perm ascending).validate_ok checked.hangs.named
    (checked.populated.nodup_members checked.hangs.named.keys)

/-- An analysis that has inferred a tree returns it. -/
theorem analyze_of_inferred {config : AddressMappingConfig} {warnings : List String}
    (tree : inferCoherenceTree topology config orders (classifyNodes topology orders) = (warnings,.ok t))
    (inferred : Inferred topology config (analyzedOrder topology config orders) t) :
    (analyze topology config orders).1.coherenceTree = some t ∧ (analyze topology config orders).2 = none := by
  obtain ⟨-,perm,ascending⟩ := analyzedOrder_spec topology config orders
  have valid := inferred.validate_ok perm ascending (orders.checked_perm t.directoryNodes)
  unfold analyze
  dsimp only
  rw [tree]
  dsimp only
  rw [valid]
  exact ⟨rfl,rfl⟩

/-- The analysis succeeds with a tree that is inferred from the order after the sort. -/
theorem outcome_of_inferable (config : AddressMappingConfig) (orders : Orders) (inferable : topology.Inferable) :
    ∃ t, outcome (analyze topology config orders) = some t ∧
      Inferred topology config (analyzedOrder topology config orders) t := by
  obtain ⟨t,tree,inferred⟩ := inferCoherenceTree_of_inferable config orders inferable
  obtain ⟨returned,succeeds⟩ := analyze_of_inferred tree inferred
  refine ⟨t,?_,inferred⟩
  rw [outcome,succeeds,returned]
  rfl

theorem outcome_of_not_inferable (config : AddressMappingConfig) (orders : Orders) (not_inferable : ¬ topology.Inferable) :
    outcome (analyze topology config orders) = none := by
  obtain ⟨warnings,err,failed⟩ := inferCoherenceTree_of_not_inferable config orders not_inferable
  unfold analyze
  dsimp only
  rw [failed]
  rfl

end

end FlowSim.Coherence
