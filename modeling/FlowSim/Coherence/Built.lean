import FlowSim.Coherence.Tree
import FlowSim.Lib.Transition

/-!
What holds of every tree that the builder makes: every directory is in the map under its
own id, and no node is in two domains. A tree has one root when all its directories lead
up to it; then the loops over its parents and children end.
-/
namespace FlowSim.Coherence
open FlowSim.Lib
set_option linter.unusedSimpArgs false

/-! ### Maps -/

section
variable {α : Type} {m : List (Int × α)} {key : Int} {value : α}

theorem mem_of_find (found : find m key = some value) : (key,value) ∈ m := by
  obtain ⟨entry,first,rfl⟩ := Option.map_eq_some_iff.mp found
  have same := List.find?_some first
  obtain rfl := of_decide_eq_true same
  exact List.mem_of_find?_eq_some first

theorem find_of_mem (distinct : (m.map Prod.fst).Nodup) (member : (key,value) ∈ m) : find m key = some value := by
  induction m with
  | nil => cases member
  | cons entry m ih =>
    obtain ⟨fresh,rest⟩ := List.nodup_cons.mp distinct
    unfold find
    rw [List.find?_cons]
    rcases List.mem_cons.mp member with rfl | later
    · simp
    · have different : entry.1 ≠ key := by
        intro same
        exact fresh (List.mem_map.mpr ⟨_,later,same.symm⟩)
      rw [decide_eq_false different]
      exact ih rest later

/-- A key has one value. -/
theorem value_unique {value' : α} (distinct : (m.map Prod.fst).Nodup) (member : (key,value) ∈ m) (member' : (key,value') ∈ m) :
    value = value' :=
  Option.some.inj ((find_of_mem distinct member).symm.trans (find_of_mem distinct member'))

theorem find_eq_none : find m key = none ↔ ∀ entry ∈ m, entry.1 ≠ key := by
  simp [find]

theorem find_put (m : List (Int × α)) (key : Int) (value : α) (id : Int) :
    find (put m key value) id = if key = id then some value else find m id := by
  unfold find put
  rw [List.find?_append,List.find?_filter]
  by_cases same : key = id
  · subst same
    rw [if_pos rfl,List.find?_eq_none.mpr (by simp)]
    simp
  · rw [if_neg same]
    have kept : m.find? (fun entry => decide (decide (entry.1 ≠ key) = true ∧ decide (entry.1 = id) = true)) =
        m.find? fun entry => decide (entry.1 = id) := by
      congr 1
      funext entry
      grind
    rw [kept]
    cases m.find? fun entry => decide (entry.1 = id) <;> simp [same]

theorem nodup_put (distinct : (m.map Prod.fst).Nodup) : ((put m key value).map Prod.fst).Nodup := by
  unfold put
  rw [List.map_append,List.nodup_append]
  refine ⟨distinct.sublist (List.filter_sublist.map _),List.nodup_singleton _,?_⟩
  intro a inside b last
  obtain rfl := List.mem_singleton.mp last
  obtain ⟨entry,kept,rfl⟩ := List.mem_map.mp inside
  exact of_decide_eq_true (List.mem_filter.mp kept).2

end

namespace CoherenceTree

/-! ### Trees that are built -/

/-- The map of directories and the domains of a tree. -/
structure Named (t : CoherenceTree) : Prop where
  keys : (t.directoryNodes.map Prod.fst).Nodup
  named : ∀ {id ref}, (id,ref) ∈ t.directoryNodes → t.idOf ref = id
  inUse : ∀ {id ref}, (id,ref) ∈ t.directoryNodes → ref < t.size

end CoherenceTree

namespace CoherenceTreeBuilder

/-- The builder's map is the tree's. -/
structure Ordered (b : CoherenceTreeBuilder) : Prop where
  same : b.nodes = b.tree.directoryNodes
  config : b.tree.addressMappingConfig = b.config
  named : b.tree.Named

theorem Ordered.setNode {b : CoherenceTreeBuilder} (ordered : b.Ordered) {ref : NodeRef} {node : CoherenceNode}
    (same : node.nodeID = b.tree.idOf ref) : (b.setNode ref node).Ordered := by
  refine ⟨ordered.same,ordered.config,ordered.named.keys,?_,ordered.named.inUse⟩
  intro id other member
  rw [← ordered.named.named member]
  unfold CoherenceTree.idOf CoherenceTreeBuilder.setNode
  dsimp only
  by_cases here : other = ref
  · subst here
    rw [Function.update_self]
    exact same
  · rw [Function.update_of_ne here]

theorem Ordered.addDirectory {b : CoherenceTreeBuilder} (ordered : b.Ordered) (nodeID : Int) (domain : CoherenceDomain) :
    (b.addDirectory nodeID domain).Ordered := by
  have entries : ∀ {id ref}, (id,ref) ∈ (b.addDirectory nodeID domain).tree.directoryNodes →
      (id,ref) ∈ b.tree.directoryNodes ∨ (id,ref) = (nodeID,b.tree.size) := by
    intro id ref member
    rcases List.mem_append.mp member with old | new
    · exact .inl (List.mem_filter.mp old).1
    · exact .inr (List.mem_singleton.mp new)
  refine ⟨?_,ordered.config,nodup_put ordered.named.keys,?_,?_⟩
  · exact congrArg (fun m => put m nodeID b.tree.size) ordered.same
  · intro id ref member
    unfold CoherenceTree.idOf CoherenceTreeBuilder.addDirectory CoherenceTreeBuilder.setNode
    dsimp only
    rcases entries member with old | new
    · rw [Function.update_of_ne (Nat.ne_of_lt (ordered.named.inUse old))]
      exact ordered.named.named old
    · cases new
      rw [Function.update_self]
  · intro id ref member
    rcases entries member with old | new
    · exact Nat.lt_succ_of_lt (ordered.named.inUse old)
    · cases new
      exact Nat.lt_succ_self _

theorem Ordered.step {b b' : CoherenceTreeBuilder} {op : Op} (ordered : b.Ordered) (stepped : b.step op = some b') :
    b'.Ordered := by
  cases op with
  | addDirectory nodeID domain =>
    cases stepped
    exact ordered.addDirectory nodeID domain
  | setParent childID parentID =>
    simp only [CoherenceTreeBuilder.step,CoherenceTreeBuilder.setParent] at stepped
    split at stepped
    · cases stepped
      refine Ordered.setNode (Ordered.setNode ordered ?_) ?_
      · rfl
      · rfl
    · cases stepped
  | setRoot rootID =>
    obtain ⟨root,_,rfl⟩ := Option.map_eq_some_iff.mp stepped
    exact ⟨ordered.same,ordered.config,ordered.named.keys,ordered.named.named,ordered.named.inUse⟩

theorem ordered_of_reachable {config : AddressMappingConfig} {b : CoherenceTreeBuilder}
    (reach : Reachable step (newCoherenceTreeBuilder config) b) : b.Ordered := by
  refine reach.invariant ⟨rfl,rfl,List.nodup_nil,?_,?_⟩ fun _ ordered _ stepped => ordered.step stepped
  · rintro id ref ⟨⟩
  · rintro id ref ⟨⟩

end CoherenceTreeBuilder

/-! ### Domains -/

theorem checkDomains_ok : ∀ {members allNodes : List (Int × Int)}, CoherenceTree.checkDomains allNodes members = .ok () →
    (members.map Prod.fst).Nodup ∧ ∀ member ∈ members, find allNodes member.1 = none
  | [], _, _ => ⟨List.nodup_nil,fun _ member => absurd member List.not_mem_nil⟩
  | (nodeID,dirID) :: rest, allNodes, ok => by
    rw [CoherenceTree.checkDomains] at ok
    split at ok
    · cases ok
    · next fresh =>
      obtain ⟨distinct,others⟩ := checkDomains_ok ok
      have before : ∀ member ∈ rest, member.1 ≠ nodeID ∧ find allNodes member.1 = none := by
        intro member later
        have absent := find_eq_none.mp (others member later)
        refine ⟨?_,find_eq_none.mpr ?_⟩
        · exact (absent (nodeID,dirID) (List.mem_append_right _ (List.mem_singleton_self _))).symm
        · intro entry old same
          by_cases here : entry.1 = nodeID
          · exact absent (nodeID,dirID) (List.mem_append_right _ (List.mem_singleton_self _)) (here.symm.trans same)
          · exact absent entry (List.mem_append_left _ (List.mem_filter.mpr ⟨old,decide_eq_true here⟩)) same
      refine ⟨List.nodup_cons.mpr ⟨?_,distinct⟩,?_⟩
      · intro again
        obtain ⟨member,later,same⟩ := List.mem_map.mp again
        exact (before member later).1 same
      · intro member listed
        rcases List.mem_cons.mp listed with rfl | later
        · exact fresh
        · exact (before member later).2

namespace CoherenceTree
variable {t : CoherenceTree}

/-- No node is in two domains, or twice in one. -/
theorem nodup_of_validate (valid : t.validate = .ok ()) : (t.members.map Prod.fst).Nodup := by
  unfold validate at valid
  rcases checked : checkDomains [] t.members with err | _
  · rw [checked] at valid
    cases valid
  · exact (checkDomains_ok checked).1

theorem mem_members {nodeID dirID : Int} :
    (nodeID,dirID) ∈ t.members ↔ ∃ ref, (dirID,ref) ∈ t.directoryNodes ∧ nodeID ∈ (t.node ref).domain := by
  unfold members
  constructor
  · intro member
    obtain ⟨⟨id,ref⟩,isDirectory,listed⟩ := List.mem_flatMap.mp member
    obtain ⟨_,inDomain,same⟩ := List.mem_map.mp listed
    cases same
    exact ⟨ref,isDirectory,inDomain⟩
  · rintro ⟨ref,isDirectory,inDomain⟩
    exact List.mem_flatMap.mpr ⟨(dirID,ref),isDirectory,List.mem_map.mpr ⟨nodeID,inDomain,rfl⟩⟩

end CoherenceTree

/-- What the builder gives out is named, has a granularity, and has no node in two domains. -/
theorem CoherenceTreeBuilder.Ordered.build {b : CoherenceTreeBuilder} (ordered : b.Ordered) {t : CoherenceTree}
    (built : b.build = .ok t) :
    t.Named ∧ (t.members.map Prod.fst).Nodup ∧ t.addressMappingConfig.granularity ≠ 0 := by
  have found : ∀ {tree}, b.findRoot = .ok tree → tree.Named ∧ tree.addressMappingConfig = b.config := by
    intro tree found
    unfold CoherenceTreeBuilder.findRoot at found
    split at found
    · cases found
      exact ⟨ordered.named,ordered.config⟩
    · split at found
      · cases found
      · cases found
        exact ⟨⟨ordered.named.keys,ordered.named.named,ordered.named.inUse⟩,ordered.config⟩
      · cases found
        exact ⟨ordered.named,ordered.config⟩
  unfold CoherenceTreeBuilder.build at built
  split at built
  · cases built
  next tree rooted =>
  split at built
  · cases built
  next valid =>
  split at built
  · cases built
  next granular =>
  cases built
  obtain ⟨named,config⟩ := found rooted
  refine ⟨named,CoherenceTree.nodup_of_validate valid,?_⟩
  intro zero
  rw [AddressMappingConfig.validate,← config,if_pos zero] at granular
  cases granular

/-! ### Trees with one root -/

namespace CoherenceTree

def IsDirectory (t : CoherenceTree) (ref : NodeRef) : Prop := ∃ id, (id,ref) ∈ t.directoryNodes

/-- Parents and children agree, and all directories lead up to the root. -/
structure SingleRooted (t : CoherenceTree) (root : NodeRef) : Prop where
  isRoot : t.root = some root
  directory : t.IsDirectory root
  top : t.parentOf root = none
  parents : ∀ {node parent}, t.IsDirectory node → t.parentOf node = some parent →
    t.IsDirectory parent ∧ node ∈ (t.node parent).children
  children : ∀ {node child}, t.IsDirectory node → child ∈ (t.node node).children →
    t.IsDirectory child ∧ t.parentOf child = some node
  rooted : ∀ {node}, t.IsDirectory node → Climbs t.parentOf node root

variable {t : CoherenceTree} {root node : NodeRef}

theorem SingleRooted.above (single : t.SingleRooted root) {other : NodeRef} (directory : t.IsDirectory node)
    (climbs : Climbs t.parentOf node other) : t.IsDirectory other := by
  induction climbs with
  | refl => exact directory
  | tail _ above ih => exact (single.parents ih above).1

/-- The ancestors of a directory are the whole way up to the root. -/
theorem SingleRooted.ladder (single : t.SingleRooted root) (named : t.Named) (directory : t.IsDirectory node) :
    ∃ l, Ladder t.parentOf node l ∧ l.length ≤ t.size ∧ t.ancestors node = l := by
  obtain ⟨l,ladder⟩ := (single.rooted directory).ladder single.top
  have within : ∀ ref ∈ l, ref < t.size := by
    intro ref member
    obtain ⟨_,inMap⟩ := single.above directory (ladder.mem_iff.mp member)
    exact named.inUse inMap
  exact ⟨l,ladder,ladder.length_le within,ladder.climb_eq (ladder.length_le within)⟩

/-- A directory without a parent is the root. -/
theorem SingleRooted.eq_root (single : t.SingleRooted root) (directory : t.IsDirectory node) (top : t.parentOf node = none) :
    node = root := by
  rcases (single.rooted directory).cases_head with same | ⟨_,above,_⟩
  · exact same
  · cases top.symm.trans above

end CoherenceTree
end FlowSim.Coherence
