import FlowSim.Coherence.Analyzer
import FlowSim.Coherence.Interleaving

/-!
What the analyzer infers. A directory's parent is the first one, in the order after the sort,
that is higher and connected. So the tree is given by links between ids (`Hangs`); it is a
forest, and passes the validation.
-/
namespace FlowSim.Coherence
open FlowSim.Lib
set_option linter.unusedSimpArgs false

namespace CoherenceTree
variable {t : CoherenceTree} {child parent ref : NodeRef} {links : List (Int × Int)}

/-- The tree's directories hang together by the links from a child to its parent. -/
structure Hangs (links : List (Int × Int)) (t : CoherenceTree) : Prop where
  named : t.Named
  full : t.size = t.directoryNodes.length
  parents : ∀ {id ref}, (id,ref) ∈ t.directoryNodes → (t.parentOf ref).map t.idOf = find links id
  parentDirs : ∀ {node parent}, t.IsDirectory node → t.parentOf node = some parent → t.IsDirectory parent
  children : ∀ {id ref}, (id,ref) ∈ t.directoryNodes →
    (t.node ref).children.map t.idOf = (links.filter fun link => link.2 = id).map Prod.fst
  childDirs : ∀ {node child}, t.IsDirectory node → child ∈ (t.node node).children → t.IsDirectory child
  unranged : t.Unranged
  single : (links.map Prod.fst).Nodup

/-! ### Links -/

theorem adopt_node (t : CoherenceTree) (child parent ref : NodeRef) : (t.adopt child parent).node ref =
    { t.node ref with
      parent := if ref = child then some parent else (t.node ref).parent
      children := if ref = parent then (t.node ref).children ++ [child] else (t.node ref).children } := by
  simp only [adopt,setNode,Function.update_apply]
  split_ifs <;> simp_all

theorem adopt_idOf (t : CoherenceTree) (child parent : NodeRef) : (t.adopt child parent).idOf = t.idOf := by
  funext ref
  rw [idOf,adopt_node]
  rfl

theorem find_append {α : Type} (m m' : List (Int × α)) (key : Int) : find (m ++ m') key = (find m key).or (find m' key) := by
  unfold find
  rw [List.find?_append]
  cases m.find? fun entry => decide (entry.1 = key) <;> simp

/-- A directory that has no parent yet can be given one. -/
theorem Hangs.adopt (hangs : t.Hangs links) {childID parentID : Int} (isChild : (childID,child) ∈ t.directoryNodes)
    (isParent : (parentID,parent) ∈ t.directoryNodes) (alone : find links childID = none) :
    (t.adopt child parent).Hangs (links ++ [(childID,parentID)]) := by
  have named : (t.adopt child parent).Named := by
    refine ⟨hangs.named.keys,fun member => ?_,hangs.named.inUse⟩
    rw [adopt_idOf]
    exact hangs.named.named member
  refine ⟨named,hangs.full,?_,?_,?_,?_,?_,?_⟩
  · intro id ref member
    rw [adopt_idOf,parentOf,adopt_node,find_append]
    by_cases here : ref = child
    · subst here
      have same : childID = id := (hangs.named.named isChild).symm.trans (hangs.named.named member)
      rw [if_pos rfl,← same,alone,Option.map_some,hangs.named.named isParent]
      simp [find]
    · have apart : childID ≠ id := by
        rintro rfl
        exact here (value_unique hangs.named.keys member isChild)
      rw [if_neg here,← hangs.parents member]
      simp [find,apart,parentOf]
  · intro node above directory has
    rw [parentOf,adopt_node] at has
    by_cases here : node = child
    · rw [if_pos here] at has
      obtain rfl := Option.some.inj has
      exact ⟨parentID,isParent⟩
    · rw [if_neg here] at has
      exact hangs.parentDirs directory has
  · intro id ref member
    rw [adopt_idOf,adopt_node,List.filter_append,List.map_append,← hangs.children member]
    by_cases here : ref = parent
    · subst here
      have same : parentID = id := (hangs.named.named isParent).symm.trans (hangs.named.named member)
      simp [same,hangs.named.named isChild]
    · have apart : parentID ≠ id := by
        rintro rfl
        exact here (value_unique hangs.named.keys member isParent)
      simp [here,apart]
  · intro node below directory member
    rw [adopt_node] at member
    by_cases here : node = parent
    · rw [if_pos here] at member
      rcases List.mem_append.mp member with old | new
      · exact hangs.childDirs directory old
      · obtain rfl := List.mem_singleton.mp new
        exact ⟨childID,isChild⟩
    · rw [if_neg here] at member
      exact hangs.childDirs directory member
  · intro node directory
    rw [adopt_node]
    exact hangs.unranged directory
  · rw [List.map_append,List.nodup_append]
    refine ⟨hangs.single,List.nodup_singleton _,?_⟩
    rintro id listed _ new rfl
    obtain ⟨link,isLink,same⟩ := List.mem_map.mp listed
    exact find_eq_none.mp alone link isLink (same.trans (List.mem_singleton.mp new))

/-- The trees have the same directories, but for their parents and children. -/
structure SameDirectories (t t' : CoherenceTree) : Prop where
  directoryNodes : t'.directoryNodes = t.directoryNodes
  root : t'.root = t.root
  config : t'.addressMappingConfig = t.addressMappingConfig
  domains : ∀ ref, (t'.node ref).domain = (t.node ref).domain

theorem SameDirectories.refl (t : CoherenceTree) : t.SameDirectories t := ⟨rfl,rfl,rfl,fun _ => rfl⟩

theorem SameDirectories.trans {t' t'' : CoherenceTree} (first : t.SameDirectories t') (second : t'.SameDirectories t'') :
    t.SameDirectories t'' :=
  ⟨second.directoryNodes.trans first.directoryNodes,second.root.trans first.root,second.config.trans first.config,
    fun ref => (second.domains ref).trans (first.domains ref)⟩

theorem sameDirectories_adopt (t : CoherenceTree) (child parent : NodeRef) : t.SameDirectories (t.adopt child parent) :=
  ⟨rfl,rfl,rfl,fun ref => by rw [adopt_node]⟩

end CoherenceTree

/-! ### Parents -/

section
variable (topology : Topology)

/-- What the analyzer knows of a directory. -/
def Topology.info (id : Int) : DirInfo := ⟨id,topology.dirLevel id⟩

/-- The second directory is higher, and connected. -/
def Topology.higher (id other : Int) : Bool := decide (topology.dirLevel id < topology.dirLevel other ∧ topology.isConnected id other)

/-- A search from a node finds something just if it can be reached. -/
theorem Topology.search_isSome_iff (goal : Int → Bool) (start : Int) :
    (search topology.neighbors goal topology.searchFuel [start] [start]).isSome ↔
      ∃ nodeID, goal nodeID = true ∧ Leads topology.neighbors start nodeID := by
  have inside : ∀ nodeID, ∀ other ∈ topology.neighbors nodeID, other ∈ (topology.connections.flatMap Prod.snd).toFinset := by
    intro nodeID other isNext
    unfold neighbors at isNext
    cases found : find topology.connections nodeID with
    | none =>
      rw [found] at isNext
      cases isNext
    | some others =>
      rw [found] at isNext
      exact List.mem_toFinset.mpr (List.mem_flatMap.mpr ⟨_,mem_of_find found,isNext⟩)
  have few := List.toFinset_card_le (topology.connections.flatMap Prod.snd)
  exact FlowSim.Lib.search_isSome_iff inside (by unfold searchFuel; omega) start

/-- A directory is higher when it has a higher level and can be reached. -/
theorem Topology.higher_iff {id other : Int} : topology.higher id other = true ↔
    topology.dirLevel id < topology.dirLevel other ∧ Leads topology.neighbors id other := by
  rw [higher,decide_eq_true_iff,isConnected,topology.search_isSome_iff]
  simp

/-- The links that are inferred when the directories are in this order. -/
def Topology.links : List Int → List (Int × Int)
  | [] => []
  | id :: rest => ((rest.find? (topology.higher id)).map (id,·)).toList ++ Topology.links rest

/-- The node has no directory. -/
def Topology.Plain (nodeID : Int) : Prop := ∃ capability, find topology.nodes nodeID = some capability ∧ capability.hasDirectory = false

variable {topology} {t : CoherenceTree} {links : List (Int × Int)} {child : NodeRef} {id : Int}
open CoherenceTree

theorem considerParent_of_not_higher {other : Int} (lower : topology.higher id other = false) :
    considerParent topology (topology.info id) t (topology.info other) = t :=
  if_neg (of_decide_eq_false lower)

/-- A parent is kept where the other directory is not nearer. -/
theorem considerParent_of_parent (named : t.Named) (isChild : (id,child) ∈ t.directoryNodes) {existing : NodeRef}
    (has : t.parentOf child = some existing) {other : Int}
    (not_nearer : topology.getNodeLevel (t.idOf existing) ≤ topology.dirLevel other) :
    considerParent topology (topology.info id) t (topology.info other) = t := by
  unfold considerParent
  split_ifs
  · rw [show find t.directoryNodes (topology.info id).nodeID = some child from find_of_mem named.keys isChild]
    cases find t.directoryNodes (topology.info other).nodeID with
    | none => rfl
    | some parent =>
      dsimp only
      rw [has]
      exact if_neg (not_lt.mpr not_nearer)
  · rfl

theorem foldl_fixed {α β : Type} {f : β → α → β} {b : β} : ∀ {l : List α}, (∀ a ∈ l, f b a = b) → l.foldl f b = b
  | [], _ => rfl
  | a :: l, fixed => by
    rw [List.foldl_cons,fixed a List.mem_cons_self]
    exact foldl_fixed fun a member => fixed a (List.mem_cons_of_mem _ member)

/-- Of the directories that come later, the first one that is higher becomes the parent. -/
theorem foldl_considerParent (hangs : t.Hangs links) (isChild : (id,child) ∈ t.directoryNodes) (alone : find links id = none)
    {rest : List Int} (present : ∀ other ∈ rest, ∃ ref, (other,ref) ∈ t.directoryNodes)
    (ascending : rest.Pairwise fun a b => topology.dirLevel a ≤ topology.dirLevel b)
    (levels : ∀ other ∈ rest, topology.getNodeLevel other = topology.dirLevel other) :
    ((rest.map topology.info).foldl (considerParent topology (topology.info id)) t).Hangs
        (links ++ ((rest.find? (topology.higher id)).map (id,·)).toList) ∧
      t.SameDirectories ((rest.map topology.info).foldl (considerParent topology (topology.info id)) t) := by
  cases found : rest.find? (topology.higher id) with
  | none =>
    have lower := List.find?_eq_none.mp found
    have fixed : (rest.map topology.info).foldl (considerParent topology (topology.info id)) t = t := by
      refine foldl_fixed fun other member => ?_
      obtain ⟨otherID,listed,rfl⟩ := List.mem_map.mp member
      exact considerParent_of_not_higher (by simpa using lower otherID listed)
    rw [fixed,Option.map_none,Option.toList_none,List.append_nil]
    exact ⟨hangs,.refl t⟩
  | some other =>
    obtain ⟨higher,before,after,rfl,lower⟩ := List.find?_eq_some_iff_append.mp found
    obtain ⟨parent,isParent⟩ := present other (List.mem_append_right _ List.mem_cons_self)
    have above : t.parentOf child = none := by
      have none_linked := hangs.parents isChild
      rw [alone] at none_linked
      exact Option.map_eq_none_iff.mp none_linked
    have skipped : (before.map topology.info).foldl (considerParent topology (topology.info id)) t = t := by
      refine foldl_fixed fun other member => ?_
      obtain ⟨otherID,listed,rfl⟩ := List.mem_map.mp member
      exact considerParent_of_not_higher (by simpa using lower otherID listed)
    have adopted : considerParent topology (topology.info id) t (topology.info other) = t.adopt child parent := by
      have nearer : (topology.info id).level < (topology.info other).level ∧
          topology.isConnected (topology.info id).nodeID (topology.info other).nodeID = true := of_decide_eq_true higher
      unfold considerParent
      rw [if_pos nearer,
        show find t.directoryNodes (topology.info id).nodeID = some child from find_of_mem hangs.named.keys isChild,
        show find t.directoryNodes (topology.info other).nodeID = some parent from find_of_mem hangs.named.keys isParent]
      dsimp only
      rw [above]
    have now := hangs.adopt isChild isParent alone
    have kept : (after.map topology.info).foldl (considerParent topology (topology.info id)) (t.adopt child parent) =
        t.adopt child parent := by
      refine foldl_fixed fun later member => ?_
      obtain ⟨laterID,listed,rfl⟩ := List.mem_map.mp member
      have has : (t.adopt child parent).parentOf child = some parent := by
        rw [parentOf,adopt_node]
        exact if_pos rfl
      refine considerParent_of_parent now.named isChild has ?_
      rw [adopt_idOf,hangs.named.named isParent,levels other (List.mem_append_right _ List.mem_cons_self)]
      exact (List.pairwise_cons.mp (List.pairwise_append.mp ascending).2.1).1 laterID listed
    rw [List.map_append,List.map_cons,List.foldl_append,List.foldl_cons,skipped,adopted,kept]
    exact ⟨now,sameDirectories_adopt t child parent⟩

variable (topology) in
/-- The tree hangs together by the links of the order after the sort. -/
theorem inferParents_hangs : ∀ {ids : List Int} {t : CoherenceTree} {links : List (Int × Int)}, t.Hangs links →
    (∀ id ∈ ids, ∃ ref, (id,ref) ∈ t.directoryNodes) → (∀ id ∈ ids, find links id = none) → ids.Nodup →
    ids.Pairwise (fun a b => topology.dirLevel a ≤ topology.dirLevel b) →
    (∀ id ∈ ids, topology.getNodeLevel id = topology.dirLevel id) →
    (inferParents topology (ids.map topology.info) t).Hangs (links ++ topology.links ids) ∧
      t.SameDirectories (inferParents topology (ids.map topology.info) t)
  | [], t, links, hangs, _, _, _, _, _ => by
    rw [Topology.links,List.append_nil]
    exact ⟨hangs,.refl t⟩
  | id :: rest, t, links, hangs, present, alone, distinct, ascending, levels => by
    obtain ⟨child,isChild⟩ := present id List.mem_cons_self
    obtain ⟨fresh,distinct⟩ := List.nodup_cons.mp distinct
    have later := fun other (member : other ∈ rest) => List.mem_cons_of_mem id member
    obtain ⟨now,same⟩ := foldl_considerParent hangs isChild (alone id List.mem_cons_self)
      (fun other member => present other (later other member)) (List.pairwise_cons.mp ascending).2
      fun other member => levels other (later other member)
    have unlinked : ∀ other ∈ rest, find (links ++ ((rest.find? (topology.higher id)).map (id,·)).toList) other = none := by
      intro other member
      rw [find_append,alone other (later other member),Option.none_or]
      refine find_eq_none.mpr fun link isLink => ?_
      obtain ⟨parent,-,rfl⟩ := Option.map_eq_some_iff.mp (Option.mem_toList.mp isLink)
      rintro rfl
      exact fresh member
    have present' : ∀ other ∈ rest, ∃ ref,
        (other,ref) ∈ ((rest.map topology.info).foldl (considerParent topology (topology.info id)) t).directoryNodes := by
      intro other member
      rw [same.directoryNodes]
      exact present other (later other member)
    obtain ⟨hangs',same'⟩ := inferParents_hangs now present' unlinked distinct (List.pairwise_cons.mp ascending).2
      fun other member => levels other (later other member)
    rw [Topology.links,← List.append_assoc]
    exact ⟨hangs',same.trans same'⟩

/-! ### Links by ids -/

theorem find_links_of_not_mem : ∀ {ids : List Int}, id ∉ ids → find (topology.links ids) id = none
  | [], _ => rfl
  | other :: rest, absent => by
    rw [Topology.links,find_append,find_links_of_not_mem fun member => absent (List.mem_cons_of_mem _ member),Option.or_none]
    refine find_eq_none.mpr fun link isLink => ?_
    obtain ⟨parent,-,rfl⟩ := Option.map_eq_some_iff.mp (Option.mem_toList.mp isLink)
    rintro rfl
    exact absent List.mem_cons_self

/-- The parent of a directory is the first one that is higher, in the order after the sort. -/
theorem find_links : ∀ {ids : List Int}, ids.Nodup → ids.Pairwise (fun a b => topology.dirLevel a ≤ topology.dirLevel b) →
    id ∈ ids → find (topology.links ids) id = ids.find? (topology.higher id)
  | other :: rest, distinct, ascending, member => by
    obtain ⟨fresh,distinct⟩ := List.nodup_cons.mp distinct
    obtain ⟨lowest,ascending⟩ := List.pairwise_cons.mp ascending
    rw [Topology.links,find_append]
    by_cases here : id = other
    · subst here
      have not_higher : topology.higher id id = false := decide_eq_false fun both => lt_irrefl _ both.1
      rw [find_links_of_not_mem fresh,List.find?_cons_of_neg (by simp [not_higher])]
      cases rest.find? (topology.higher id) <;> simp [find]
    · have later := (List.mem_cons.mp member).resolve_left here
      have not_higher : topology.higher id other = false := decide_eq_false fun both => not_lt.mpr (lowest id later) both.1
      have unlinked : find ((rest.find? (topology.higher other)).map (other,·)).toList id = none := by
        refine find_eq_none.mpr fun link isLink => ?_
        obtain ⟨parent,-,rfl⟩ := Option.map_eq_some_iff.mp (Option.mem_toList.mp isLink)
        exact Ne.symm here
      rw [unlinked,Option.none_or,find_links distinct ascending later,List.find?_cons_of_neg (by simp [not_higher])]

theorem higher_of_links : ∀ {ids : List Int} {link : Int × Int}, link ∈ topology.links ids →
    link.1 ∈ ids ∧ link.2 ∈ ids ∧ topology.higher link.1 link.2 = true
  | id :: rest, link, isLink => by
    rw [Topology.links] at isLink
    rcases List.mem_append.mp isLink with new | later
    · obtain ⟨parent,found,rfl⟩ := Option.map_eq_some_iff.mp (Option.mem_toList.mp new)
      exact ⟨List.mem_cons_self,List.mem_cons_of_mem _ (List.mem_of_find?_eq_some found),List.find?_some found⟩
    · obtain ⟨child,parent,higher⟩ := higher_of_links later
      exact ⟨List.mem_cons_of_mem _ child,List.mem_cons_of_mem _ parent,higher⟩

/-! ### A forest -/

namespace CoherenceTree

theorem Hangs.mem_links (hangs : t.Hangs links) {parent : Int} : find links id = some parent ↔ (id,parent) ∈ links :=
  ⟨mem_of_find,find_of_mem hangs.single⟩

variable (topology) in
/-- Where links lead to higher directories, what hangs together by them is a forest. -/
theorem Hangs.forest (hangs : t.Hangs links) (ascends : ∀ link ∈ links, topology.dirLevel link.1 < topology.dirLevel link.2)
    (top : ∀ {root}, t.root = some root → t.IsDirectory root ∧ t.parentOf root = none) : t.Forest := by
  have linked : ∀ {node parent}, t.IsDirectory node → t.parentOf node = some parent →
      t.IsDirectory parent ∧ (t.idOf node,t.idOf parent) ∈ links := by
    intro node parent directory above
    refine ⟨hangs.parentDirs directory above,hangs.mem_links.mp ?_⟩
    obtain ⟨id,member⟩ := directory
    rw [hangs.named.named member,← hangs.parents member,above]
    rfl
  refine ⟨?_,?_,?_,?_,top⟩
  · intro node parent directory above
    obtain ⟨isParent,isLink⟩ := linked directory above
    refine ⟨isParent,?_⟩
    obtain ⟨parentID,member⟩ := isParent
    have listed : t.idOf node ∈ (t.node parent).children.map t.idOf := by
      rw [hangs.children member,List.mem_map]
      exact ⟨_,List.mem_filter.mpr ⟨isLink,decide_eq_true (hangs.named.named member)⟩,rfl⟩
    obtain ⟨child,isChild,same⟩ := List.mem_map.mp listed
    rw [← hangs.named.eq_of_id (hangs.childDirs ⟨parentID,member⟩ isChild) directory same]
    exact isChild
  · intro node child directory isChild
    have isDirectory := hangs.childDirs directory isChild
    refine ⟨isDirectory,?_⟩
    obtain ⟨id,member⟩ := id directory
    have listed := List.mem_map_of_mem (f := t.idOf) isChild
    rw [hangs.children member] at listed
    obtain ⟨link,isLink,same⟩ := List.mem_map.mp listed
    obtain ⟨isLink,isNode⟩ := List.mem_filter.mp isLink
    obtain ⟨childID,member'⟩ := isDirectory
    have found : find links childID = some id := by
      rw [hangs.named.named member'] at same
      refine hangs.mem_links.mpr ?_
      rw [← same,← of_decide_eq_true isNode]
      exact isLink
    rw [← hangs.parents member'] at found
    obtain ⟨parent,above,same⟩ := Option.map_eq_some_iff.mp found
    rw [above,hangs.named.eq_of_id (hangs.parentDirs ⟨childID,member'⟩ above) directory
      (same.trans (hangs.named.named member).symm)]
  · intro node directory
    obtain ⟨id,member⟩ := directory
    refine List.Nodup.of_map t.idOf ?_
    rw [hangs.children member]
    exact hangs.single.sublist (List.filter_sublist.map _)
  · intro node directory
    refine exists_ladder (fun node => ((t.directoryNodes.map Prod.fst).toFinset.filter
      fun id => topology.dirLevel (t.idOf node) < topology.dirLevel id).card) ?_ directory
    intro node parent directory above
    obtain ⟨isParent,isLink⟩ := linked directory above
    have higher := ascends _ isLink
    refine ⟨isParent,Finset.card_lt_card ?_⟩
    refine Finset.ssubset_iff_of_subset (fun id member => ?_) |>.mpr ⟨t.idOf parent,?_,?_⟩
    · obtain ⟨isID,above'⟩ := Finset.mem_filter.mp member
      exact Finset.mem_filter.mpr ⟨isID,higher.trans above'⟩
    · obtain ⟨parentID,member⟩ := isParent
      rw [hangs.named.named member] at higher ⊢
      exact Finset.mem_filter.mpr ⟨List.mem_toFinset.mpr (List.mem_map.mpr ⟨_,member,rfl⟩),higher⟩
    · intro member
      exact lt_irrefl _ (Finset.mem_filter.mp member).2

end CoherenceTree

/-! ### The tree at first -/

/-- The tree has these directories, with nothing in them. -/
structure CoherenceTree.Blank (ids : List Int) (config : AddressMappingConfig) (t : CoherenceTree) : Prop where
  hangs : t.Hangs []
  keys : t.directoryNodes.map Prod.fst = ids
  domains : ∀ {ref}, t.IsDirectory ref → (t.node ref).domain = []
  root : t.root = none
  config : t.addressMappingConfig = config

namespace CoherenceTree

theorem Blank.addNode {ids : List Int} {config : AddressMappingConfig} (blank : t.Blank ids config) (fresh : id ∉ ids) :
    (t.addNode id).Blank (ids ++ [id]) config := by
  have entries : (t.addNode id).directoryNodes = t.directoryNodes ++ [(id,t.size)] := by
    have others : t.directoryNodes.filter (fun entry => entry.1 ≠ id) = t.directoryNodes := by
      refine List.filter_eq_self.mpr fun entry member => decide_eq_true ?_
      rintro rfl
      exact fresh (blank.keys ▸ List.mem_map_of_mem member)
    show put t.directoryNodes id t.size = _
    rw [put,others]
  have old : ∀ {ref}, t.IsDirectory ref → (t.addNode id).node ref = t.node ref := by
    rintro ref ⟨key,member⟩
    exact Function.update_of_ne (Nat.ne_of_lt (blank.hangs.named.inUse member)) ..
  have new : (t.addNode id).node t.size =
      { nodeID := id, domain := [], children := [], parent := none, addressResponsibility := none } := Function.update_self ..
  have cases_of : ∀ {key ref}, (key,ref) ∈ (t.addNode id).directoryNodes →
      (key,ref) ∈ t.directoryNodes ∨ key = id ∧ ref = t.size := by
    intro key ref member
    rw [entries] at member
    rcases List.mem_append.mp member with before | last
    · exact .inl before
    · cases List.mem_singleton.mp last
      exact .inr ⟨rfl,rfl⟩
  have empty : ∀ {ref}, (t.addNode id).IsDirectory ref → (t.addNode id).parentOf ref = none ∧
      ((t.addNode id).node ref).children = [] ∧ ((t.addNode id).node ref).domain = [] ∧
      ((t.addNode id).node ref).addressResponsibility = none := by
    rintro ref ⟨key,member⟩
    rcases cases_of member with before | ⟨rfl,rfl⟩
    · have directory : t.IsDirectory ref := ⟨key,before⟩
      rw [parentOf,old directory]
      refine ⟨Option.map_eq_none_iff.mp (blank.hangs.parents before),?_,blank.domains directory,
        blank.hangs.unranged directory⟩
      exact List.map_eq_nil_iff.mp (blank.hangs.children before)
    · rw [parentOf,new]
      exact ⟨rfl,rfl,rfl,rfl⟩
  refine ⟨⟨⟨?_,?_,?_⟩,?_,?_,?_,?_,?_,?_,List.nodup_nil⟩,?_,fun directory => (empty directory).2.2.1,blank.root,blank.config⟩
  · rw [entries,List.map_append,blank.keys,List.nodup_append]
    refine ⟨blank.keys ▸ blank.hangs.named.keys,List.nodup_singleton _,?_⟩
    rintro key listed _ last rfl
    have same : key = id := List.mem_singleton.mp last
    exact fresh (same ▸ listed)
  · intro key ref member
    rcases cases_of member with before | ⟨rfl,rfl⟩
    · rw [idOf,old ⟨key,before⟩]
      exact blank.hangs.named.named before
    · rw [idOf,new]
  · intro key ref member
    rcases cases_of member with before | ⟨rfl,rfl⟩
    · exact Nat.lt_succ_of_lt (blank.hangs.named.inUse before)
    · exact Nat.lt_succ_self _
  · rw [entries,List.length_append,← blank.hangs.full]
    rfl
  · intro key ref member
    rw [(empty ⟨key,member⟩).1]
    rfl
  · intro node parent directory above
    cases (empty directory).1.symm.trans above
  · intro key ref member
    rw [(empty ⟨key,member⟩).2.1]
    rfl
  · intro node child directory member
    rw [(empty directory).2.1] at member
    cases member
  · intro node directory
    exact (empty directory).2.2.2
  · rw [entries,List.map_append,blank.keys]
    rfl

theorem Blank.addNodes {config : AddressMappingConfig} : ∀ (more : List Int) {ids : List Int} {t : CoherenceTree},
    t.Blank ids config → (ids ++ more).Nodup → (more.foldl CoherenceTree.addNode t).Blank (ids ++ more) config
  | [], ids, t, blank, _ => (List.append_nil ids).symm ▸ blank
  | id :: more, ids, t, blank, distinct => by
    have fresh : id ∉ ids := fun known => List.disjoint_of_nodup_append distinct known List.mem_cons_self
    rw [List.append_cons] at distinct ⊢
    exact (blank.addNode fresh).addNodes more distinct

/-! ### Domains -/

/-- The trees differ in the domains only. -/
structure SameLinks (t t' : CoherenceTree) : Prop where
  directoryNodes : t'.directoryNodes = t.directoryNodes
  size : t'.size = t.size
  root : t'.root = t.root
  config : t'.addressMappingConfig = t.addressMappingConfig
  nodes : ∀ ref, t'.node ref = { t.node ref with domain := (t'.node ref).domain }

theorem SameLinks.refl (t : CoherenceTree) : t.SameLinks t := ⟨rfl,rfl,rfl,rfl,fun _ => rfl⟩

theorem SameLinks.trans {t' t'' : CoherenceTree} (first : t.SameLinks t') (second : t'.SameLinks t'') : t.SameLinks t'' :=
  ⟨second.directoryNodes.trans first.directoryNodes,second.size.trans first.size,second.root.trans first.root,
    second.config.trans first.config,fun ref => by rw [second.nodes ref,first.nodes ref]⟩

theorem SameLinks.idOf {t' : CoherenceTree} (same : t.SameLinks t') : t'.idOf = t.idOf := by
  funext ref
  rw [CoherenceTree.idOf,same.nodes]
  rfl

theorem SameLinks.isDirectory {t' : CoherenceTree} (same : t.SameLinks t') : t'.IsDirectory ref ↔ t.IsDirectory ref := by
  rw [IsDirectory,same.directoryNodes]
  rfl

theorem SameLinks.hangs {t' : CoherenceTree} (same : t.SameLinks t') (hangs : t.Hangs links) : t'.Hangs links := by
  have ids := same.idOf
  have directory : ∀ {ref}, t'.IsDirectory ref ↔ t.IsDirectory ref := same.isDirectory
  have parents : t'.parentOf = t.parentOf := by
    funext ref
    rw [parentOf,same.nodes]
    rfl
  have children : ∀ ref, (t'.node ref).children = (t.node ref).children := fun ref => by rw [same.nodes]
  refine ⟨⟨?_,?_,?_⟩,?_,?_,?_,?_,?_,?_,hangs.single⟩
  · rw [same.directoryNodes]
    exact hangs.named.keys
  · rw [same.directoryNodes,ids]
    exact hangs.named.named
  · rw [same.directoryNodes,same.size]
    exact hangs.named.inUse
  · rw [same.size,same.directoryNodes]
    exact hangs.full
  · rw [same.directoryNodes,parents,ids]
    exact hangs.parents
  · intro node parent isNode above
    rw [parents] at above
    exact directory.mpr (hangs.parentDirs (directory.mp isNode) above)
  · intro id ref member
    rw [same.directoryNodes] at member
    rw [children,ids]
    exact hangs.children member
  · intro node child isNode member
    rw [children] at member
    exact directory.mpr (hangs.childDirs (directory.mp isNode) member)
  · intro node isNode
    rw [same.nodes]
    exact hangs.unranged (directory.mp isNode)

theorem addMember_node (t : CoherenceTree) (dirID nodeID : Int) (ref : NodeRef) : (t.addMember dirID nodeID).node ref =
    { t.node ref with
      domain := if find t.directoryNodes dirID = some ref then (t.node ref).domain ++ [nodeID] else (t.node ref).domain } := by
  unfold addMember
  cases find t.directoryNodes dirID with
  | none => rfl
  | some dir =>
    dsimp only
    rw [setNode]
    dsimp only
    by_cases here : ref = dir
    · subst here
      rw [Function.update_self,if_pos rfl]
    · rw [Function.update_of_ne here,if_neg fun same => here (Option.some.inj same).symm]

theorem sameLinks_addMember (t : CoherenceTree) (dirID nodeID : Int) : t.SameLinks (t.addMember dirID nodeID) := by
  have frame : (t.addMember dirID nodeID).directoryNodes = t.directoryNodes ∧ (t.addMember dirID nodeID).size = t.size ∧
      (t.addMember dirID nodeID).root = t.root ∧ (t.addMember dirID nodeID).addressMappingConfig = t.addressMappingConfig := by
    unfold addMember
    split <;> exact ⟨rfl,rfl,rfl,rfl⟩
  exact ⟨frame.1,frame.2.1,frame.2.2.1,frame.2.2.2,fun ref => by rw [addMember_node]⟩

/-- The nodes that were assigned are in the domains of their nearest directories. -/
structure Populated (nearest : Int → Int) (assigned : Int → Prop) (t : CoherenceTree) : Prop where
  distinct : ∀ {id ref}, (id,ref) ∈ t.directoryNodes → (t.node ref).domain.Nodup
  members : ∀ {id ref}, (id,ref) ∈ t.directoryNodes → ∀ nodeID,
    nodeID ∈ (t.node ref).domain ↔ assigned nodeID ∧ nearest nodeID = id ∧ id ≠ -1

variable {nearest : Int → Int} {assigned : Int → Prop} {nodeID : Int}

theorem Populated.addMember (named : t.Named) (populated : t.Populated nearest assigned) (near : nearest nodeID ≠ -1)
    (fresh : nodeID ∉ t.domainOf (nearest nodeID)) :
    (t.addMember (nearest nodeID) nodeID).Populated nearest fun other => assigned other ∨ other = nodeID := by
  have same := sameLinks_addMember t (nearest nodeID) nodeID
  have here : ∀ {id ref}, (id,ref) ∈ t.directoryNodes → (find t.directoryNodes (nearest nodeID) = some ref ↔ nearest nodeID = id) := by
    intro id ref member
    constructor
    · intro found
      exact (named.named (mem_of_find found)).symm.trans (named.named member)
    · rintro rfl
      exact find_of_mem named.keys member
  refine ⟨?_,?_⟩
  · intro id ref member
    rw [same.directoryNodes] at member
    rw [addMember_node]
    dsimp only
    split_ifs with found
    · rw [domainOf,found] at fresh
      rw [List.nodup_append]
      refine ⟨populated.distinct member,List.nodup_singleton _,?_⟩
      rintro other listed _ last rfl
      exact fresh (List.mem_singleton.mp last ▸ listed)
    · exact populated.distinct member
  · intro id ref member other
    rw [same.directoryNodes] at member
    rw [addMember_node]
    dsimp only
    split_ifs with found
    · rw [List.mem_append,List.mem_singleton,populated.members member]
      have id_eq := (here member).mp found
      constructor
      · rintro (⟨isAssigned,near_id⟩ | rfl)
        · exact ⟨.inl isAssigned,near_id⟩
        · exact ⟨.inr rfl,id_eq,id_eq ▸ near⟩
      · rintro ⟨isAssigned | rfl,near_id⟩
        · exact .inl ⟨isAssigned,near_id⟩
        · exact .inr rfl
    · rw [populated.members member]
      constructor
      · rintro ⟨isAssigned,near_id⟩
        exact ⟨.inl isAssigned,near_id⟩
      · rintro ⟨isAssigned | rfl,near_id⟩
        · exact ⟨isAssigned,near_id⟩
        · exact absurd ((here member).mpr near_id.1) found

/-- A node that is near no directory, or is in the domain already, is not added. -/
theorem Populated.skip (populated : t.Populated nearest assigned)
    (known : nearest nodeID = -1 ∨ nodeID ∈ t.domainOf (nearest nodeID)) :
    t.Populated nearest fun other => assigned other ∨ other = nodeID := by
  refine ⟨populated.distinct,fun {id ref} member other => ?_⟩
  rw [populated.members member]
  constructor
  · rintro ⟨isAssigned,near_id⟩
    exact ⟨.inl isAssigned,near_id⟩
  · rintro ⟨isAssigned | rfl,near_id,real⟩
    · exact ⟨isAssigned,near_id,real⟩
    · rcases known with none_near | listed
      · exact absurd (near_id.symm.trans none_near) real
      · unfold domainOf at listed
        split at listed
        · next ref' found => exact ⟨((populated.members (mem_of_find found) _).mp listed).1,near_id,real⟩
        · cases listed

theorem findNearestDirectory_congr {t' : CoherenceTree} (same : t.SameLinks t') :
    topology.findNearestDirectory t' = topology.findNearestDirectory t := by
  unfold Topology.findNearestDirectory
  rw [same.directoryNodes]

/-- The compute nodes are each assigned once. -/
theorem Populated.assignComputes : ∀ {cpus : List Int} {assigned : Int → Prop} {t : CoherenceTree}, t.Hangs links →
    t.Populated (topology.findNearestDirectory t) assigned → (∀ cpu ∈ cpus, ¬ assigned cpu) → cpus.Nodup →
    t.SameLinks (cpus.foldl (assignCompute topology) t) ∧
      (cpus.foldl (assignCompute topology) t).Populated (topology.findNearestDirectory t) fun other => assigned other ∨ other ∈ cpus
  | [], assigned, t, _, populated, _, _ => by
    simp only [List.not_mem_nil,or_false]
    exact ⟨.refl t,populated⟩
  | cpu :: cpus, assigned, t, hangs, populated, fresh, distinct => by
    obtain ⟨unlisted,distinct⟩ := List.nodup_cons.mp distinct
    have absent : cpu ∉ t.domainOf (topology.findNearestDirectory t cpu) := by
      unfold domainOf
      split
      · next ref found =>
        intro listed
        exact fresh cpu List.mem_cons_self ((populated.members (mem_of_find found) cpu).mp listed).1
      · exact List.not_mem_nil
    have once : t.SameLinks (assignCompute topology t cpu) ∧
        (assignCompute topology t cpu).Populated (topology.findNearestDirectory t) fun other => assigned other ∨ other = cpu := by
      unfold assignCompute
      by_cases near : topology.findNearestDirectory t cpu ≠ -1
      · rw [if_pos near]
        exact ⟨sameLinks_addMember ..,populated.addMember hangs.named near absent⟩
      · rw [if_neg near]
        exact ⟨.refl t,populated.skip (.inl (not_not.mp near))⟩
    obtain ⟨same,now⟩ := once
    have later : ∀ other ∈ cpus, ¬ (assigned other ∨ other = cpu) := by
      rintro other member (known | rfl)
      · exact fresh other (List.mem_cons_of_mem _ member) known
      · exact unlisted member
    rw [← findNearestDirectory_congr same] at now ⊢
    obtain ⟨same',populated'⟩ := now.assignComputes (same.hangs hangs) later distinct
    refine ⟨same.trans same',populated'.distinct,?_⟩
    intro id ref member other
    rw [List.foldl_cons] at member
    rw [List.foldl_cons,populated'.members member,List.mem_cons,or_assoc]

/-- The caches without directories are assigned, unless they are already. -/
theorem Populated.assignCaches : ∀ (caches : List Int) {assigned : Int → Prop} {t : CoherenceTree}, t.Hangs links →
    t.Populated (topology.findNearestDirectory t) assigned →
    t.SameLinks (caches.foldl (assignCache topology) t) ∧
      (caches.foldl (assignCache topology) t).Populated (topology.findNearestDirectory t)
        fun other => assigned other ∨ other ∈ caches ∧ topology.Plain other
  | [], assigned, t, _, populated => by
    simp only [List.not_mem_nil,false_and,or_false]
    exact ⟨.refl t,populated⟩
  | cache :: caches, assigned, t, hangs, populated => by
    have once : t.SameLinks (assignCache topology t cache) ∧ (assignCache topology t cache).Populated
        (topology.findNearestDirectory t) fun other => assigned other ∨ other = cache ∧ topology.Plain other := by
      unfold assignCache
      cases isNode : find topology.nodes cache with
      | none =>
        refine ⟨.refl t,populated.distinct,fun {id ref} member other => ?_⟩
        rw [populated.members member]
        have unknown : ¬ (other = cache ∧ topology.Plain other) := by
          rintro ⟨rfl,capability,isNode',-⟩
          cases isNode.symm.trans isNode'
        rw [or_iff_left unknown]
      | some capability =>
        dsimp only
        by_cases hasDirectory : capability.hasDirectory = true
        · rw [if_pos hasDirectory]
          refine ⟨.refl t,populated.distinct,fun {id ref} member other => ?_⟩
          rw [populated.members member]
          have not_plain : ¬ (other = cache ∧ topology.Plain other) := by
            rintro ⟨rfl,capability',isNode',plain⟩
            obtain rfl := Option.some.inj (isNode.symm.trans isNode')
            cases plain.symm.trans hasDirectory
          rw [or_iff_left not_plain]
        · rw [if_neg hasDirectory]
          have plain : topology.Plain cache := ⟨capability,isNode,Bool.eq_false_of_not_eq_true hasDirectory⟩
          have only : ∀ other, (other = cache ∧ topology.Plain other) ↔ other = cache :=
            fun other => ⟨fun both => both.1,fun same => ⟨same,same ▸ plain⟩⟩
          simp only [only]
          split_ifs with near
          · exact ⟨sameLinks_addMember ..,populated.addMember hangs.named near.1 near.2⟩
          · refine ⟨.refl t,populated.skip ?_⟩
            by_contra other
            simp only [not_or] at other
            exact near ⟨other.1,other.2⟩
    obtain ⟨same,now⟩ := once
    rw [← findNearestDirectory_congr same] at now ⊢
    obtain ⟨same',populated'⟩ := now.assignCaches caches (same.hangs hangs)
    refine ⟨same.trans same',populated'.distinct,?_⟩
    intro id ref member other
    rw [List.foldl_cons] at member
    have merged : (assigned other ∨ other = cache ∧ topology.Plain other) ∨ other ∈ caches ∧ topology.Plain other ↔
        assigned other ∨ (other = cache ∨ other ∈ caches) ∧ topology.Plain other := by
      rw [or_and_right,or_assoc]
    rw [List.foldl_cons,populated'.members member,List.mem_cons,merged]

/-- Several roots that have no address range keep none. -/
theorem Hangs.assignAddressResponsibility (hangs : t.Hangs links) (orders : Orders) :
    t.assignAddressResponsibility orders = t := by
  unfold CoherenceTree.assignAddressResponsibility
  dsimp only
  split_ifs
  · refine foldl_fixed fun root member => ?_
    obtain ⟨⟨id,ref⟩,listed,rfl⟩ := List.mem_map.mp member
    have isDirectory := (orders.responsible_perm t.directoryNodes).mem_iff.mp (List.mem_of_mem_filter listed)
    have same : { t.node ref with addressResponsibility := none } = t.node ref := by
      rw [← hangs.unranged ⟨id,isDirectory⟩]
    rw [setNode,same,Function.update_eq_self]
  · rfl

end CoherenceTree

/-- The compute nodes, and the caches that have no directory, are in the domains of their
    nearest directories. -/
theorem assignDomains_populated (hangs : t.Hangs links) (empty : ∀ {ref}, t.IsDirectory ref → (t.node ref).domain = [])
    (orders : Orders) {result : AnalysisResult} (distinct : result.computeNodes.Nodup) :
    t.SameLinks (assignDomains topology orders result t) ∧
      (assignDomains topology orders result t).Populated (topology.findNearestDirectory t) fun nodeID =>
        nodeID ∈ result.computeNodes ∨ nodeID ∈ result.cacheNodes.flatMap Prod.snd ∧ topology.Plain nodeID := by
  have start : t.Populated (topology.findNearestDirectory t) fun _ => False := by
    refine ⟨fun member => empty ⟨_,member⟩ ▸ List.nodup_nil,fun member nodeID => ?_⟩
    rw [empty ⟨_,member⟩]
    simp
  obtain ⟨same,computes⟩ := start.assignComputes hangs (fun _ _ => id) distinct
  rw [← findNearestDirectory_congr same] at computes ⊢
  obtain ⟨same',caches⟩ := computes.assignCaches ((orders.ofLevels result.cacheNodes).flatMap Prod.snd) (same.hangs hangs)
  have flat : assignDomains topology orders result t = ((orders.ofLevels result.cacheNodes).flatMap Prod.snd).foldl
      (assignCache topology) (result.computeNodes.foldl (assignCompute topology) t) := List.foldl_flatMap.symm
  rw [flat]
  refine ⟨same.trans same',caches.distinct,fun {id ref} member nodeID => ?_⟩
  have listed := ((orders.levels_perm result.cacheNodes).flatMap_right Prod.snd).mem_iff (a := nodeID)
  rw [caches.members member,false_or,listed]

/-! ### The validation -/

theorem checkDomains_of_nodup : ∀ {members allNodes : List (Int × Int)}, (members.map Prod.fst).Nodup →
    (∀ member ∈ members, find allNodes member.1 = none) → checkDomains allNodes members = .ok ()
  | [], _, _, _ => rfl
  | (nodeID,dirID) :: rest, allNodes, distinct, fresh => by
    obtain ⟨unlisted,distinct⟩ := List.nodup_cons.mp distinct
    rw [checkDomains,fresh _ List.mem_cons_self]
    refine checkDomains_of_nodup distinct fun member later => ?_
    rw [find_put,if_neg]
    · exact fresh member (List.mem_cons_of_mem _ later)
    · intro same
      exact unlisted (List.mem_map.mpr ⟨member,later,same.symm⟩)

namespace CoherenceTree

/-- A node is in the domain of its nearest directory only, and once. -/
theorem Populated.nodup_members {nearest : Int → Int} {assigned : Int → Prop} (populated : t.Populated nearest assigned)
    (keys : (t.directoryNodes.map Prod.fst).Nodup) : (t.members.map Prod.fst).Nodup := by
  have domains : t.members.map Prod.fst = t.directoryNodes.flatMap fun entry => (t.node entry.2).domain := by
    simp [CoherenceTree.members,List.map_flatMap,Function.comp_def]
  rw [domains,List.nodup_flatMap]
  refine ⟨fun entry member => populated.distinct member,?_⟩
  refine (List.pairwise_map.mp keys).imp_of_mem fun {entry entry'} member member' apart nodeID listed listed' => ?_
  have near := ((populated.members member nodeID).mp listed).2.1
  exact apart (near.symm.trans ((populated.members member' nodeID).mp listed').2.1)

/-- Going down from a directory no id comes again, since the way up has none twice. -/
theorem Forest.checkCycle_ok (forest : t.Forest) (named : t.Named) : ∀ {d : Nat} {node : NodeRef} {above : List NodeRef},
    t.IsDirectory node → Ladder t.parentOf node (node :: above) → t.size + 1 ≤ above.length + d →
    t.checkCycle d (above.map t.idOf) node = .ok ()
  | 0, node, above, directory, ladder, enough => by
    obtain ⟨l,ladder',short,-⟩ := forest.ladder named directory
    obtain rfl := ladder.unique ladder'
    rw [List.length_cons] at short
    omega
  | d + 1, node, above, directory, ladder, enough => by
    have fresh : t.idOf node ∉ above.map t.idOf := by
      intro again
      obtain ⟨other,isAbove,same⟩ := List.mem_map.mp again
      have isOther := forest.above directory (ladder.mem_iff.mp (List.mem_cons_of_mem _ isAbove))
      rw [named.eq_of_id isOther directory same] at isAbove
      exact (List.nodup_cons.mp ladder.nodup).1 isAbove
    have below : ∀ child ∈ (t.node node).children, t.checkCycle d (t.idOf node :: above.map t.idOf) child = .ok () := by
      intro child member
      obtain ⟨isChild,isNode⟩ := forest.children directory member
      exact forest.checkCycle_ok named isChild (.rung isNode ladder) (by rw [List.length_cons]; omega)
    rw [checkCycle,if_neg fresh]
    generalize (t.node node).children = children at below
    induction children with
    | nil => rfl
    | cons child rest ih =>
      change (t.checkCycle d (t.idOf node :: above.map t.idOf) child >>= fun _ => rest.forM _) = _
      rw [below child List.mem_cons_self]
      exact ih fun other member => below other (List.mem_cons_of_mem _ member)

/-- A forest whose domains have no node in common is valid. -/
theorem Forest.validate_ok (forest : t.Forest) (named : t.Named) (distinct : (t.members.map Prod.fst).Nodup) :
    t.validate = .ok () := by
  unfold validate
  rw [checkDomains_of_nodup distinct fun _ _ => rfl]
  cases isRoot : t.root with
  | none => rfl
  | some root =>
    obtain ⟨directory,top⟩ := forest.top isRoot
    have checked : t.checkCycle (t.size + 1) (([] : List NodeRef).map t.idOf) root = .ok () :=
      forest.checkCycle_ok named directory (.top top) (Nat.le_add_left ..)
    exact checked

end CoherenceTree

end

end FlowSim.Coherence
