import FlowSim.Coherence.Path

/-!
What the calls to a builder come to. Every directory that is added counts, also when another
one with its id is added later, and every call that sets a parent is a link between two of
them. The parents and children of a tree are read off the links, so what is built is a tree
just if no directory is given its parent twice, or a second parent in the tree, and the
parents that are given last lead round nowhere (`built_isTree_iff`). The validation does
not see that: it looks below the root only.
-/
namespace FlowSim.Coherence
open FlowSim.Lib CoherenceTreeBuilder
set_option linter.unusedSimpArgs false

/-- The ids of the directories that were added, the last one first, and the links from a child
    to its parent, in turn. -/
structure Calls where
  added : List Int
  links : List (NodeRef × NodeRef)

/-- The directory that was added last with an id. -/
def latest : List Int → Int → Option NodeRef
  | [], _ => none
  | id :: earlier, wanted => if id = wanted then some earlier.length else latest earlier wanted

namespace Calls

def record (calls : Calls) : Op → Calls
  | .addDirectory nodeID _ => { calls with added := nodeID :: calls.added }
  | .setParent childID parentID =>
    match latest calls.added childID, latest calls.added parentID with
    | some child, some parent => { calls with links := calls.links ++ [(child,parent)] }
    | _, _ => calls
  | .setRoot _ => calls

def of (ops : List Op) : Calls := ops.foldl record ⟨[],[]⟩

/-- The parents that a directory is given, in turn. -/
def given (calls : Calls) (child : NodeRef) : List NodeRef := (calls.links.filter fun link => link.1 = child).map Prod.snd

/-- The children that a directory is given. -/
def childrenOf (calls : Calls) (parent : NodeRef) : List NodeRef := (calls.links.filter fun link => link.2 = parent).map Prod.fst

/-- The directory is the last one with its id. -/
def Current (calls : Calls) (ref : NodeRef) : Prop := ∃ id, latest calls.added id = some ref

/-- No directory of the tree is given its parent twice, or besides its parent another
    directory of the tree, and the parents that are given last come to an end. -/
structure Treelike (calls : Calls) : Prop where
  once : ∀ {child parent}, calls.Current child → (calls.given child).getLast? = some parent →
    (calls.given child).count parent = 1
  only : ∀ {child parent other}, calls.Current child → (calls.given child).getLast? = some parent →
    other ∈ calls.given child → calls.Current other → other = parent
  ends : ∀ {child}, calls.Current child → ∃ l, Ladder (fun ref => (calls.given ref).getLast?) child l

end Calls

/-- What should hold of a built tree. The loops that go up from its directories end, and so
    does the search for a home, which no more depth would change. -/
structure CoherenceTree.IsTree (t : CoherenceTree) : Prop where
  acyclic : ∀ {node}, t.IsDirectory node → ∃ l, Ladder t.parentOf node l
  child_once : ∀ {node parent}, t.IsDirectory node → t.parentOf node = some parent → (t.node parent).children.count node = 1
  only_child : ∀ {node other}, t.IsDirectory node → t.IsDirectory other → t.parentOf node ≠ some other →
    node ∉ (t.node other).children
  search_ends : ∀ {root}, t.root = some root → ∀ addr more,
    t.findResponsibleNode addr (t.size + more) root = t.findResponsibleNode addr t.size root
  paths_end : ∀ requesterID addr, ∃ fuel result, t.getCoherencePath fuel requesterID addr = some result
  walks_end : ∀ {src dst}, t.IsDirectory src → t.IsDirectory dst → ∃ fuel, (t.commonParent fuel src dst).isSome ∧
    ∀ parent, (t.pathToAncestor fuel src parent).isSome ∧ (t.pathFromAncestor fuel parent dst).isSome

/-! ### The builder's tree and the calls -/

/-- The builder's tree has the directories and the links of the calls. -/
structure Records (calls : Calls) (b : CoherenceTreeBuilder) : Prop where
  ordered : b.Ordered
  size : b.tree.size = calls.added.length
  nodes : ∀ id, find b.nodes id = latest calls.added id
  parents : ∀ ref, b.tree.parentOf ref = (calls.given ref).getLast?
  children : ∀ ref, (b.tree.node ref).children = calls.childrenOf ref
  inUse : ∀ link ∈ calls.links, link.1 < b.tree.size ∧ link.2 < b.tree.size
  rootInUse : ∀ root, b.tree.root = some root → root < b.tree.size

section
variable {calls : Calls} {b b' : CoherenceTreeBuilder}

theorem latest_lt : ∀ {added : List Int} {id : Int} {ref : NodeRef}, latest added id = some ref → ref < added.length
  | _ :: earlier, id, ref, found => by
    rw [latest] at found
    split at found
    · cases found
      exact Nat.lt_succ_self _
    · exact Nat.lt_succ_of_lt (latest_lt found)

/-- What setting a parent does to the tree. -/
theorem setParent_cases {childID parentID : Int} (stepped : b.setParent childID parentID = some b') :
    ∃ child parent, find b.nodes childID = some child ∧ find b.nodes parentID = some parent ∧
      (∀ ref, b'.tree.parentOf ref = if ref = child then some parent else b.tree.parentOf ref) ∧
      (∀ ref, (b'.tree.node ref).children =
        if ref = parent then (b.tree.node ref).children ++ [child] else (b.tree.node ref).children) ∧
      b'.tree.size = b.tree.size ∧ b'.nodes = b.nodes ∧ b'.tree.root = b.tree.root := by
  unfold CoherenceTreeBuilder.setParent at stepped
  split at stepped
  · next child parent isChild isParent =>
    cases stepped
    refine ⟨child,parent,isChild,isParent,?_,?_,rfl,rfl,rfl⟩
    · intro ref
      simp only [CoherenceTree.parentOf,setNode,Function.update_apply]
      split_ifs <;> simp_all
    · intro ref
      simp only [setNode,Function.update_apply]
      split_ifs <;> simp_all
  · cases stepped

namespace Records

theorem addDirectory (records : Records calls b) (nodeID : Int) (domain : CoherenceDomain) :
    Records (calls.record (.addDirectory nodeID domain)) (b.addDirectory nodeID domain) := by
  have unlinked : ∀ link ∈ calls.links, link.1 ≠ b.tree.size ∧ link.2 ≠ b.tree.size := by
    intro link member
    obtain ⟨child,parent⟩ := records.inUse link member
    exact ⟨Nat.ne_of_lt child,Nat.ne_of_lt parent⟩
  refine ⟨records.ordered.addDirectory nodeID domain,congrArg (· + 1) records.size,?_,?_,?_,?_,
    fun root isRoot => Nat.lt_succ_of_lt (records.rootInUse root isRoot)⟩
  · intro id
    show find (put b.nodes nodeID b.tree.size) id = latest (nodeID :: calls.added) id
    rw [find_put,latest,records.nodes,records.size]
  · intro ref
    show ((Function.update b.tree.node b.tree.size _) ref).parent = (calls.given ref).getLast?
    by_cases here : ref = b.tree.size
    · subst here
      have nothing : calls.given b.tree.size = [] := by
        rw [Calls.given,List.filter_eq_nil_iff.mpr fun link member => by simpa using (unlinked link member).1]
        rfl
      rw [Function.update_self,nothing]
      rfl
    · rw [Function.update_of_ne here]
      exact records.parents ref
  · intro ref
    show ((Function.update b.tree.node b.tree.size _) ref).children = calls.childrenOf ref
    by_cases here : ref = b.tree.size
    · subst here
      have nothing : calls.childrenOf b.tree.size = [] := by
        rw [Calls.childrenOf,List.filter_eq_nil_iff.mpr fun link member => by simpa using (unlinked link member).2]
        rfl
      rw [Function.update_self,nothing]
    · rw [Function.update_of_ne here]
      exact records.children ref
  · intro link member
    obtain ⟨child,parent⟩ := records.inUse link member
    exact ⟨Nat.lt_succ_of_lt child,Nat.lt_succ_of_lt parent⟩

theorem setParent (records : Records calls b) {childID parentID : Int} (stepped : b.setParent childID parentID = some b') :
    Records (calls.record (.setParent childID parentID)) b' := by
  have ordered : b'.Ordered := records.ordered.step (show b.step (.setParent childID parentID) = some b' from stepped)
  obtain ⟨child,parent,isChild,isParent,parents,children,size,nodes,root⟩ := setParent_cases stepped
  rw [records.nodes] at isChild isParent
  have recorded : calls.record (.setParent childID parentID) = { calls with links := calls.links ++ [(child,parent)] } := by
    simp only [Calls.record,isChild,isParent]
  rw [recorded]
  refine ⟨ordered,size.trans records.size,fun id => (congrArg (find · id) nodes).trans (records.nodes id),?_,?_,?_,?_⟩
  · intro ref
    rw [parents,Calls.given,List.filter_append,List.map_append]
    by_cases here : ref = child
    · simp [here]
    · rw [if_neg here,records.parents]
      simp [Ne.symm here,Calls.given]
  · intro ref
    rw [children,Calls.childrenOf,List.filter_append,List.map_append,records.children]
    by_cases here : ref = parent
    · simp [here,Calls.childrenOf]
    · simp [here,Ne.symm here,Calls.childrenOf]
  · intro link member
    rw [size]
    rcases List.mem_append.mp member with old | new
    · exact records.inUse link old
    · obtain rfl := List.mem_singleton.mp new
      rw [records.size]
      exact ⟨latest_lt isChild,latest_lt isParent⟩
  · rw [root,size]
    exact records.rootInUse

theorem step (records : Records calls b) {op : Op} (stepped : b.step op = some b') : Records (calls.record op) b' := by
  cases op with
  | addDirectory nodeID domain =>
    cases stepped
    exact records.addDirectory nodeID domain
  | setParent childID parentID => exact records.setParent stepped
  | setRoot rootID =>
    have ordered : b'.Ordered := records.ordered.step stepped
    obtain ⟨root,isRoot,rfl⟩ := Option.map_eq_some_iff.mp stepped
    refine ⟨ordered,records.size,records.nodes,records.parents,records.children,records.inUse,?_⟩
    intro root' same
    obtain rfl := Option.some.inj same
    rw [records.nodes] at isRoot
    exact (latest_lt isRoot).trans_eq records.size.symm

theorem run : ∀ (ops : List Op) {calls : Calls} {b : CoherenceTreeBuilder}, Records calls b →
    runActions CoherenceTreeBuilder.step (fun _ _ => True) ops b = some b' → Records (ops.foldl Calls.record calls) b'
  | [], _, _, records, ran => by
    cases ran
    exact records
  | op :: ops, _, b, records, ran => by
    rw [runActions,if_pos trivial] at ran
    obtain ⟨next,stepped,ran⟩ := Option.bind_eq_some_iff.mp ran
    exact run ops (records.step stepped) ran

theorem new (config : AddressMappingConfig) : Records ⟨[],[]⟩ (newCoherenceTreeBuilder config) :=
  ⟨ordered_of_reachable .refl,rfl,fun _ => rfl,fun _ => rfl,fun _ => rfl,fun _ member => absurd member List.not_mem_nil,
    fun _ isRoot => nomatch isRoot⟩

end Records
end

/-! ### What is built -/

/-- The tree that is built is the builder's, with a root that may have been found, and has been
    validated. -/
structure Recorded (calls : Calls) (t : CoherenceTree) : Prop where
  named : t.Named
  valid : t.validate = .ok ()
  current : ∀ {ref}, t.IsDirectory ref ↔ calls.Current ref
  parents : ∀ ref, t.parentOf ref = (calls.given ref).getLast?
  children : ∀ ref, (t.node ref).children = calls.childrenOf ref
  inUse : ∀ {ref child}, child ∈ (t.node ref).children → child < t.size
  rootInUse : ∀ {root}, t.root = some root → root < t.size

theorem findRoot_cases {b : CoherenceTreeBuilder} {t : CoherenceTree} (found : b.findRoot = .ok t) : t = b.tree ∨
    ∃ nodeID root, (nodeID,root) ∈ b.nodes ∧ t = { b.tree with root := some root } := by
  unfold findRoot at found
  split at found
  · cases found
    exact .inl rfl
  · split at found
    · cases found
    · next nodeID root only =>
      cases found
      have member := List.mem_of_mem_filter (only ▸ List.mem_singleton_self (nodeID,root))
      exact .inr ⟨nodeID,root,member,rfl⟩
    · cases found
      exact .inl rfl

theorem Records.build {calls : Calls} {b : CoherenceTreeBuilder} (records : Records calls b) {t : CoherenceTree}
    (built : b.build = .ok t) : Recorded calls t := by
  obtain ⟨named,-,-⟩ := records.ordered.build built
  have validated : t.validate = .ok () ∧ b.findRoot = .ok t := by
    unfold CoherenceTreeBuilder.build at built
    split at built
    · cases built
    next rooted =>
    split at built
    · cases built
    next valid =>
    split at built
    · cases built
    · cases built
      exact ⟨valid,rooted⟩
  obtain ⟨valid,rooted⟩ := validated
  have same : t.node = b.tree.node ∧ t.size = b.tree.size ∧ t.directoryNodes = b.tree.directoryNodes ∧
      ∀ {root}, t.root = some root → root < b.tree.size := by
    rcases findRoot_cases rooted with rfl | ⟨nodeID,root,member,rfl⟩
    · exact ⟨rfl,rfl,rfl,records.rootInUse _⟩
    · refine ⟨rfl,rfl,rfl,?_⟩
      intro root' isRoot
      obtain rfl := Option.some.inj isRoot
      rw [records.ordered.same] at member
      exact records.ordered.named.inUse member
  obtain ⟨node,size,directoryNodes,root⟩ := same
  refine ⟨named,valid,?_,?_,?_,?_,?_⟩
  · intro ref
    refine exists_congr fun id => ?_
    rw [← records.nodes,records.ordered.same,directoryNodes]
    exact ⟨find_of_mem records.ordered.named.keys,mem_of_find⟩
  · intro ref
    rw [← records.parents,CoherenceTree.parentOf,node]
    rfl
  · intro ref
    rw [node]
    exact records.children ref
  · intro ref child member
    rw [node,records.children] at member
    obtain ⟨link,isLink,rfl⟩ := List.mem_map.mp member
    rw [size]
    exact (records.inUse link (List.mem_of_mem_filter isLink)).1
  · rw [size]
    exact root

/-! ### Loops that end -/

section
variable {t : CoherenceTree}

theorem walks_end {src dst : NodeRef} {l l' : List NodeRef} (ladder : Ladder t.parentOf src l)
    (ladder' : Ladder t.parentOf dst l') {fuel : Nat} (enough : l.length < fuel) (enough' : l'.length < fuel) :
    (t.commonParent fuel src dst).isSome ∧
      ∀ parent, (t.pathToAncestor fuel src parent).isSome ∧ (t.pathFromAncestor fuel parent dst).isSome := by
  have found := fun stop => Option.isSome_iff_exists.mp (ladder.climbTo_above_isSome stop enough)
  have found' := fun stop => Option.isSome_iff_exists.mp (ladder'.climbTo_above_isSome stop enough')
  refine ⟨?_,fun parent => ⟨?_,?_⟩⟩
  · unfold CoherenceTree.commonParent
    rw [ladder.climbTo_top enough]
    simp [ladder'.climbTo_eq _ enough']
  · obtain ⟨met,first⟩ := found (t.hasID (t.idOf parent))
    simp [CoherenceTree.pathToAncestor,first]
  · obtain ⟨met,second⟩ := found' (t.hasID (t.idOf parent))
    simp [CoherenceTree.pathFromAncestor,second]

theorem directory_of_requesterDir {requesterID : Int} {dirNode : NodeRef} {path : List Int}
    (found : t.requesterDir requesterID = some (dirNode,path)) : t.IsDirectory dirNode := by
  unfold CoherenceTree.requesterDir at found
  split at found
  · next dirID _ first =>
    cases found
    exact ⟨dirID,List.mem_of_find?_eq_some first⟩
  · obtain ⟨_,isDirectory,same⟩ := Option.map_eq_some_iff.mp found
    cases same
    exact ⟨requesterID,mem_of_find isDirectory⟩

/-- Where the ways up from all directories end, every path is found, or an error. -/
theorem paths_end (chains : ∀ {node}, t.IsDirectory node → ∃ l, Ladder t.parentOf node l) (requesterID : Int) (addr : UInt64) :
    ∃ fuel result, t.getCoherencePath fuel requesterID addr = some result := by
  unfold CoherenceTree.getCoherencePath
  split
  · exact ⟨0,_,rfl⟩
  next homeNodeID _ =>
  split_ifs
  · exact ⟨0,_,rfl⟩
  split
  · exact ⟨0,_,rfl⟩
  next dirNode path found =>
  split_ifs
  · exact ⟨0,_,rfl⟩
  obtain ⟨l,ladder⟩ := chains (directory_of_requesterDir found)
  unfold CoherenceTree.pathOverParent
  cases isHome : find t.directoryNodes homeNodeID with
  | none =>
    have enough := Nat.lt_succ_self l.length
    obtain ⟨⟨passed,met⟩,climbed⟩ := Option.isSome_iff_exists.mp (ladder.climbTo_above_isSome (t.hasID homeNodeID) enough)
    refine ⟨l.length + 1,?_⟩
    rw [climbed]
    cases met <;> exact ⟨_,rfl⟩
  | some homeNode =>
    obtain ⟨l',ladder'⟩ := chains ⟨homeNodeID,mem_of_find isHome⟩
    have enough : l.length < l.length + l'.length + 1 := by omega
    have enough' : l'.length < l.length + l'.length + 1 := by omega
    obtain ⟨⟨passed,met⟩,climbed⟩ := Option.isSome_iff_exists.mp (ladder.climbTo_above_isSome (t.hasID homeNodeID) enough)
    obtain ⟨meets,parts⟩ := walks_end ladder ladder' enough enough'
    obtain ⟨common,meets⟩ := Option.isSome_iff_exists.mp meets
    refine ⟨l.length + l'.length + 1,?_⟩
    rw [climbed]
    cases met with
    | some home => exact ⟨_,rfl⟩
    | none =>
      cases common with
      | none =>
        simp only [Option.bind_eq_bind,Option.bind_some,meets]
        exact ⟨_,rfl⟩
      | some parent =>
        obtain ⟨first,second⟩ := parts parent
        obtain ⟨toParent,first⟩ := Option.isSome_iff_exists.mp first
        obtain ⟨fromParent,second⟩ := Option.isSome_iff_exists.mp second
        simp only [Option.bind_eq_bind,Option.bind_some,meets,first,second]
        exact ⟨_,rfl⟩

/-! ### The search for a home -/

theorem forM_ok {ε α : Type} {f : α → Except ε Unit} : ∀ {l : List α}, l.forM f = .ok () → ∀ a ∈ l, f a = .ok ()
  | [], _, a, member => absurd member List.not_mem_nil
  | b :: l, ok, a, member => by
    change (f b >>= fun _ => l.forM f) = .ok () at ok
    cases first : f b with
    | error err =>
      rw [first] at ok
      cases ok
    | ok _ =>
      rw [first] at ok
      rcases List.mem_cons.mp member with rfl | later
      · exact first
      · exact forM_ok ok a later

/-- Below the root no node has the id of one above it, so the search does not go deeper than
    there are nodes. -/
theorem findResponsibleNode_ends {addr : UInt64} (inUse : ∀ {ref child}, child ∈ (t.node ref).children → child < t.size) :
    ∀ (depth more : Nat) {d : Nat} {visited : List NodeRef} {node : NodeRef},
      t.checkCycle d (visited.map t.idOf) node = .ok () → (visited.map t.idOf).Nodup → (∀ ref ∈ node :: visited, ref < t.size) →
      t.size ≤ visited.length + depth →
      t.findResponsibleNode addr (depth + more) node = t.findResponsibleNode addr depth node := by
  intro depth
  induction depth with
  | zero =>
    intro more d visited node checked distinct within enough
    cases d with
    | zero => cases checked
    | succ d =>
      rw [CoherenceTree.checkCycle] at checked
      split_ifs at checked with again
      · have fresh : ((node :: visited).map t.idOf).Nodup := List.nodup_cons.mpr ⟨again,distinct⟩
        have part : (node :: visited).toFinset ⊆ Finset.range t.size := by
          intro ref member
          exact Finset.mem_range.mpr (within ref (List.mem_toFinset.mp member))
        have few := Finset.card_le_card part
        rw [List.toFinset_card_of_nodup fresh.of_map,Finset.card_range,List.length_cons] at few
        omega
  | succ depth ih =>
    intro more d visited node checked distinct within enough
    cases d with
    | zero => cases checked
    | succ d =>
      rw [CoherenceTree.checkCycle] at checked
      split_ifs at checked with again
      have child : ∀ {p : NodeRef → Bool} {c}, (t.node node).children.find? p = some c →
          t.findResponsibleNode addr (depth + more) c = t.findResponsibleNode addr depth c := by
        intro p c found
        have member := List.mem_of_find?_eq_some found
        refine @ih more d (node :: visited) c (forM_ok checked c member) (List.nodup_cons.mpr ⟨again,distinct⟩) ?_ ?_
        · intro ref inside
          rcases List.mem_cons.mp inside with rfl | above
          · exact inUse member
          · exact within ref above
        · rw [List.length_cons]
          omega
      rw [Nat.add_right_comm,CoherenceTree.findResponsibleNode,CoherenceTree.findResponsibleNode]
      dsimp only
      split_ifs
      · rfl
      · split
        · next found => exact child found
        · rfl
      · split
        · rfl
        · split
          · next found => exact child found
          · rfl

end

/-! ### Which calls give a tree -/

section
variable {calls : Calls} {t : CoherenceTree}

/-- A child is among its parent's children as often as it is given that parent. -/
theorem Calls.count_childrenOf (calls : Calls) (parent child : NodeRef) :
    (calls.childrenOf parent).count child = (calls.given child).count parent := by
  unfold Calls.childrenOf Calls.given
  induction calls.links with
  | nil => rfl
  | cons link links ih =>
    rw [List.filter_cons,List.filter_cons]
    by_cases isParent : link.2 = parent <;> by_cases isChild : link.1 = child <;>
      simp [isParent,isChild,List.count_cons,ih]

theorem Calls.mem_childrenOf (calls : Calls) {parent child : NodeRef} :
    child ∈ calls.childrenOf parent ↔ parent ∈ calls.given child := by
  rw [← List.count_pos_iff,calls.count_childrenOf,List.count_pos_iff]

theorem Recorded.parentOf_eq (recorded : Recorded calls t) : t.parentOf = fun ref => (calls.given ref).getLast? :=
  funext recorded.parents

theorem Recorded.isTree (recorded : Recorded calls t) (treelike : calls.Treelike) : t.IsTree := by
  have chains : ∀ {node}, t.IsDirectory node → ∃ l, Ladder t.parentOf node l := by
    intro node directory
    rw [recorded.parentOf_eq]
    exact treelike.ends (recorded.current.mp directory)
  refine ⟨chains,?_,?_,?_,paths_end chains,?_⟩
  · intro node parent directory above
    rw [recorded.parents] at above
    rw [recorded.children,calls.count_childrenOf]
    exact treelike.once (recorded.current.mp directory) above
  · intro node other directory directory' apart listed
    rw [recorded.children,calls.mem_childrenOf] at listed
    obtain ⟨parent,last⟩ := Option.isSome_iff_exists.mp (List.getLast?_isSome.mpr (List.ne_nil_of_mem listed))
    obtain rfl := treelike.only (recorded.current.mp directory) last listed (recorded.current.mp directory')
    exact apart ((recorded.parents node).trans last)
  · intro root isRoot addr more
    have valid := recorded.valid
    unfold CoherenceTree.validate at valid
    rw [isRoot] at valid
    cases domains : CoherenceTree.checkDomains [] t.members with
    | error err =>
      rw [domains] at valid
      cases valid
    | ok _ =>
      rw [domains] at valid
      have checked : t.checkCycle (t.size + 1) (([] : List NodeRef).map t.idOf) root = .ok () := valid
      refine findResponsibleNode_ends recorded.inUse t.size more checked List.nodup_nil ?_ ?_
      · intro ref member
        obtain rfl := List.mem_singleton.mp member
        exact recorded.rootInUse isRoot
      · rw [List.length_nil,Nat.zero_add]
  · intro src dst isSrc isDst
    obtain ⟨l,ladder⟩ := chains isSrc
    obtain ⟨l',ladder'⟩ := chains isDst
    exact ⟨l.length + l'.length + 1,walks_end ladder ladder' (by omega) (by omega)⟩

theorem Recorded.treelike (recorded : Recorded calls t) (isTree : t.IsTree) : calls.Treelike := by
  refine ⟨?_,?_,?_⟩
  · intro child parent current last
    rw [← calls.count_childrenOf,← recorded.children]
    exact isTree.child_once (recorded.current.mpr current) ((recorded.parents child).trans last)
  · intro child parent other current last listed current'
    by_contra apart
    refine isTree.only_child (recorded.current.mpr current) (recorded.current.mpr current') ?_ ?_
    · rw [recorded.parents,last]
      exact fun same => apart (Option.some.inj same).symm
    · rw [recorded.children,calls.mem_childrenOf]
      exact listed
  · intro child current
    rw [← recorded.parentOf_eq]
    exact isTree.acyclic (recorded.current.mpr current)

end

/-- What is built is a tree exactly when the calls link each directory once and lead round
    nowhere. -/
theorem built_isTree_iff {config : AddressMappingConfig} (ops : List Op) {b : CoherenceTreeBuilder}
    (ran : runActions CoherenceTreeBuilder.step (fun _ _ => True) ops (newCoherenceTreeBuilder config) = some b)
    {t : CoherenceTree} (built : b.build = .ok t) : t.IsTree ↔ (Calls.of ops).Treelike := by
  have recorded := (Records.run ops (Records.new config) ran).build built
  exact ⟨recorded.treelike,recorded.isTree⟩

theorem built_isTree_threeLevels : threeLevelTree.IsTree ↔ (Calls.of threeLevels).Treelike :=
  built_isTree_iff threeLevels (b := threeLevelBuilder) (Option.some_get _).symm built_threeLevels

/-- Two directories, each the other's parent, beside a root that has nothing below it. -/
def circle : List Op :=
  [.addDirectory 1 ⟨[],none⟩,.addDirectory 2 ⟨[],none⟩,.addDirectory 3 ⟨[],none⟩,.setParent 2 3,.setParent 3 2]

def circleBuilder : CoherenceTreeBuilder :=
  (runActions CoherenceTreeBuilder.step (fun _ _ => True) circle (newCoherenceTreeBuilder ⟨64⟩)).get (by decide +kernel)

def circleTree : CoherenceTree := circleBuilder.build.toOption.get (by decide +kernel)

/-- The circle is built. -/
theorem circle_is_built : ¬ ∀ (ops : List Op) (b : CoherenceTreeBuilder) (t : CoherenceTree),
    runActions CoherenceTreeBuilder.step (fun _ _ => True) ops (newCoherenceTreeBuilder ⟨64⟩) = some b → b.build = .ok t →
    t.IsTree := by
  intro always
  have isTree := always circle circleBuilder circleTree (Option.some_get _).symm (eq_ok_get _)
  have parents : circleTree.parentOf 1 = some 2 ∧ circleTree.parentOf 2 = some 1 := by decide +kernel
  have directory : circleTree.IsDirectory 1 := ⟨2,by decide +kernel⟩
  obtain ⟨l,ladder⟩ := isTree.acyclic directory
  have up : Climbs circleTree.parentOf 1 2 := .single parents.1
  have back : Climbs circleTree.parentOf 2 1 := .single parents.2
  exact absurd (ladder.antisymm up back) (by decide)

end FlowSim.Coherence
