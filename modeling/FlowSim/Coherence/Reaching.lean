import FlowSim.Coherence.Built
import FlowSim.Coherence.Router

/-!
Where coherence requests end. In a tree with one root every directory sends a request up,
also one whose home is below it, until the home is met; only the root sends it down, to
its child. So a request of a home further down goes up and down between the root and its
child for ever, unless it meets the home on its way up. Where directories are in no domains
but their parents', homes at the root's children are all that is met besides
(`meets_iff_of_nested`).
-/
namespace FlowSim.Coherence
open FlowSim.Lib CoherenceTree CoherenceRouter
set_option linter.unusedSimpArgs false

/-- The hop of a request for the address from a node. -/
def hop (t : CoherenceTree) (addr : UInt64) (nodeID : Int) : Option Int :=
  ((newCoherenceRouter nodeID t).routeForCoherence addr).toOption

/-- Where the request is after a number of hops. -/
def walk (t : CoherenceTree) (addr : UInt64) : Nat → Int → Option Int
  | 0, nodeID => some nodeID
  | n + 1, nodeID => (hop t addr nodeID).bind (walk t addr n)

/-- A member of a domain, or a directory. -/
def Present (t : CoherenceTree) (nodeID : Int) : Prop :=
  (∃ dirID, (nodeID,dirID) ∈ t.members) ∨ ∃ ref, (nodeID,ref) ∈ t.directoryNodes

/-- The node is in no domain of another directory. -/
def OnItsOwn (t : CoherenceTree) (nodeID : Int) : Prop := ∀ dirID, (nodeID,dirID) ∈ t.members → dirID = nodeID

/-- Up from a node is the directory in whose domain it is, or else its parent; -1 stands for
    no node and is nowhere. -/
inductive Up (t : CoherenceTree) : Int → Int → Prop where
  | listed {nodeID dirID : Int} (member : (nodeID,dirID) ∈ t.members) (other : dirID ≠ nodeID) (real : dirID ≠ -1) :
      Up t nodeID dirID
  | parent {nodeID : Int} {ref parent : NodeRef} (own : OnItsOwn t nodeID) (directory : (nodeID,ref) ∈ t.directoryNodes)
      (above : t.parentOf ref = some parent) (real : t.idOf parent ≠ -1) : Up t nodeID (t.idOf parent)

/-- Down from the root is its child that the home is below. -/
def Down (t : CoherenceTree) (root home : NodeRef) (nodeID next : Int) : Prop :=
  nodeID = t.idOf root ∧ OnItsOwn t nodeID ∧ next ≠ -1 ∧
    ∃ c, t.parentOf c = some root ∧ Climbs t.parentOf home c ∧ t.idOf c = next

/-- Going up from the node meets the home, or it ends at the root and going up from the
    child below does. -/
def Meets (t : CoherenceTree) (root home : NodeRef) (nodeID : Int) : Prop :=
  Relation.ReflTransGen (Up t) nodeID (t.idOf home) ∨
  Relation.ReflTransGen (Up t) nodeID (t.idOf root) ∧
    ∃ c, Down t root home (t.idOf root) c ∧ Relation.ReflTransGen (Up t) c (t.idOf home)

/-! ### The home -/

section
variable {t : CoherenceTree} {root : NodeRef}

theorem findResponsibleNode_directory (single : t.SingleRooted root) (addr : UInt64) : ∀ (depth : Nat) {node : NodeRef},
    t.IsDirectory node → t.IsDirectory (t.findResponsibleNode addr depth node)
  | 0, _, directory => directory
  | depth + 1, node, directory => by
    have child : ∀ {p : NodeRef → Bool} {c}, (t.node node).children.find? p = some c → t.IsDirectory c := by
      intro p c found
      exact (single.children directory (List.mem_of_find?_eq_some found)).1
    rw [findResponsibleNode]
    dsimp only
    split_ifs
    · exact directory
    · split
      · next found => exact findResponsibleNode_directory single addr depth (child found)
      · exact directory
    · split
      · exact directory
      · split
        · next found => exact findResponsibleNode_directory single addr depth (child found)
        · exact directory

theorem getHomeNode_directory (single : t.SingleRooted root) (addr : UInt64) (named : t.Named) :
    ∃ home, t.IsDirectory home ∧ t.getHomeNode addr = .ok (t.idOf home) := by
  unfold getHomeNode
  rw [single.isRoot,if_neg (fun both => nomatch both.1)]
  split
  · next nodeID ref only =>
    have member : (nodeID,ref) ∈ t.directoryNodes := by
      rw [only]
      exact List.mem_singleton_self _
    exact ⟨ref,⟨nodeID,member⟩,by rw [named.named member]⟩
  · refine ⟨_,findResponsibleNode_directory single addr t.size single.directory,?_⟩
    rw [mapAddressToDirectory,single.isRoot]

/-! ### The next hop of a directory -/

theorem takeThrough_cons {α : Type} (p : α → Bool) (a : α) (l : List α) : ∃ rest, takeThrough p (a :: l) = a :: rest := by
  rw [takeThrough]
  split
  · exact ⟨[],rfl⟩
  · exact ⟨_,rfl⟩

/-- Two directories always have a common parent, since the root is one. -/
theorem findCommonParent_isSome (single : t.SingleRooted root) (named : t.Named) {src dst : NodeRef}
    (isSrc : t.IsDirectory src) (isDst : t.IsDirectory dst) : ∃ parent, t.findCommonParent src dst = some parent := by
  obtain ⟨_,ladder,_,src_eq⟩ := single.ladder named isSrc
  obtain ⟨_,ladder',_,dst_eq⟩ := single.ladder named isDst
  refine Option.isSome_iff_exists.mp ?_
  unfold findCommonParent
  rw [List.findSome?_isSome_iff,dst_eq,src_eq]
  refine ⟨root,ladder'.mem_iff.mpr (single.rooted isDst),?_⟩
  rw [List.find?_isSome]
  exact ⟨root,List.mem_reverse.mpr (ladder.mem_iff.mpr (single.rooted isSrc)),decide_eq_true rfl⟩

theorem computeDirectoryPath_eq (named : t.Named) {srcID dstID : Int} {src dst : NodeRef}
    (isSrc : (srcID,src) ∈ t.directoryNodes) (isDst : (dstID,dst) ∈ t.directoryNodes) (apart : srcID ≠ dstID)
    {parent : NodeRef} (common : t.findCommonParent src dst = some parent) :
    computeDirectoryPath t srcID dstID = t.getPathToAncestor src parent ++ t.getPathFromAncestor parent dst := by
  unfold computeDirectoryPath
  rw [find_of_mem named.keys isSrc,find_of_mem named.keys isDst]
  dsimp only
  rw [if_neg apart,common]

/-- A directory that is not the root sends all requests but its own up. -/
theorem computeNextHop_up (single : t.SingleRooted root) (named : t.Named) {srcID dstID : Int} {src dst parent : NodeRef}
    (isSrc : (srcID,src) ∈ t.directoryNodes) (isDst : (dstID,dst) ∈ t.directoryNodes) (apart : srcID ≠ dstID)
    (above : t.parentOf src = some parent) : computeNextHop t srcID srcID dstID = t.idOf parent := by
  obtain ⟨common,found⟩ := findCommonParent_isSome single named ⟨srcID,isSrc⟩ ⟨dstID,isDst⟩
  obtain ⟨_,ladder,_,src_eq⟩ := single.ladder named ⟨srcID,isSrc⟩
  have chain : ∃ rest, t.ancestors src = src :: parent :: rest := by
    rw [src_eq]
    cases ladder with
    | top top => cases top.symm.trans above
    | rung above' rest =>
      obtain rfl := Option.some.inj (above.symm.trans above')
      cases rest with
      | top _ => exact ⟨[],rfl⟩
      | rung _ _ => exact ⟨_,rfl⟩
  obtain ⟨rest,chain⟩ := chain
  unfold computeNextHop
  rw [if_neg (not_not_intro rfl),if_neg apart,computeDirectoryPath_eq named isSrc isDst apart found,getPathToAncestor,chain,
    List.tail_cons]
  obtain ⟨rest',through⟩ := takeThrough_cons (fun current => decide (t.idOf current = t.idOf common)) parent rest
  rw [through]
  rfl

/-- The way from a directory up to the root ends with a child of the root. -/
theorem below_root (single : t.SingleRooted root) (named : t.Named) {node : NodeRef} {l : List NodeRef}
    (ladder : Ladder t.parentOf node l) (directory : t.IsDirectory node) (apart : t.idOf node ≠ t.idOf root) :
    ∃ before c, node :: l.tail.takeWhile (fun current => t.idOf current ≠ t.idOf root) = before ++ [c] ∧
      t.parentOf c = some root ∧ c ∈ l := by
  induction ladder with
  | top top => exact absurd (congrArg t.idOf (single.eq_root directory top)) apart
  | @rung node parent l above rest ih =>
    have directory' := (single.parents directory above).1
    have starts : ∃ later, l = parent :: later := by
      cases rest with
      | top _ => exact ⟨[],rfl⟩
      | rung _ _ => exact ⟨_,rfl⟩
    obtain ⟨later,rfl⟩ := starts
    rw [List.tail_cons,List.takeWhile_cons]
    by_cases isRoot : t.idOf parent = t.idOf root
    · have same : parent = root := by
        obtain ⟨_,isParent⟩ := directory'
        obtain ⟨_,isRoot'⟩ := single.directory
        rw [← named.named isParent] at isParent
        rw [← named.named isRoot',← isRoot] at isRoot'
        exact value_unique named.keys isParent isRoot'
      subst same
      refine ⟨[],node,?_,above,List.mem_cons_self⟩
      rw [if_neg]
      · rfl
      · simp
    · obtain ⟨before,c,split,top,member⟩ := ih directory' isRoot
      refine ⟨node :: before,c,?_,top,List.mem_cons_of_mem _ member⟩
      rw [if_pos (decide_eq_true isRoot)]
      exact congrArg (node :: ·) split

/-- The root sends a request down to the child that the home is below. -/
theorem computeNextHop_down (single : t.SingleRooted root) (named : t.Named) {dstID : Int} {dst : NodeRef}
    (isDst : (dstID,dst) ∈ t.directoryNodes) (apart : t.idOf root ≠ dstID) :
    ∃ c, t.parentOf c = some root ∧ Climbs t.parentOf dst c ∧
      computeNextHop t (t.idOf root) (t.idOf root) dstID = t.idOf c := by
  obtain ⟨rootID,isRoot⟩ := single.directory
  obtain rfl := named.named isRoot
  obtain rfl := named.named isDst
  obtain ⟨common,found⟩ := findCommonParent_isSome single named ⟨_,isRoot⟩ ⟨_,isDst⟩
  obtain ⟨l,ladder,_,dst_eq⟩ := single.ladder named ⟨_,isDst⟩
  obtain ⟨l',ladder',_,root_eq⟩ := single.ladder named ⟨_,isRoot⟩
  obtain rfl := ladder'.unique (.top single.top)
  have same : common = root := by
    unfold findCommonParent at found
    obtain ⟨_,_,found⟩ := List.exists_of_findSome?_eq_some found
    rw [root_eq] at found
    exact List.mem_singleton.mp (List.mem_of_find?_eq_some found)
  subst same
  obtain ⟨before,c,split,above,member⟩ := below_root single named ladder ⟨_,isDst⟩ (Ne.symm apart)
  refine ⟨c,above,ladder.mem_iff.mp member,?_⟩
  have down : t.getPathFromAncestor common dst = t.idOf c :: (before.map t.idOf).reverse := by
    rw [getPathFromAncestor,dst_eq,← List.map_cons,split,List.map_append,List.reverse_append]
    rfl
  unfold computeNextHop
  rw [if_neg (not_not_intro rfl),if_neg apart,computeDirectoryPath_eq named isRoot isDst apart found,getPathToAncestor,root_eq,
    down]
  rfl

/-- The root has only one child that the home is below. -/
theorem child_unique (single : t.SingleRooted root) {home c c' : NodeRef} (below : Climbs t.parentOf home c)
    (child : t.parentOf c = some root) (below' : Climbs t.parentOf home c') (child' : t.parentOf c' = some root) : c' = c := by
  have lower : ∀ {a b}, Climbs t.parentOf a b → t.parentOf a = some root → t.parentOf b = some root → b = a := by
    intro a b climbs first second
    rcases climbs.cases_head with rfl | ⟨_,above,rest⟩
    · rfl
    · obtain rfl := Option.some.inj (first.symm.trans above)
      rcases rest.cases_head with rfl | ⟨_,above',_⟩
      · cases single.top.symm.trans second
      · cases single.top.symm.trans above'
  have functional : Relator.RightUnique fun a b => t.parentOf a = some b :=
    fun _ _ _ first second => Option.some.inj (first.symm.trans second)
  rcases below.total_of_right_unique functional below' with upward | upward
  · exact lower upward child child'
  · exact (lower upward child' child).symm

/-! ### Hops -/

/-- The directory in whose domain a node is, is the one that is found. -/
theorem find_domain_listed (distinct : (t.members.map Prod.fst).Nodup) {nodeID dirID : Int}
    (listed : (nodeID,dirID) ∈ t.members) : ∃ ref, (dirID,ref) ∈ t.directoryNodes ∧
      t.directoryNodes.find? (fun entry => nodeID ∈ (t.node entry.2).domain) = some (dirID,ref) := by
  obtain ⟨ref,isDirectory,inDomain⟩ := mem_members.mp listed
  rcases found : t.directoryNodes.find? (fun entry => nodeID ∈ (t.node entry.2).domain) with _ | ⟨other,ref'⟩
  · have unlisted := List.find?_eq_none.mp found (dirID,ref) isDirectory
    exact absurd (decide_eq_true inDomain) unlisted
  · have inDomain' : nodeID ∈ (t.node ref').domain := by simpa using List.find?_some found
    have isDirectory' := List.mem_of_find?_eq_some found
    obtain rfl := value_unique distinct (mem_members.mpr ⟨ref',isDirectory',inDomain'⟩) listed
    exact ⟨ref',isDirectory',found⟩

theorem find_domain_unlisted {nodeID : Int} (unlisted : ∀ dirID, (nodeID,dirID) ∉ t.members) :
    t.directoryNodes.find? (fun entry => nodeID ∈ (t.node entry.2).domain) = none := by
  refine List.find?_eq_none.mpr ?_
  rintro ⟨dirID,ref⟩ isDirectory inDomain
  exact unlisted dirID (mem_members.mpr ⟨ref,isDirectory,of_decide_eq_true inDomain⟩)

/-- The directory that the router finds is the only one in whose domain the node is. -/
theorem findMyDirectory_listed (distinct : (t.members.map Prod.fst).Nodup) {nodeID dirID : Int}
    (listed : (nodeID,dirID) ∈ t.members) : findMyDirectory t nodeID = dirID := by
  obtain ⟨ref,-,found⟩ := find_domain_listed distinct listed
  unfold findMyDirectory
  rw [found]

/-- A directory that is in no other's domain is its own. -/
theorem findMyDirectory_own (distinct : (t.members.map Prod.fst).Nodup) (named : t.Named) {nodeID : Int} {ref : NodeRef}
    (isDirectory : (nodeID,ref) ∈ t.directoryNodes) (own : OnItsOwn t nodeID) : findMyDirectory t nodeID = nodeID := by
  by_cases listed : ∃ dirID, (nodeID,dirID) ∈ t.members
  · obtain ⟨dirID,listed⟩ := listed
    obtain rfl := own dirID listed
    exact findMyDirectory_listed distinct listed
  · unfold findMyDirectory
    rw [find_domain_unlisted (not_exists.mp listed),find_of_mem named.keys isDirectory]
    rfl

theorem find_precomputeRoutingTable (nodeID myDirID : Int) {dirID : Int} {ref : NodeRef}
    (isDirectory : (dirID,ref) ∈ t.directoryNodes) : find (precomputeRoutingTable t nodeID myDirID) dirID =
      if computeNextHop t nodeID myDirID dirID ≠ -1 then some (computeNextHop t nodeID myDirID dirID) else none := by
  have rows : ∀ {key next}, (key,next) ∈ precomputeRoutingTable t nodeID myDirID →
      next = computeNextHop t nodeID myDirID key ∧ computeNextHop t nodeID myDirID key ≠ -1 := by
    intro key next member
    obtain ⟨entry,_,row⟩ := List.mem_filterMap.mp member
    rw [Option.ite_none_right_eq_some] at row
    obtain ⟨real,row⟩ := row
    cases row
    exact ⟨rfl,real⟩
  by_cases real : computeNextHop t nodeID myDirID dirID ≠ -1
  · rw [if_pos real]
    have row : (dirID,computeNextHop t nodeID myDirID dirID) ∈ precomputeRoutingTable t nodeID myDirID :=
      List.mem_filterMap.mpr ⟨(dirID,ref),isDirectory,if_pos real⟩
    rcases found : find (precomputeRoutingTable t nodeID myDirID) dirID with _ | next
    · exact absurd rfl (find_eq_none.mp found _ row)
    · rw [(rows (mem_of_find found)).1]
  · rw [if_neg real]
    refine find_eq_none.mpr ?_
    rintro ⟨key,next⟩ member rfl
    exact real (rows member).2

/-- Away from home, a hop is the next hop that the router computes for the home. -/
theorem hop_eq {addr : UInt64} {nodeID homeID : Int} {home : NodeRef}
    (isHome : (homeID,home) ∈ t.directoryNodes) (homeNode : t.getHomeNode addr = .ok homeID) (away : homeID ≠ nodeID) :
    hop t addr nodeID =
      if computeNextHop t nodeID (findMyDirectory t nodeID) homeID ≠ -1 then
        some (computeNextHop t nodeID (findMyDirectory t nodeID) homeID)
      else none := by
  rw [← find_precomputeRoutingTable nodeID (findMyDirectory t nodeID) isHome]
  unfold hop routeForCoherence newCoherenceRouter
  dsimp only
  rw [homeNode]
  dsimp only
  rw [if_neg away]
  cases find (precomputeRoutingTable t nodeID (findMyDirectory t nodeID)) homeID with
  | none => rfl
  | some nextHop => rfl

/-- Away from home, a hop goes up, or down from the root. -/
theorem hop_iff (single : t.SingleRooted root) (named : t.Named) (distinct : (t.members.map Prod.fst).Nodup) {addr : UInt64}
    {home : NodeRef} (isHome : t.IsDirectory home) (homeNode : t.getHomeNode addr = .ok (t.idOf home)) {nodeID next : Int}
    (present : Present t nodeID) (away : t.idOf home ≠ nodeID) :
    hop t addr nodeID = some next ↔ Up t nodeID next ∨ Down t root home nodeID next := by
  obtain ⟨homeID,isHome⟩ := isHome
  obtain rfl := named.named isHome
  rw [hop_eq isHome homeNode away,Option.ite_none_right_eq_some,Option.some.injEq]
  by_cases own : OnItsOwn t nodeID
  · have directory : ∃ ref, (nodeID,ref) ∈ t.directoryNodes := by
      rcases present with ⟨dirID,listed⟩ | directory
      · obtain rfl := own dirID listed
        obtain ⟨ref,isDirectory,_⟩ := mem_members.mp listed
        exact ⟨ref,isDirectory⟩
      · exact directory
    obtain ⟨ref,isDirectory⟩ := directory
    obtain rfl := named.named isDirectory
    rw [findMyDirectory_own distinct named isDirectory own]
    rcases above : t.parentOf ref with _ | parent
    · obtain rfl := single.eq_root ⟨_,isDirectory⟩ above
      obtain ⟨c,child,below,nextHop⟩ := computeNextHop_down single named isHome (Ne.symm away)
      rw [nextHop]
      constructor
      · rintro ⟨real,rfl⟩
        exact .inr ⟨rfl,own,real,c,child,below,rfl⟩
      · rintro (up | ⟨_,_,real,c',child',below',rfl⟩)
        · cases up with
          | listed listed other _ => exact absurd (own _ listed) other
          | parent _ isDirectory' above' _ =>
            obtain rfl := value_unique named.keys isDirectory isDirectory'
            cases above.symm.trans above'
        · rw [child_unique single below child below' child'] at real ⊢
          exact ⟨real,rfl⟩
    · rw [computeNextHop_up single named isDirectory isHome (Ne.symm away) above]
      constructor
      · rintro ⟨real,rfl⟩
        exact .inl (.parent own isDirectory above real)
      · rintro (up | ⟨isRoot,_⟩)
        · cases up with
          | listed listed other _ => exact absurd (own _ listed) other
          | parent _ isDirectory' above' real =>
            obtain rfl := value_unique named.keys isDirectory isDirectory'
            obtain rfl := Option.some.inj (above.symm.trans above')
            exact ⟨real,rfl⟩
        · obtain ⟨_,isRoot'⟩ := single.directory
          obtain rfl := named.named isRoot'
          rw [isRoot] at isDirectory
          obtain rfl := value_unique named.keys isDirectory isRoot'
          cases above.symm.trans single.top
  · have other : ∃ dirID, (nodeID,dirID) ∈ t.members ∧ dirID ≠ nodeID := by
      by_contra none_other
      exact own fun dirID listed => by_contra fun different => none_other ⟨dirID,listed,different⟩
    obtain ⟨dirID,listed,different⟩ := other
    rw [findMyDirectory_listed distinct listed,computeNextHop,if_pos different.symm]
    constructor
    · rintro ⟨real,rfl⟩
      exact .inl (.listed listed different real)
    · rintro (up | ⟨_,own',_⟩)
      · cases up with
        | listed listed' _ real =>
          obtain rfl := value_unique distinct listed listed'
          exact ⟨real,rfl⟩
        | parent own' _ _ _ => exact absurd own' own
      · exact absurd own' own

/-! ### Walks -/

theorem present_of_up (single : t.SingleRooted root) (named : t.Named) {nodeID next : Int} (up : Up t nodeID next) :
    Present t next := by
  cases up with
  | listed listed _ _ =>
    obtain ⟨ref,isDirectory,_⟩ := mem_members.mp listed
    exact .inr ⟨ref,isDirectory⟩
  | parent _ directory above _ =>
    obtain ⟨⟨id,isDirectory⟩,_⟩ := single.parents ⟨_,directory⟩ above
    rw [named.named isDirectory]
    exact .inr ⟨_,isDirectory⟩

theorem present_of_down (single : t.SingleRooted root) (named : t.Named) {home : NodeRef} (isHome : t.IsDirectory home)
    {nodeID next : Int} (down : Down t root home nodeID next) : Present t next := by
  obtain ⟨_,_,_,c,_,below,rfl⟩ := down
  obtain ⟨id,isDirectory⟩ := single.above isHome below
  rw [named.named isDirectory]
  exact .inr ⟨_,isDirectory⟩

/-- A request that is home from somewhere on the way up is home from below. -/
theorem walk_of_up (single : t.SingleRooted root) (named : t.Named) (distinct : (t.members.map Prod.fst).Nodup) {addr : UInt64}
    {home : NodeRef} (isHome : t.IsDirectory home) (homeNode : t.getHomeNode addr = .ok (t.idOf home)) {nodeID higher : Int}
    (present : Present t nodeID) (up : Relation.ReflTransGen (Up t) nodeID higher)
    (reached : ∃ n, walk t addr n higher = some (t.idOf home)) : ∃ n, walk t addr n nodeID = some (t.idOf home) := by
  induction up using Relation.ReflTransGen.head_induction_on with
  | refl => exact reached
  | @head nodeID next first _ ih =>
    by_cases here : t.idOf home = nodeID
    · exact ⟨0,congrArg some here.symm⟩
    · obtain ⟨n,later⟩ := ih (present_of_up single named first)
      refine ⟨n + 1,?_⟩
      rw [walk,(hop_iff single named distinct isHome homeNode present here).mpr (.inl first)]
      exact later

/-- A walk that comes home has met it going up, before or after the root. -/
theorem meets_of_walk (single : t.SingleRooted root) (named : t.Named) (distinct : (t.members.map Prod.fst).Nodup)
    {addr : UInt64} {home : NodeRef} (isHome : t.IsDirectory home) (homeNode : t.getHomeNode addr = .ok (t.idOf home)) :
    ∀ (n : Nat) {nodeID : Int}, Present t nodeID → walk t addr n nodeID = some (t.idOf home) → Meets t root home nodeID
  | 0, nodeID, _, walked => by
    cases walked
    exact .inl .refl
  | n + 1, nodeID, present, walked => by
    by_cases here : t.idOf home = nodeID
    · rw [← here]
      exact .inl .refl
    · obtain ⟨next,hopped,walked⟩ := Option.bind_eq_some_iff.mp walked
      rcases (hop_iff single named distinct isHome homeNode present here).mp hopped with up | down
      · have later := meets_of_walk single named distinct isHome homeNode n (present_of_up single named up) walked
        rcases later with met | ⟨ended,down,met⟩
        · exact .inl (.head up met)
        · exact .inr ⟨.head up ended,down,met⟩
      · have later := meets_of_walk single named distinct isHome homeNode n (present_of_down single named isHome down) walked
        obtain ⟨rfl,_⟩ := id down
        rcases later with met | ⟨_,again,met⟩
        · exact .inr ⟨.refl,next,down,met⟩
        · exact .inr ⟨.refl,again,met⟩

end

/-- A request reaches the home of its address exactly when it meets it going up, or going
    up from the root's child that the home is below, once it has come to the root. -/
theorem routing_reaches_home_iff {config : AddressMappingConfig} {b : CoherenceTreeBuilder}
    (made : Reachable CoherenceTreeBuilder.step (.newCoherenceTreeBuilder config) b) {t : CoherenceTree}
    (built : b.build = .ok t) {root : NodeRef} (single : t.SingleRooted root) {nodeID : Int} (present : Present t nodeID)
    (addr : UInt64) :
    ∃ home, t.IsDirectory home ∧ t.getHomeNode addr = .ok (t.idOf home) ∧
      ((∃ n, walk t addr n nodeID = some (t.idOf home)) ↔ Meets t root home nodeID) := by
  obtain ⟨named,distinct,_⟩ := (CoherenceTreeBuilder.ordered_of_reachable made).build built
  obtain ⟨home,isHome,homeNode⟩ := getHomeNode_directory single addr named
  refine ⟨home,isHome,homeNode,?_,?_⟩
  · rintro ⟨n,walked⟩
    exact meets_of_walk single named distinct isHome homeNode n present walked
  · have ends : ∀ {from_id}, Present t from_id → Relation.ReflTransGen (Up t) from_id (t.idOf home) →
        ∃ n, walk t addr n from_id = some (t.idOf home) :=
      fun present up => walk_of_up single named distinct isHome homeNode present up ⟨0,rfl⟩
    rintro (met | ⟨ended,c,down,met⟩)
    · exact ends present met
    · refine walk_of_up single named distinct isHome homeNode present ended ?_
      obtain ⟨n,later⟩ := ends (present_of_down single named isHome down) met
      by_cases here : t.idOf home = t.idOf root
      · exact ⟨0,congrArg some here.symm⟩
      · obtain ⟨id,isRoot⟩ := single.directory
        obtain rfl := named.named isRoot
        refine ⟨n + 1,?_⟩
        rw [walk,(hop_iff single named distinct isHome homeNode (.inr ⟨root,isRoot⟩) here).mpr (.inr down)]
        exact later

/-- Where directories are in no domains but their parents', and none has the id -1, the home
    is met going up, or it is a child of the root. -/
theorem meets_iff_of_nested {t : CoherenceTree} {root : NodeRef} (single : t.SingleRooted root) (named : t.Named)
    (nested : ∀ {nodeID ref dirID}, (nodeID,ref) ∈ t.directoryNodes → (nodeID,dirID) ∈ t.members →
      dirID = nodeID ∨ ∃ parent, t.parentOf ref = some parent ∧ dirID = t.idOf parent)
    (real : ∀ entry ∈ t.directoryNodes, entry.1 ≠ -1) {home : NodeRef} (isHome : t.IsDirectory home) (nodeID : Int) :
    Meets t root home nodeID ↔ Relation.ReflTransGen (Up t) nodeID (t.idOf home) ∨
      Relation.ReflTransGen (Up t) nodeID (t.idOf root) ∧ t.parentOf home = some root := by
  obtain ⟨rootID,isRoot⟩ := single.directory
  obtain rfl := named.named isRoot
  have only_up : ∀ {ref id next}, (id,ref) ∈ t.directoryNodes → Up t id next → ∃ parent, t.parentOf ref = some parent ∧
      next = t.idOf parent := by
    rintro ref id next isDirectory (⟨listed,other,_⟩ | ⟨_,isDirectory',above,_⟩)
    · exact (nested isDirectory listed).resolve_left other
    · obtain rfl := value_unique named.keys isDirectory isDirectory'
      exact ⟨_,above,rfl⟩
  have own : OnItsOwn t (t.idOf root) := by
    intro dirID listed
    rcases nested isRoot listed with same | ⟨parent,above,_⟩
    · exact same
    · cases single.top.symm.trans above
  constructor
  · rintro (met | ⟨ended,_,⟨_,_,_,c,child,below,rfl⟩,met⟩)
    · exact .inl met
    · obtain ⟨_,isChild⟩ := single.above isHome below
      rw [← named.named isChild] at isChild
      rcases met.cases_head with same | ⟨next,up,rest⟩
      · obtain ⟨_,isHome⟩ := isHome
        rw [← named.named isHome,← same] at isHome
        obtain rfl := value_unique named.keys isChild isHome
        exact .inr ⟨ended,child⟩
      · obtain ⟨parent,above,rfl⟩ := only_up isChild up
        obtain rfl := Option.some.inj (child.symm.trans above)
        rcases rest.cases_head with same | ⟨_,up',_⟩
        · rw [← same]
          exact .inl ended
        · obtain ⟨_,above',_⟩ := only_up isRoot up'
          cases single.top.symm.trans above'
  · rintro (met | ⟨ended,child⟩)
    · exact .inl met
    · obtain ⟨_,isHome⟩ := isHome
      have not_none : t.idOf home ≠ -1 := by
        rw [named.named isHome]
        exact real _ isHome
      exact .inr ⟨ended,_,⟨rfl,own,not_none,home,child,.refl,rfl⟩,.refl⟩

/-! ### Three levels -/

/-- Directory 1 over 2 over 3, each with its parent's domain listing it, and a member 10 of
    the domain of 1. -/
def threeLevels : List CoherenceTreeBuilder.Op :=
  [.addDirectory 1 ⟨[10,2],none⟩,.addDirectory 2 ⟨[11,3],none⟩,.addDirectory 3 ⟨[12],none⟩,.setParent 2 1,.setParent 3 2]

def threeLevelBuilder : CoherenceTreeBuilder :=
  (runActions CoherenceTreeBuilder.step (fun _ _ => True) threeLevels (.newCoherenceTreeBuilder ⟨64⟩)).get (by decide +kernel)

def threeLevelTree : CoherenceTree := threeLevelBuilder.build.toOption.get (by decide +kernel)

theorem eq_ok_get {result : Except String CoherenceTree} (ok : result.toOption.isSome) :
    result = .ok (result.toOption.get ok) := by
  cases result with
  | error => cases ok
  | ok => rfl

theorem built_threeLevels : threeLevelBuilder.build = .ok threeLevelTree := eq_ok_get _

theorem made_threeLevels : Reachable CoherenceTreeBuilder.step (.newCoherenceTreeBuilder ⟨64⟩) threeLevelBuilder :=
  reaches_runActions threeLevels (Option.some_get _).symm

theorem single_threeLevels : threeLevelTree.SingleRooted 0 := by
  have entries : threeLevelTree.directoryNodes = [(1,0),(2,1),(3,2)] := by decide +kernel
  have directories : ∀ {ref}, threeLevelTree.IsDirectory ref ↔ ref = 0 ∨ ref = 1 ∨ ref = 2 := by
    intro ref
    unfold IsDirectory
    rw [entries]
    simp [exists_or]
  have parents : threeLevelTree.parentOf 0 = none ∧ threeLevelTree.parentOf 1 = some 0 ∧ threeLevelTree.parentOf 2 = some 1 := by
    decide +kernel
  have children : (threeLevelTree.node 0).children = [1] ∧ (threeLevelTree.node 1).children = [2] ∧
      (threeLevelTree.node 2).children = [] := by decide +kernel
  obtain ⟨top,second,third⟩ := parents
  obtain ⟨below_top,below_second,below_third⟩ := children
  refine ⟨by decide +kernel,directories.mpr (.inl rfl),top,?_,?_,?_⟩
  · intro node parent directory above
    rcases directories.mp directory with rfl | rfl | rfl
    · cases top.symm.trans above
    · obtain rfl := Option.some.inj (second.symm.trans above)
      exact ⟨directories.mpr (.inl rfl),below_top ▸ List.mem_singleton_self _⟩
    · obtain rfl := Option.some.inj (third.symm.trans above)
      exact ⟨directories.mpr (.inr (.inl rfl)),below_second ▸ List.mem_singleton_self _⟩
  · intro node child directory member
    rcases directories.mp directory with rfl | rfl | rfl
    · obtain rfl := List.mem_singleton.mp (below_top ▸ member)
      exact ⟨directories.mpr (.inr (.inl rfl)),second⟩
    · obtain rfl := List.mem_singleton.mp (below_second ▸ member)
      exact ⟨directories.mpr (.inr (.inr rfl)),third⟩
    · rw [below_third] at member
      cases member
  · intro node directory
    rcases directories.mp directory with rfl | rfl | rfl
    · exact .refl
    · exact .single second
    · exact .head third (.single second)

/-- A request from the domain of the lowest directory is home there. -/
theorem routing_reaches_home_below : ∃ home, threeLevelTree.IsDirectory home ∧
    threeLevelTree.getHomeNode 0 = .ok (threeLevelTree.idOf home) ∧
    ((∃ n, walk threeLevelTree 0 n 12 = some (threeLevelTree.idOf home)) ↔ Meets threeLevelTree 0 home 12) :=
  routing_reaches_home_iff made_threeLevels built_threeLevels single_threeLevels (.inl ⟨3,by decide +kernel⟩) 0

/-- A request from the domain of the root goes between the first two directories for ever. -/
theorem request_goes_round : threeLevelBuilder.build = .ok threeLevelTree ∧ threeLevelTree.SingleRooted 0 ∧
    Present threeLevelTree 10 ∧ threeLevelTree.getHomeNode 0 = .ok 3 ∧ ¬ ∃ n, walk threeLevelTree 0 n 10 = some 3 := by
  have hops : hop threeLevelTree 0 10 = some 1 ∧ hop threeLevelTree 0 1 = some 2 ∧ hop threeLevelTree 0 2 = some 1 := by
    decide +kernel
  obtain ⟨start,down,up⟩ := hops
  have round : ∀ n, walk threeLevelTree 0 n 1 ≠ some 3 ∧ walk threeLevelTree 0 n 2 ≠ some 3 := by
    intro n
    induction n with
    | zero => exact ⟨by decide,by decide⟩
    | succ n ih =>
      rw [walk,walk,down,up]
      exact ⟨ih.2,ih.1⟩
  refine ⟨built_threeLevels,single_threeLevels,.inl ⟨1,by decide +kernel⟩,by decide +kernel,?_⟩
  rintro ⟨n,walked⟩
  cases n with
  | zero => cases walked
  | succ n =>
    rw [walk,start] at walked
    exact (round n).1 walked

end FlowSim.Coherence
