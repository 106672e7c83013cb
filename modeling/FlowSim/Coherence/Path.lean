import FlowSim.Coherence.Reaching

/-!
The path of a request to the home of its address. The loops over the parents are bounded by
fuel here, and have no result when it does not suffice. In a tree with one root they end, and
the path is the way along the tree, but for a requester that is a directory and has not the
home above it, and for a home below the requester's directory
(`coherencePath_iff`).
-/
namespace FlowSim.Coherence
open FlowSim.Lib
set_option linter.unusedSimpArgs false

namespace CoherenceTree
variable (t : CoherenceTree)

def hasID (id : Int) (ref : NodeRef) : Bool := decide (t.idOf ref = id)

/-- The common parent, looked for from the second node on. -/
def commonParent (fuel : Nat) (node1 node2 : NodeRef) : Option (Option NodeRef) := do
  let (ancestors,_) ← climbTo t.parentOf (fun _ => false) fuel (some node1)
  let (_,met) ← climbTo t.parentOf (fun current => ancestors.any (t.hasID (t.idOf current))) fuel (some node2)
  return met.bind fun current => ancestors.reverse.find? (t.hasID (t.idOf current))

def pathToAncestor (fuel : Nat) (node ancestor : NodeRef) : Option (List Int) := do
  let (passed,met) ← climbTo t.parentOf (t.hasID (t.idOf ancestor)) fuel (t.parentOf node)
  return t.idOf node :: (passed ++ met.toList).map t.idOf

def pathFromAncestor (fuel : Nat) (ancestor node : NodeRef) : Option (List Int) := do
  let (passed,_) ← climbTo t.parentOf (t.hasID (t.idOf ancestor)) fuel (t.parentOf node)
  return ((node :: passed).map t.idOf).reverse

def noDirectory (requesterID : Int) : String := "无法找到 requester " ++ toString requesterID ++ " 的 Directory"

def noPath (requesterID homeNodeID : Int) : String :=
  "无法找到从 " ++ toString requesterID ++ " 到 Home Node " ++ toString homeNodeID ++ " 的路径"

/-- The directory of a requester, and the path that leads there. -/
def requesterDir (requesterID : Int) : Option (NodeRef × List Int) :=
  match t.directoryNodes.find? (fun entry => requesterID ∈ (t.node entry.2).domain) with
  | some (_,dirNode) => some (dirNode,[requesterID,t.idOf dirNode])
  | none => (find t.directoryNodes requesterID).map fun dirNode => (dirNode,[requesterID])

/-- The path over a common parent, for a home that is not above the requester. -/
def pathOverParent (fuel : Nat) (requesterID homeNodeID : Int) (dirNode : NodeRef) : Option (Except String (List Int)) :=
  match find t.directoryNodes homeNodeID with
  | none => some (.error (noPath requesterID homeNodeID))
  | some homeNode => do
    match ← t.commonParent fuel dirNode homeNode with
    | none => return .error (noPath requesterID homeNodeID)
    | some parent =>
      let pathToParent ← t.pathToAncestor fuel dirNode parent
      let pathFromParent ← t.pathFromAncestor fuel parent homeNode
      return .ok (requesterID :: (pathToParent ++ pathFromParent))

/-- The path from a requester to the home of an address. -/
def getCoherencePath (fuel : Nat) (requesterID : Int) (addr : UInt64) : Option (Except String (List Int)) :=
  match t.getHomeNode addr with
  | .error err => some (.error err)
  | .ok homeNodeID =>
    if requesterID = homeNodeID then some (.ok [requesterID])
    else match t.requesterDir requesterID with
    | none => some (.error (noDirectory requesterID))
    | some (dirNode,path) =>
      if t.idOf dirNode = homeNodeID then some (.ok path)
      else do
        match ← climbTo t.parentOf (t.hasID homeNodeID) fuel (t.parentOf dirNode) with
        | (passed,some home) => return .ok (path ++ (passed ++ [home]).map t.idOf)
        | (_,none) => t.pathOverParent fuel requesterID homeNodeID dirNode

/-! ### What a path should be -/

/-- One of two directories is the parent of the other. -/
def Linked (a b : Int) : Prop :=
  ∃ child parent, t.IsDirectory child ∧ t.parentOf child = some parent ∧
    (t.idOf child = a ∧ t.idOf parent = b ∨ t.idOf parent = a ∧ t.idOf child = b)

/-- A path to the home that begins at the requester, goes over its directory when it is in a
    domain, then along the tree, and meets no node twice. -/
structure TreePath (requesterID homeID : Int) (path : List Int) : Prop where
  starts : path.head? = some requesterID
  continues : ∀ {dirID}, (requesterID,dirID) ∈ t.members → path[1]? = some dirID
  ends : path.getLast? = some homeID
  moves : List.IsChain t.Linked (if requesterID ∈ t.members.map Prod.fst then path.tail else path)
  once : path.Nodup

/-- On the way along the tree between two directories: above one of them only, or the lowest
    that is above both. -/
def OnTheWay (a b x : NodeRef) : Prop :=
  Climbs t.parentOf a x ∧ ¬ Climbs t.parentOf b x ∨ Climbs t.parentOf b x ∧ ¬ Climbs t.parentOf a x ∨
    Climbs t.parentOf a x ∧ Climbs t.parentOf b x ∧
      ∀ y, Climbs t.parentOf a y → Climbs t.parentOf b y → Climbs t.parentOf x y

/-- Where a requester is when its path is right. A member of a domain is not itself on the way
    from its directory to the home, which is below that directory only if that is the root. A
    directory in no domain has the home above it, or is the home. -/
structure WellPlaced (root home : NodeRef) (requesterID : Int) : Prop where
  member : ∀ {dirID dir}, (dirID,dir) ∈ t.directoryNodes → requesterID ∈ (t.node dir).domain →
    (∀ x, t.OnTheWay dir home x → t.idOf x ≠ requesterID) ∧ (Climbs t.parentOf home dir → home = dir ∨ dir = root)
  directory : (∀ dirID, (requesterID,dirID) ∉ t.members) → ∀ {dir}, (requesterID,dir) ∈ t.directoryNodes →
    Climbs t.parentOf dir home

/-! ### The way along the tree -/

variable {t} {root a b c x : NodeRef} {before before' rest : List NodeRef}

theorem Named.eq_of_id (named : t.Named) (isA : t.IsDirectory a) (isB : t.IsDirectory b) (same : t.idOf a = t.idOf b) :
    a = b := by
  obtain ⟨idA,isA⟩ := isA
  obtain ⟨idB,isB⟩ := isB
  rw [named.named isA,named.named isB] at same
  subst same
  exact value_unique named.keys isA isB

theorem Named.hasID_eq (named : t.Named) (isA : t.IsDirectory a) (isB : t.IsDirectory b) :
    t.hasID (t.idOf a) b = decide (b = a) :=
  decide_eq_decide.mpr ⟨fun same => named.eq_of_id isB isA same,fun same => congrArg t.idOf same⟩

variable (t) in
/-- The way up from the first node to where it meets the way up from the second, and the rest
    of both. -/
structure Way (a b : NodeRef) (before : List NodeRef) (c : NodeRef) (before' rest : List NodeRef) : Prop where
  up : Ladder t.parentOf a (before ++ c :: rest)
  down : Ladder t.parentOf b (before' ++ c :: rest)
  apart : ∀ x ∈ before, x ∉ before' ++ c :: rest
  apart' : ∀ x ∈ before', x ∉ before ++ c :: rest
  directories : ∀ x ∈ before ++ c :: rest, t.IsDirectory x
  directories' : ∀ x ∈ before' ++ c :: rest, t.IsDirectory x
  short : (before ++ c :: rest).length ≤ t.size
  short' : (before' ++ c :: rest).length ≤ t.size

theorem exists_way (single : t.SingleRooted root) (named : t.Named) (isA : t.IsDirectory a) (isB : t.IsDirectory b) :
    ∃ before c before' rest, t.Way a b before c before' rest := by
  obtain ⟨l,ladder,short,-⟩ := single.ladder named isA
  obtain ⟨l',ladder',short',-⟩ := single.ladder named isB
  obtain ⟨before,before',c,rest,rfl,rfl,apart,apart'⟩ :=
    ladder.meet ladder' (ladder.mem_iff.mpr (single.rooted isA)) (ladder'.mem_iff.mpr (single.rooted isB))
  exact ⟨before,c,before',rest,ladder,ladder',apart,apart',fun x member => single.above isA (ladder.mem_iff.mp member),
    fun x member => single.above isB (ladder'.mem_iff.mp member),short,short'⟩

namespace Way
variable (way : t.Way a b before c before' rest)
include way

theorem symm : t.Way b a before' c before rest :=
  ⟨way.down,way.up,way.apart',way.apart,way.directories',way.directories,way.short',way.short⟩

theorem climbs_iff : Climbs t.parentOf a x ↔ x ∈ before ++ c :: rest := way.up.mem_iff.symm

/-- What is above both is above where the ways meet. -/
theorem common_iff : Climbs t.parentOf a x ∧ Climbs t.parentOf b x ↔ x ∈ c :: rest := by
  rw [way.climbs_iff,way.symm.climbs_iff]
  constructor
  · rintro ⟨above,above'⟩
    rcases List.mem_append.mp above with early | late
    · exact absurd above' (way.apart x early)
    · exact late
  · intro late
    exact ⟨List.mem_append_right _ late,List.mem_append_right _ late⟩

theorem onTheWay_iff : t.OnTheWay a b x ↔ x ∈ before ++ c :: before'.reverse := by
  have meets := way.up.drop
  have only : ∀ {a b before before'}, t.Way a b before c before' rest →
      (Climbs t.parentOf a x ∧ ¬ Climbs t.parentOf b x ↔ x ∈ before) := by
    intro a b before before' way
    rw [way.climbs_iff,way.symm.climbs_iff]
    constructor
    · rintro ⟨above,other⟩
      rcases List.mem_append.mp above with early | late
      · exact early
      · exact absurd (List.mem_append_right _ late) other
    · intro early
      exact ⟨List.mem_append_left _ early,way.apart x early⟩
  have lowest : (Climbs t.parentOf a x ∧ Climbs t.parentOf b x ∧
      ∀ y, Climbs t.parentOf a y → Climbs t.parentOf b y → Climbs t.parentOf x y) ↔ x = c := by
    rw [← and_assoc,way.common_iff]
    constructor
    · rintro ⟨late,lowest⟩
      obtain ⟨above,above'⟩ := way.common_iff.mpr List.mem_cons_self
      exact (meets.antisymm (meets.mem_iff.mp late) (lowest c above above')).symm
    · rintro rfl
      exact ⟨List.mem_cons_self,fun y above above' => meets.mem_iff.mp (way.common_iff.mp ⟨above,above'⟩)⟩
  unfold OnTheWay
  rw [only way,only way.symm,lowest,List.mem_append,List.mem_cons,List.mem_reverse]
  exact or_congr_right or_comm

theorem directory_of_mem (member : x ∈ before ++ c :: before'.reverse) : t.IsDirectory x := by
  rcases List.mem_append.mp member with early | late
  · exact way.directories x (List.mem_append_left _ early)
  · rcases List.mem_cons.mp late with rfl | early
    · exact way.directories x (List.mem_append_right _ List.mem_cons_self)
    · exact way.directories' x (List.mem_append_left _ (List.mem_reverse.mp early))

/-- No two nodes on the way have the same id. -/
theorem nodup (named : t.Named) : ((before ++ c :: before'.reverse).map t.idOf).Nodup := by
  have fresh : ∀ {a b before before'}, t.Way a b before c before' rest → (before ++ [c]).Nodup := by
    intro a b before before' way
    exact way.up.nodup.sublist ((List.append_sublist_append_left before).mpr (List.singleton_sublist.mpr List.mem_cons_self))
  refine List.Nodup.map_on (fun x inside y inside' same => ?_) ?_
  · exact named.eq_of_id (way.directory_of_mem inside) (way.directory_of_mem inside') same
  · rw [← List.singleton_append,← List.append_assoc,List.nodup_append]
    refine ⟨fresh way,List.nodup_reverse.mpr (fresh way.symm).of_append_left,?_⟩
    rintro x member _ member' rfl
    refine way.apart' x (List.mem_reverse.mp member') ?_
    rcases List.mem_append.mp member with early | late
    · exact List.mem_append_left _ early
    · obtain rfl := List.mem_singleton.mp late
      exact List.mem_append_right _ List.mem_cons_self

/-- Along the way each directory is next to its parent. -/
theorem linked : ((before ++ c :: before'.reverse).map t.idOf).IsChain t.Linked := by
  rw [List.isChain_map]
  have upwards : ∀ {a b before before'}, t.Way a b before c before' rest →
      (before ++ [c]).IsChain fun x y => t.IsDirectory x ∧ t.parentOf x = some y := by
    intro a b before before' way
    have chain := (List.isChain_split.mp way.up.isChain).1
    exact chain.imp_of_mem_imp fun x y member _ above => ⟨way.directory_of_mem (by grind),above⟩
  rw [List.isChain_split]
  constructor
  · exact (upwards way).imp fun x y ⟨isX,above⟩ => ⟨x,y,isX,above,.inl ⟨rfl,rfl⟩⟩
  · have turned : c :: before'.reverse = (before' ++ [c]).reverse := by simp
    rw [turned,List.isChain_reverse]
    exact (upwards way.symm).imp fun y x ⟨isY,above⟩ => ⟨y,x,isY,above,.inr ⟨rfl,rfl⟩⟩

end Way

/-! ### The loops -/

section
variable {fuel : Nat} {l mid : List NodeRef}

/-- The loop over the parents stops at the directory that it looks for. -/
theorem Named.climbTo_found (named : t.Named) (ladder : Ladder t.parentOf a (a :: (mid ++ x :: rest)))
    (directories : ∀ y ∈ mid ++ x :: rest, t.IsDirectory y) (enough : (mid ++ x :: rest).length < fuel) :
    climbTo t.parentOf (t.hasID (t.idOf x)) fuel (t.parentOf a) = some (mid,some x) := by
  have isX := directories x (List.mem_append_right _ List.mem_cons_self)
  refine ladder.climbTo_above_found ?_ (decide_eq_true rfl) enough
  intro y member
  rw [named.hasID_eq isX (directories y (List.mem_append_left _ member))]
  refine decide_eq_false ?_
  rintro rfl
  have fresh := (List.nodup_cons.mp ladder.nodup).2
  exact List.disjoint_of_nodup_append fresh member List.mem_cons_self

/-- It goes to the top when that is not above. -/
theorem Named.climbTo_none (named : t.Named) (ladder : Ladder t.parentOf a (a :: l)) (directories : ∀ y ∈ l, t.IsDirectory y)
    (isX : t.IsDirectory x) (absent : x ∉ l) (enough : l.length < fuel) :
    climbTo t.parentOf (t.hasID (t.idOf x)) fuel (t.parentOf a) = some (l,none) := by
  refine ladder.climbTo_above_none ?_ enough
  intro y member
  rw [named.hasID_eq isX (directories y member)]
  refine decide_eq_false ?_
  rintro rfl
  exact absent member

namespace Way
variable (way : t.Way a b before c before' rest) (named : t.Named) (enough : t.size < fuel)
include way named enough

theorem commonParent_eq : t.commonParent fuel a b = some (some c) := by
  have known : ∀ {y}, y ∈ before' ++ c :: rest →
      (before ++ c :: rest).any (t.hasID (t.idOf y)) = decide (y ∈ before ++ c :: rest) := by
    intro y member
    rw [Bool.eq_iff_iff,List.any_eq_true,decide_eq_true_iff]
    constructor
    · rintro ⟨z,inside,same⟩
      rw [named.hasID_eq (way.directories' y member) (way.directories z inside),decide_eq_true_iff] at same
      exact same ▸ inside
    · intro inside
      exact ⟨y,inside,decide_eq_true rfl⟩
  have first := way.up.climbTo_top (Nat.lt_of_le_of_lt way.short enough)
  have second : climbTo t.parentOf (fun current => (before ++ c :: rest).any (t.hasID (t.idOf current))) fuel (some b) =
      some (before',some c) := by
    refine way.down.climbTo_found ?_ ?_ (Nat.lt_of_le_of_lt way.short' enough)
    · intro y early
      rw [known (List.mem_append_left _ early)]
      exact decide_eq_false (way.apart' y early)
    · rw [known (List.mem_append_right _ List.mem_cons_self)]
      exact decide_eq_true (List.mem_append_right _ List.mem_cons_self)
  have found : (before ++ c :: rest).reverse.find? (t.hasID (t.idOf c)) = some c := by
    have inside : c ∈ before ++ c :: rest := List.mem_append_right _ List.mem_cons_self
    have some_found : ((before ++ c :: rest).reverse.find? (t.hasID (t.idOf c))).isSome :=
      List.find?_isSome.mpr ⟨c,List.mem_reverse.mpr inside,decide_eq_true rfl⟩
    obtain ⟨y,found⟩ := Option.isSome_iff_exists.mp some_found
    have same := List.find?_some found
    rw [named.hasID_eq (way.directories c inside)
      (way.directories y (List.mem_reverse.mp (List.mem_of_find?_eq_some found))),decide_eq_true_iff] at same
    rw [found,same]
  simp only [commonParent,first,second,Option.bind_eq_bind,Option.bind_some,Option.pure_def,found]

/-- Up to where the ways meet, the path goes along the tree, unless that is where it begins:
    then it goes to the top. -/
theorem pathToAncestor_eq : t.pathToAncestor fuel a c =
    some ((if before = [] then c :: rest else before ++ [c]).map t.idOf) := by
  have short := Nat.lt_of_le_of_lt way.short enough
  obtain ⟨later,starts⟩ := way.up.head
  cases before with
  | nil =>
    obtain ⟨rfl,rfl⟩ := List.cons.inj starts
    have top := named.climbTo_none (x := c) (l := rest) way.up (fun y member => way.directories y (List.mem_cons_of_mem _ member))
      (way.directories c List.mem_cons_self) (List.nodup_cons.mp way.up.nodup).1 (Nat.lt_of_succ_lt short)
    simp [pathToAncestor,top]
  | cons y mid =>
    obtain ⟨rfl,rfl⟩ := List.cons.inj starts
    have found : climbTo t.parentOf (t.hasID (t.idOf c)) fuel (t.parentOf y) = some (mid,some c) :=
      named.climbTo_found way.up (fun y member => way.directories y (List.mem_cons_of_mem _ member)) (Nat.lt_of_succ_lt short)
    simp [pathToAncestor,found]

/-- Down from there it is the way to the second node, unless that is where the ways meet. -/
theorem pathFromAncestor_eq (below : before' ≠ []) :
    t.pathFromAncestor fuel c b = some (before'.reverse.map t.idOf) := by
  have short := Nat.lt_of_le_of_lt way.short' enough
  obtain ⟨later,starts⟩ := way.down.head
  cases before' with
  | nil => exact absurd rfl below
  | cons y mid =>
    obtain ⟨rfl,rfl⟩ := List.cons.inj starts
    have found : climbTo t.parentOf (t.hasID (t.idOf c)) fuel (t.parentOf y) = some (mid,some c) :=
      named.climbTo_found way.down (fun y member => way.directories' y (List.mem_cons_of_mem _ member)) (Nat.lt_of_succ_lt short)
    simp [pathFromAncestor,found]

end Way

end

/-! ### The walks of the router -/

theorem findSome?_eq_bind {α β : Type} (f : α → Option β) : ∀ l : List α, l.findSome? f = (l.find? fun a => (f a).isSome).bind f
  | [] => rfl
  | a :: l => by
    rw [List.findSome?_cons,List.find?_cons]
    cases found : f a with
    | none => exact findSome?_eq_bind f l
    | some b => simp [found]

theorem takeThrough_eq {α : Type} (p : α → Bool) : ∀ l : List α,
    takeThrough p l = l.takeWhile (fun a => !p a) ++ (l.find? p).toList
  | [] => rfl
  | a :: l => by
    rw [takeThrough,takeThrough_eq p l]
    by_cases stops : p a = true
    · simp [stops]
    · simp [stops]

section
variable {fuel : Nat} {l l' : List NodeRef}

/-- With enough fuel, the loops find what the router's tables are made from. -/
theorem commonParent_eq_findCommonParent (ladder : Ladder t.parentOf a l) (ladder' : Ladder t.parentOf b l')
    (short : l.length ≤ t.size) (short' : l'.length ≤ t.size) (enough : t.size < fuel) :
    t.commonParent fuel a b = some (t.findCommonParent a b) := by
  have known : (fun current => l.any (t.hasID (t.idOf current))) =
      fun current => (l.reverse.find? (t.hasID (t.idOf current))).isSome := by
    funext current
    rw [Bool.eq_iff_iff,List.any_eq_true,List.find?_isSome]
    exact exists_congr fun x => and_congr_left fun _ => List.mem_reverse.symm
  have search : t.findCommonParent a b = l'.findSome? fun current => l.reverse.find? (t.hasID (t.idOf current)) := by
    unfold findCommonParent ancestors
    rw [ladder.climb_eq short,ladder'.climb_eq short']
    rfl
  rw [search,findSome?_eq_bind]
  simp only [commonParent,ladder.climbTo_top (Nat.lt_of_le_of_lt short enough),
    ladder'.climbTo_eq _ (Nat.lt_of_le_of_lt short' enough),known,Option.bind_eq_bind,Option.bind_some,Option.pure_def]

theorem pathToAncestor_eq_getPathToAncestor (ladder : Ladder t.parentOf a (a :: l)) (short : (a :: l).length ≤ t.size)
    (enough : t.size < fuel) (ancestor : NodeRef) : t.pathToAncestor fuel a ancestor = some (t.getPathToAncestor a ancestor) := by
  have climbed := ladder.climbTo_above (t.hasID (t.idOf ancestor)) (Nat.lt_of_succ_lt (Nat.lt_of_le_of_lt short enough))
  unfold getPathToAncestor ancestors
  rw [ladder.climb_eq short,List.tail_cons,takeThrough_eq]
  simp only [pathToAncestor,climbed,Option.bind_eq_bind,Option.bind_some,Option.pure_def,List.map_cons]
  rfl

theorem pathFromAncestor_eq_getPathFromAncestor (ladder : Ladder t.parentOf b (b :: l)) (short : (b :: l).length ≤ t.size)
    (enough : t.size < fuel) (ancestor : NodeRef) :
    t.pathFromAncestor fuel ancestor b = some (t.getPathFromAncestor ancestor b) := by
  have climbed := ladder.climbTo_above (t.hasID (t.idOf ancestor)) (Nat.lt_of_succ_lt (Nat.lt_of_le_of_lt short enough))
  have apart : (fun current => !t.hasID (t.idOf ancestor) current) = fun current => decide (t.idOf current ≠ t.idOf ancestor) :=
    funext fun current => (decide_not (p := t.idOf current = t.idOf ancestor)).symm
  unfold getPathFromAncestor ancestors
  rw [ladder.climb_eq short,List.tail_cons,← apart]
  simp only [pathFromAncestor,climbed,Option.bind_eq_bind,Option.bind_some,Option.pure_def,List.map_cons]

/-- The path over the common parent is the one that the router's table is made from. -/
theorem pathOverParent_router (single : t.SingleRooted root) (named : t.Named) {dirID homeID : Int}
    (isDirectory : (dirID,a) ∈ t.directoryNodes) (isHome : (homeID,b) ∈ t.directoryNodes) (apart : dirID ≠ homeID)
    (enough : t.size < fuel) (requesterID : Int) : t.pathOverParent fuel requesterID homeID a =
      some (.ok (requesterID :: CoherenceRouter.computeDirectoryPath t dirID homeID)) := by
  obtain ⟨l,ladder,short,-⟩ := single.ladder named ⟨dirID,isDirectory⟩
  obtain ⟨l',ladder',short',-⟩ := single.ladder named ⟨homeID,isHome⟩
  obtain ⟨common,found⟩ := findCommonParent_isSome single named ⟨dirID,isDirectory⟩ ⟨homeID,isHome⟩
  have parent := commonParent_eq_findCommonParent ladder ladder' short short' enough
  rw [found] at parent
  obtain ⟨above,rfl⟩ := ladder.head
  obtain ⟨above',rfl⟩ := ladder'.head
  have up := pathToAncestor_eq_getPathToAncestor ladder short enough common
  have down := pathFromAncestor_eq_getPathFromAncestor ladder' short' enough common
  rw [computeDirectoryPath_eq named isDirectory isHome apart found,pathOverParent,find_of_mem named.keys isHome]
  simp only [parent,up,down,Option.bind_eq_bind,Option.bind_some,Option.pure_def]

end

/-! ### The path that is returned -/

section
variable {fuel : Nat} {requesterID : Int} {addr : UInt64} {path : List Int}

theorem requesterDir_member (distinct : (t.members.map Prod.fst).Nodup) (named : t.Named) {dirID : Int}
    (isDirectory : (dirID,a) ∈ t.directoryNodes) (inDomain : requesterID ∈ (t.node a).domain) :
    t.requesterDir requesterID = some (a,[requesterID,t.idOf a]) := by
  obtain ⟨dirNode,isDirectory',found⟩ := find_domain_listed distinct (mem_members.mpr ⟨a,isDirectory,inDomain⟩)
  obtain rfl := value_unique named.keys isDirectory isDirectory'
  unfold requesterDir
  rw [found]

theorem requesterDir_directory (named : t.Named) (isDirectory : (requesterID,a) ∈ t.directoryNodes)
    (alone : ∀ dirID, (requesterID,dirID) ∉ t.members) : t.requesterDir requesterID = some (a,[requesterID]) := by
  unfold requesterDir
  rw [find_domain_unlisted alone,find_of_mem named.keys isDirectory]
  rfl

namespace Way
variable (way : t.Way a b before c before' rest) (named : t.Named) (enough : t.size < fuel)
  (homeNode : t.getHomeNode addr = .ok (t.idOf b)) (away : requesterID ≠ t.idOf b)
  (found : t.requesterDir requesterID = some (a,path))
include way named enough homeNode away found

/-- Where the home is above the requester's directory, the path goes up to it. -/
theorem getCoherencePath_above (above : before' = []) : t.getCoherencePath fuel requesterID addr =
    some (.ok (path ++ (before ++ [c]).tail.map t.idOf)) := by
  subst above
  obtain ⟨later,starts⟩ := way.down.head
  obtain ⟨rfl,rfl⟩ := List.cons.inj starts
  obtain ⟨later,starts⟩ := way.up.head
  simp only [getCoherencePath,homeNode,if_neg away,found]
  cases before with
  | nil =>
    obtain ⟨rfl,-⟩ := List.cons.inj starts
    simp
  | cons y mid =>
    obtain ⟨rfl,rfl⟩ := List.cons.inj starts
    have apart : t.idOf y ≠ t.idOf c := by
      intro same
      obtain rfl := named.eq_of_id (way.directories y List.mem_cons_self)
        (way.directories c (List.mem_append_right _ List.mem_cons_self)) same
      exact way.apart y List.mem_cons_self List.mem_cons_self
    have stops : climbTo t.parentOf (t.hasID (t.idOf c)) fuel (t.parentOf y) = some (mid,some c) :=
      named.climbTo_found way.up (fun y member => way.directories y (List.mem_cons_of_mem _ member))
        (Nat.lt_of_succ_lt (Nat.lt_of_le_of_lt way.short enough))
    simp [if_neg apart,stops]

/-- Where it is not, the path is put together from the requester and the two parts. -/
theorem getCoherencePath_below (below : before' ≠ []) : t.getCoherencePath fuel requesterID addr =
    some (.ok (requesterID :: ((if before = [] then c :: rest else before ++ [c]) ++ before'.reverse).map t.idOf)) := by
  obtain ⟨later,starts⟩ := way.up.head
  obtain ⟨later',starts'⟩ := way.down.head
  have isHome : b ∈ before' := by
    cases before' with
    | nil => exact absurd rfl below
    | cons y mid => exact (List.cons.inj starts').1 ▸ List.mem_cons_self
  have isB := way.directories' b (List.mem_append_left _ isHome)
  have absent : b ∉ a :: later := starts ▸ way.apart' b isHome
  have within : ∀ y ∈ a :: later, t.IsDirectory y := starts ▸ way.directories
  have short : (a :: later).length ≤ t.size := starts ▸ way.short
  have apart : t.idOf a ≠ t.idOf b := by
    intro same
    obtain rfl := named.eq_of_id (within a List.mem_cons_self) isB same
    exact absent List.mem_cons_self
  have none_above : climbTo t.parentOf (t.hasID (t.idOf b)) fuel (t.parentOf a) = some (later,none) := named.climbTo_none
    (starts ▸ way.up) (fun y member => within y (List.mem_cons_of_mem _ member)) isB
    (fun member => absent (List.mem_cons_of_mem _ member)) (Nat.lt_of_succ_lt (Nat.lt_of_le_of_lt short enough))
  have entry : find t.directoryNodes (t.idOf b) = some b := by
    obtain ⟨homeID,isB⟩ := isB
    rw [named.named isB]
    exact find_of_mem named.keys isB
  simp [getCoherencePath,homeNode,away,found,apart,none_above,pathOverParent,entry,way.commonParent_eq named enough,
    way.pathToAncestor_eq named enough,way.pathFromAncestor_eq named enough below]

end Way

end

/-! ### Requesters -/

section
variable {home : NodeRef} {requesterID : Int} {path : List Int}

theorem wellPlaced_member (distinct : (t.members.map Prod.fst).Nodup) (named : t.Named) {dirID : Int}
    (isDirectory : (dirID,a) ∈ t.directoryNodes) (inDomain : requesterID ∈ (t.node a).domain) :
    t.WellPlaced root home requesterID ↔
      (∀ x, t.OnTheWay a home x → t.idOf x ≠ requesterID) ∧ (Climbs t.parentOf home a → home = a ∨ a = root) := by
  have listed : (requesterID,dirID) ∈ t.members := mem_members.mpr ⟨a,isDirectory,inDomain⟩
  constructor
  · intro placed
    exact placed.member isDirectory inDomain
  · intro placed
    refine ⟨?_,fun alone => absurd listed (alone dirID)⟩
    intro dirID' dir isDirectory' inDomain'
    obtain rfl := value_unique distinct listed (mem_members.mpr ⟨dir,isDirectory',inDomain'⟩)
    obtain rfl := value_unique named.keys isDirectory isDirectory'
    exact placed

theorem wellPlaced_directory (named : t.Named) (isDirectory : (requesterID,a) ∈ t.directoryNodes)
    (alone : ∀ dirID, (requesterID,dirID) ∉ t.members) :
    t.WellPlaced root home requesterID ↔ Climbs t.parentOf a home := by
  constructor
  · intro placed
    exact placed.directory alone isDirectory
  · intro climbs
    refine ⟨fun {dirID dir} isDirectory' inDomain => ?_,fun _ {dir} isDirectory' => ?_⟩
    · exact absurd (mem_members.mpr ⟨dir,isDirectory',inDomain⟩) (alone dirID)
    · obtain rfl := value_unique named.keys isDirectory isDirectory'
      exact climbs

namespace Way
variable (way : t.Way a b before c before' rest) (named : t.Named)
include way

theorem starts : ∃ later, before ++ [c] = a :: later := by
  obtain ⟨later,starts⟩ := way.up.head
  cases before with
  | nil => exact ⟨[],by rw [List.nil_append,(List.cons.inj starts).1]⟩
  | cons y mid => exact ⟨mid ++ [c],by rw [List.cons_append,(List.cons.inj starts).1]⟩

theorem route_head : ((before ++ c :: before'.reverse).map t.idOf).head? = some (t.idOf a) := by
  obtain ⟨later,starts⟩ := way.starts
  rw [← List.singleton_append,← List.append_assoc,starts]
  rfl

theorem route_getLast : ((before ++ c :: before'.reverse).map t.idOf).getLast? = some (t.idOf b) := by
  rw [← List.head?_reverse,← List.map_reverse,List.reverse_append,List.reverse_cons,List.reverse_reverse,List.append_assoc,
    List.singleton_append,← List.reverse_reverse before']
  have turned := way.symm.route_head
  simpa using turned

include named

/-- The requester and the way from its directory make a path just if the requester is not on
    the way. -/
theorem treePath_member (distinct : (t.members.map Prod.fst).Nodup) {dirID : Int} (isDirectory : (dirID,a) ∈ t.directoryNodes)
    (inDomain : requesterID ∈ (t.node a).domain) :
    t.TreePath requesterID (t.idOf b) (requesterID :: (before ++ c :: before'.reverse).map t.idOf) ↔
      ∀ x, t.OnTheWay a b x → t.idOf x ≠ requesterID := by
  have listed : (requesterID,dirID) ∈ t.members := mem_members.mpr ⟨a,isDirectory,inDomain⟩
  have fresh : requesterID ∉ (before ++ c :: before'.reverse).map t.idOf ↔ ∀ x, t.OnTheWay a b x → t.idOf x ≠ requesterID := by
    simp only [List.mem_map,not_exists,not_and,way.onTheWay_iff]
  rw [← fresh]
  constructor
  · intro treePath
    exact (List.nodup_cons.mp treePath.once).1
  · intro fresh
    refine ⟨rfl,?_,?_,?_,List.nodup_cons.mpr ⟨fresh,way.nodup named⟩⟩
    · intro dirID' listed'
      obtain rfl := value_unique distinct listed listed'
      rw [List.getElem?_cons_succ,← List.head?_eq_getElem?,way.route_head,named.named isDirectory]
    · rw [List.getLast?_cons,way.route_getLast]
      rfl
    · rw [if_pos (List.mem_map.mpr ⟨_,listed,rfl⟩)]
      exact way.linked

theorem treePath_directory (isDirectory : (requesterID,a) ∈ t.directoryNodes) (alone : ∀ dirID, (requesterID,dirID) ∉ t.members) :
    t.TreePath requesterID (t.idOf b) ((before ++ c :: before'.reverse).map t.idOf) := by
  refine ⟨?_,fun listed => absurd listed (alone _),way.route_getLast,?_,way.nodup named⟩
  · rw [way.route_head,named.named isDirectory]
  · rw [if_neg]
    · exact way.linked
    · intro listed
      obtain ⟨⟨nodeID,dirID⟩,isMember,rfl⟩ := List.mem_map.mp listed
      exact alone dirID isMember

/-- A path that goes from a directory below the root to the root, and on below the directory,
    leaves the tree. -/
theorem not_treePath_overshot (single : t.SingleRooted root) (start : before = []) (below : before' ≠ []) (higher : rest ≠ [])
    {dirID : Int} (listed : (requesterID,dirID) ∈ t.members) (homeID : Int) :
    ¬ t.TreePath requesterID homeID (requesterID :: ((c :: rest) ++ before'.reverse).map t.idOf) := by
  subst start
  intro treePath
  have moves := treePath.moves
  rw [if_pos (List.mem_map.mpr ⟨_,listed,rfl⟩),List.tail_cons,List.isChain_map,List.isChain_append] at moves
  obtain ⟨first,top,split,ends⟩ := way.up.getLast
  obtain ⟨lower,child,rfl⟩ := (List.eq_nil_or_concat before').resolve_left below
  have linked := moves.2.2 top (by rw [List.nil_append] at split; rw [split]; simp) child (by simp)
  have isTop := way.directories top (split ▸ List.mem_append_right _ (List.mem_singleton_self _))
  have isChild := way.directories' child (by simp)
  have above : t.parentOf child = some c := by
    have chain := way.down.isChain
    rw [List.concat_eq_append,List.append_assoc,List.singleton_append] at chain
    exact (List.isChain_append_cons_cons.mp chain).2.1
  have apart : c ≠ top := by
    rintro rfl
    obtain ⟨after,last,rfl⟩ := (List.eq_nil_or_concat rest).resolve_left higher
    have fresh := (List.nodup_cons.mp way.up.nodup).1
    have same : (c :: after) ++ [last] = first ++ [c] := by simpa using split
    obtain ⟨-,last_eq⟩ := List.append_inj' same rfl
    exact fresh (by simp [(List.cons.inj last_eq).1])
  rcases linked with ⟨k,p,isK,upper,⟨low,-⟩ | ⟨high,low⟩⟩
  · obtain rfl := named.eq_of_id isK isTop low
    cases ends.symm.trans upper
  · obtain rfl := named.eq_of_id isK isChild low
    obtain rfl := Option.some.inj (above.symm.trans upper)
    exact apart (named.eq_of_id (single.parents isK upper).1 isTop high)

end Way

theorem onTheWay_end (a b : NodeRef) : t.OnTheWay a b b := by
  by_cases climbs : Climbs t.parentOf a b
  · exact .inr (.inr ⟨climbs,.refl,fun _ _ above => above⟩)
  · exact .inr (.inl ⟨.refl,climbs⟩)

/-- The second node is not below the first, or that is the root, just if the way does not go
    down from where it begins with something above it. -/
theorem Way.not_below_iff (way : t.Way a b before c before' rest) (single : t.SingleRooted root) :
    (Climbs t.parentOf b a → b = a ∨ a = root) ↔ before' = [] ∨ before ≠ [] ∨ rest = [] := by
  obtain ⟨later,starts⟩ := way.up.head
  obtain ⟨later',starts'⟩ := way.down.head
  rw [way.symm.climbs_iff]
  cases before with
  | cons y mid =>
    obtain ⟨rfl,-⟩ := List.cons.inj starts
    exact iff_of_true (fun below => absurd below (way.apart y List.mem_cons_self)) (.inr (.inl (List.cons_ne_nil _ _)))
  | nil =>
    obtain ⟨rfl,-⟩ := List.cons.inj starts
    have isC := way.directories c List.mem_cons_self
    cases before' with
    | nil =>
      obtain ⟨rfl,-⟩ := List.cons.inj starts'
      exact iff_of_true (fun _ => .inl rfl) (.inl rfl)
    | cons y mid =>
      obtain ⟨rfl,-⟩ := List.cons.inj starts'
      have apart : y ≠ c := fun same => way.apart' y List.mem_cons_self (same ▸ List.mem_cons_self)
      simp only [List.cons_ne_nil,ne_eq,not_true,false_or,apart]
      constructor
      · intro below
        rw [below (List.mem_append_right _ List.mem_cons_self)] at way
        rcases way.up.above with ⟨nothing,-⟩ | ⟨next,above,-⟩
        · exact nothing
        · cases single.top.symm.trans above
      · rintro rfl _
        rcases way.up.above with ⟨-,top⟩ | ⟨next,-,further⟩
        · exact single.eq_root isC top
        · obtain ⟨_,none_left⟩ := further.head
          cases none_left

/-- For a path that is returned with enough fuel, the question is whether it is right. -/
theorem treePath_iff_of_returned {addr : UInt64} {homeID : Int}
    (returned : ∀ fuel, t.size < fuel → t.getCoherencePath fuel requesterID addr = some (.ok path)) :
    (∃ path, (∀ fuel, t.size < fuel → t.getCoherencePath fuel requesterID addr = some (.ok path)) ∧
      t.TreePath requesterID homeID path) ↔ t.TreePath requesterID homeID path := by
  constructor
  · rintro ⟨path',returned',treePath⟩
    have same := (returned _ (Nat.lt_succ_self _)).symm.trans (returned' _ (Nat.lt_succ_self _))
    cases same
    exact treePath
  · exact fun treePath => ⟨path,returned,treePath⟩

section
variable (single : t.SingleRooted root) (named : t.Named) (distinct : (t.members.map Prod.fst).Nodup) {addr : UInt64}
  (isHome : t.IsDirectory home) (homeNode : t.getHomeNode addr = .ok (t.idOf home))
include single named isHome homeNode

include distinct

/-- For a requester in a domain, the path is right exactly when it is well placed. -/
theorem coherencePath_member {dirID : Int} (isDirectory : (dirID,a) ∈ t.directoryNodes)
    (inDomain : requesterID ∈ (t.node a).domain) :
    (∃ path, (∀ fuel, t.size < fuel → t.getCoherencePath fuel requesterID addr = some (.ok path)) ∧
      t.TreePath requesterID (t.idOf home) path) ↔ t.WellPlaced root home requesterID := by
  have listed : (requesterID,dirID) ∈ t.members := mem_members.mpr ⟨a,isDirectory,inDomain⟩
  obtain ⟨before,c,before',rest,way⟩ := exists_way single named ⟨dirID,isDirectory⟩ isHome
  rw [wellPlaced_member distinct named isDirectory inDomain,way.not_below_iff single]
  by_cases away : requesterID = t.idOf home
  · have returned : ∀ fuel, t.size < fuel → t.getCoherencePath fuel requesterID addr = some (.ok [requesterID]) := by
      intro fuel _
      simp only [getCoherencePath,homeNode,if_pos away]
    rw [treePath_iff_of_returned returned]
    refine iff_of_false (fun treePath => ?_) (fun placed => ?_)
    · cases treePath.continues listed
    · exact placed.1 home (onTheWay_end a home) away.symm
  · have found := requesterDir_member distinct named isDirectory inDomain
    by_cases straight : before' = [] ∨ before ≠ [] ∨ rest = []
    · have returned : ∀ fuel, t.size < fuel → t.getCoherencePath fuel requesterID addr =
          some (.ok (requesterID :: (before ++ c :: before'.reverse).map t.idOf)) := by
        intro fuel enough
        by_cases above : before' = []
        · rw [way.getCoherencePath_above named enough homeNode away found above]
          subst above
          obtain ⟨later,starts⟩ := way.starts
          rw [List.reverse_nil,starts]
          rfl
        · rw [way.getCoherencePath_below named enough homeNode away found above]
          rcases straight with none_below | start | top
          · exact absurd none_below above
          · rw [if_neg start,List.append_assoc,List.singleton_append]
          · subst top
            by_cases start : before = []
            · subst start
              rfl
            · rw [if_neg start,List.append_assoc,List.singleton_append]
      rw [treePath_iff_of_returned returned,way.treePath_member named distinct isDirectory inDomain,and_iff_left straight]
    · simp only [not_or,not_not] at straight
      obtain ⟨below,start,higher⟩ := straight
      have returned : ∀ fuel, t.size < fuel → t.getCoherencePath fuel requesterID addr =
          some (.ok (requesterID :: ((c :: rest) ++ before'.reverse).map t.idOf)) := by
        intro fuel enough
        rw [way.getCoherencePath_below named enough homeNode away found below,if_pos start]
      rw [treePath_iff_of_returned returned]
      refine iff_of_false (way.not_treePath_overshot named single start below higher listed _) ?_
      rintro ⟨-,none_below | away_from | top⟩
      · exact below none_below
      · exact away_from start
      · exact higher top

omit distinct in
/-- For a directory in no domain, it is right exactly when the home is above it. -/
theorem coherencePath_directory (isDirectory : (requesterID,a) ∈ t.directoryNodes)
    (alone : ∀ dirID, (requesterID,dirID) ∉ t.members) :
    (∃ path, (∀ fuel, t.size < fuel → t.getCoherencePath fuel requesterID addr = some (.ok path)) ∧
      t.TreePath requesterID (t.idOf home) path) ↔ t.WellPlaced root home requesterID := by
  rw [wellPlaced_directory named isDirectory alone]
  obtain ⟨before,c,before',rest,way⟩ := exists_way single named ⟨requesterID,isDirectory⟩ isHome
  by_cases away : requesterID = t.idOf home
  · have returned : ∀ fuel, t.size < fuel → t.getCoherencePath fuel requesterID addr = some (.ok [requesterID]) := by
      intro fuel _
      simp only [getCoherencePath,homeNode,if_pos away]
    rw [treePath_iff_of_returned returned]
    have same : a = home := named.eq_of_id ⟨_,isDirectory⟩ isHome ((named.named isDirectory).trans away)
    refine iff_of_true ⟨rfl,fun listed => absurd listed (alone _),congrArg some away,?_,List.nodup_singleton _⟩ (same ▸ .refl)
    split
    · exact .nil
    · exact .singleton _
  · have found := requesterDir_directory named isDirectory alone
    obtain ⟨later,starts⟩ := way.starts
    by_cases above : before' = []
    · have returned : ∀ fuel, t.size < fuel → t.getCoherencePath fuel requesterID addr =
          some (.ok ((before ++ c :: before'.reverse).map t.idOf)) := by
        intro fuel enough
        rw [way.getCoherencePath_above named enough homeNode away found above]
        subst above
        rw [List.reverse_nil,starts,List.tail_cons,List.map_cons,named.named isDirectory]
        rfl
      rw [treePath_iff_of_returned returned]
      refine iff_of_true (way.treePath_directory named isDirectory alone) (way.climbs_iff.mpr ?_)
      obtain ⟨later',starts'⟩ := way.down.head
      subst above
      obtain ⟨rfl,-⟩ := List.cons.inj starts'
      exact List.mem_append_right _ List.mem_cons_self
    · have returned : ∀ fuel, t.size < fuel → t.getCoherencePath fuel requesterID addr =
          some (.ok (requesterID :: ((if before = [] then c :: rest else before ++ [c]) ++ before'.reverse).map t.idOf)) :=
        fun fuel enough => way.getCoherencePath_below named enough homeNode away found above
      rw [treePath_iff_of_returned returned]
      refine iff_of_false (fun treePath => (List.nodup_cons.mp treePath.once).1 ?_) (fun climbs => ?_)
      · refine List.mem_map.mpr ⟨a,List.mem_append_left _ ?_,named.named isDirectory⟩
        by_cases start : before = []
        · subst start
          obtain ⟨rfl,-⟩ := List.cons.inj starts
          exact List.mem_cons_self
        · rw [if_neg start,starts]
          exact List.mem_cons_self
      · obtain ⟨later',starts'⟩ := way.down.head
        cases before' with
        | nil => exact above rfl
        | cons y mid =>
          obtain ⟨rfl,-⟩ := List.cons.inj starts'
          exact way.apart' y List.mem_cons_self (way.climbs_iff.mp climbs)

end

end

end CoherenceTree

/-- A request's path is right exactly when the requester is well placed: where it is, the path
    goes along the tree to the home, and where it is not, it does not. -/
theorem coherencePath_iff {config : AddressMappingConfig} {b : CoherenceTreeBuilder}
    (made : Reachable CoherenceTreeBuilder.step (.newCoherenceTreeBuilder config) b) {t : CoherenceTree}
    (built : b.build = .ok t) {root : NodeRef} (single : t.SingleRooted root) {requesterID : Int} (present : Present t requesterID)
    (addr : UInt64) :
    ∃ home, t.IsDirectory home ∧ t.getHomeNode addr = .ok (t.idOf home) ∧
      ((∃ path, (∀ fuel, t.size < fuel → t.getCoherencePath fuel requesterID addr = some (.ok path)) ∧
        t.TreePath requesterID (t.idOf home) path) ↔ t.WellPlaced root home requesterID) := by
  obtain ⟨named,distinct,-⟩ := (CoherenceTreeBuilder.ordered_of_reachable made).build built
  obtain ⟨home,isHome,homeNode⟩ := getHomeNode_directory single addr named
  refine ⟨home,isHome,homeNode,?_⟩
  by_cases alone : ∀ dirID, (requesterID,dirID) ∉ t.members
  · rcases present with ⟨dirID,listed⟩ | ⟨dir,isDirectory⟩
    · exact absurd listed (alone dirID)
    · exact CoherenceTree.coherencePath_directory single named isHome homeNode isDirectory alone
  · simp only [not_forall,not_not] at alone
    obtain ⟨dirID,listed⟩ := alone
    obtain ⟨dir,isDirectory,inDomain⟩ := CoherenceTree.mem_members.mp listed
    exact CoherenceTree.coherencePath_member single named distinct isHome homeNode isDirectory inDomain

theorem coherencePath_below : ∃ home, threeLevelTree.IsDirectory home ∧
    threeLevelTree.getHomeNode 0 = .ok (threeLevelTree.idOf home) ∧
    ((∃ path, (∀ fuel, threeLevelTree.size < fuel → threeLevelTree.getCoherencePath fuel 12 0 = some (.ok path)) ∧
      threeLevelTree.TreePath 12 (threeLevelTree.idOf home) path) ↔ threeLevelTree.WellPlaced 0 home 12) :=
  coherencePath_iff made_threeLevels built_threeLevels single_threeLevels (.inl ⟨3,by decide +kernel⟩) 0

/-- The path from the root down begins with the root twice. -/
theorem path_repeats_requester : threeLevelBuilder.build = .ok threeLevelTree ∧ threeLevelTree.SingleRooted 0 ∧
    Present threeLevelTree 1 ∧ threeLevelTree.getHomeNode 0 = .ok 3 ∧
    ¬ ∃ path, (∀ fuel, threeLevelTree.size < fuel → threeLevelTree.getCoherencePath fuel 1 0 = some (.ok path)) ∧
      threeLevelTree.TreePath 1 3 path := by
  have returned : threeLevelTree.getCoherencePath 4 1 0 = some (.ok [1,1,2,3]) := by decide +kernel
  have size : threeLevelTree.size < 4 := by decide +kernel
  refine ⟨built_threeLevels,single_threeLevels,.inr ⟨0,by decide +kernel⟩,by decide +kernel,?_⟩
  rintro ⟨path,returned',treePath⟩
  cases returned.symm.trans (returned' 4 size)
  exact absurd treePath.once (by decide)

end FlowSim.Coherence
