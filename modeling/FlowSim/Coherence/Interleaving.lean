import FlowSim.Coherence.Path

/-!
Which directories interleaving uses. On the way down from the root every level divides the
same quotient of the address by the number of its children, so the choices at two levels are
independent only where these numbers are coprime. All leaves are homes just if they are on
every way, and an address is large enough to tell the leaves apart
(`every_leaf_is_home_iff`).
-/
namespace FlowSim.Coherence
open FlowSim.Lib
set_option linter.unusedSimpArgs false

namespace CoherenceTree

/-- Parents and children agree, no child is listed twice, all ways up end, and the root, if
    there is one, is at the top. -/
structure Forest (t : CoherenceTree) : Prop where
  parents : ∀ {node parent}, t.IsDirectory node → t.parentOf node = some parent →
    t.IsDirectory parent ∧ node ∈ (t.node parent).children
  children : ∀ {node child}, t.IsDirectory node → child ∈ (t.node node).children →
    t.IsDirectory child ∧ t.parentOf child = some node
  once : ∀ {node}, t.IsDirectory node → (t.node node).children.Nodup
  ends : ∀ {node}, t.IsDirectory node → ∃ l, Ladder t.parentOf node l
  top : ∀ {root}, t.root = some root → t.IsDirectory root ∧ t.parentOf root = none

variable (t : CoherenceTree)

/-- No directory has an address range. -/
def Unranged : Prop := ∀ {node}, t.IsDirectory node → (t.node node).addressResponsibility = none

/-- A directory without children. -/
def IsLeaf (node : NodeRef) : Prop := t.IsDirectory node ∧ (t.node node).children = []

def childIDs (node : NodeRef) : List Int := ((t.node node).children.map t.idOf).insertionSort (· ≤ ·)

/-- The place of a child among its parent's children, and the number of these. -/
def place (node parent : NodeRef) : Nat × Nat := ((t.childIDs parent).idxOf (t.idOf node),(t.childIDs parent).length)

/-- The places of a directory and of all that are above it. -/
def places (node : NodeRef) : List (Nat × Nat) := (t.ancestors node).filterMap fun node => (t.parentOf node).map (t.place node)

/-- The largest quotient of an address by the granularity. -/
def lastQuotient : Nat := (2 ^ 64 - 1) / t.addressMappingConfig.granularity.toNat

/-- The numbers of children on the way down to a leaf are pairwise coprime, and the least
    quotient that leads there is one of an address. -/
structure Separated (leaf : NodeRef) : Prop where
  coprime : (t.places leaf).Pairwise (Function.onFun Nat.Coprime Prod.snd)
  fits : (Nat.chineseRemainderOfList Prod.fst Prod.snd (t.places leaf) coprime : Nat) ≤ t.lastQuotient

/-- Below a single root, all leaves are separated. Without one, there is nothing below the
    roots, and there are not more of them than quotients. -/
def HomesSeparated : Prop :=
  match t.root with
  | some root => ∀ leaf, t.IsLeaf leaf → Climbs t.parentOf leaf root ∧ t.Separated leaf
  | none => (∀ node, t.IsDirectory node → t.parentOf node = none) ∧ t.directoryNodes.length ≤ t.lastQuotient + 1

/-! ### Places -/

variable {t} {root node parent child leaf : NodeRef}

theorem Forest.above (forest : t.Forest) {other : NodeRef} (directory : t.IsDirectory node)
    (climbs : Climbs t.parentOf node other) : t.IsDirectory other := by
  induction climbs with
  | refl => exact directory
  | tail _ above ih => exact (forest.parents ih above).1

theorem Forest.ladder (forest : t.Forest) (named : t.Named) (directory : t.IsDirectory node) :
    ∃ l, Ladder t.parentOf node l ∧ l.length ≤ t.size ∧ t.ancestors node = l := by
  obtain ⟨l,ladder⟩ := forest.ends directory
  have within : ∀ ref ∈ l, ref < t.size := by
    intro ref member
    obtain ⟨_,inMap⟩ := forest.above directory (ladder.mem_iff.mp member)
    exact named.inUse inMap
  exact ⟨l,ladder,ladder.length_le within,ladder.climb_eq (ladder.length_le within)⟩

theorem Forest.places_top (forest : t.Forest) (named : t.Named) (directory : t.IsDirectory node) (top : t.parentOf node = none) :
    t.places node = [] := by
  obtain ⟨l,ladder,-,ancestors⟩ := forest.ladder named directory
  obtain rfl := ladder.unique (.top top)
  rw [places,ancestors]
  simp [top]

theorem Forest.places_child (forest : t.Forest) (named : t.Named) (directory : t.IsDirectory child)
    (above : t.parentOf child = some parent) : t.places child = t.place child parent :: t.places parent := by
  obtain ⟨l,ladder,-,ancestors⟩ := forest.ladder named (forest.parents directory above).1
  obtain ⟨l',ladder',-,ancestors'⟩ := forest.ladder named directory
  obtain rfl := ladder'.unique (.rung above ladder)
  rw [places,ancestors',places,ancestors]
  simp [above]

theorem Forest.mem_places (forest : t.Forest) (named : t.Named) (directory : t.IsDirectory node) {p : Nat × Nat} :
    p ∈ t.places node ↔ ∃ child parent, Climbs t.parentOf node child ∧ t.parentOf child = some parent ∧
      t.place child parent = p := by
  obtain ⟨l,ladder,-,ancestors⟩ := forest.ladder named directory
  rw [places,ancestors,List.mem_filterMap]
  constructor
  · rintro ⟨child,above,isPlace⟩
    obtain ⟨parent,above',same⟩ := Option.map_eq_some_iff.mp isPlace
    exact ⟨child,parent,ladder.mem_iff.mp above,above',same⟩
  · rintro ⟨child,parent,climbs,above,same⟩
    exact ⟨child,ladder.mem_iff.mpr climbs,by rw [above,← same]; rfl⟩

theorem mem_childIDs {id : Int} : id ∈ t.childIDs node ↔ ∃ child ∈ (t.node node).children, t.idOf child = id := by
  rw [childIDs,List.mem_insertionSort,List.mem_map]

theorem childIDs_length : (t.childIDs node).length = (t.node node).children.length := by
  rw [childIDs,List.length_insertionSort,List.length_map]

theorem Forest.childIDs_nodup (forest : t.Forest) (named : t.Named) (directory : t.IsDirectory node) :
    (t.childIDs node).Nodup := by
  rw [childIDs,(List.perm_insertionSort _ _).nodup_iff]
  refine (forest.once directory).map_on fun a isA b isB same => ?_
  exact named.eq_of_id (forest.children directory isA).1 (forest.children directory isB).1 same

theorem place_lt (member : child ∈ (t.node parent).children) : (t.place child parent).1 < (t.place child parent).2 :=
  List.idxOf_lt_length_iff.mpr (mem_childIDs.mpr ⟨child,member,rfl⟩)

/-! ### The search -/

section
variable (forest : t.Forest) (named : t.Named) (unranged : t.Unranged) {addr : UInt64}
include forest named unranged

/-- The search goes on to the child whose place is the quotient's remainder. -/
theorem findResponsibleNode_child (directory : t.IsDirectory node) (member : child ∈ (t.node node).children)
    (chosen : t.interleaved addr (t.place child node).2 = (t.place child node).1) (depth : Nat) :
    t.findResponsibleNode addr (depth + 1) node = t.findResponsibleNode addr depth child := by
  have no_range : (t.node node).children.any (fun child => (t.node child).addressResponsibility.isSome) = false := by
    refine List.any_eq_false.mpr fun other isChild => ?_
    rw [unranged (forest.children directory isChild).1]
    exact Bool.false_ne_true
  have selected : (t.childIDs node)[t.interleaved addr (t.childIDs node).length]? = some (t.idOf child) := by
    rw [show t.interleaved addr (t.childIDs node).length = (t.childIDs node).idxOf (t.idOf child) from chosen]
    exact List.getElem?_idxOf (mem_childIDs.mpr ⟨child,member,rfl⟩)
  rw [childIDs] at selected
  have found : (t.node node).children.find? (fun other => decide (t.idOf other = t.idOf child)) = some child := by
    have some_found : ((t.node node).children.find? (fun other => decide (t.idOf other = t.idOf child))).isSome :=
      List.find?_isSome.mpr ⟨child,member,decide_eq_true rfl⟩
    obtain ⟨other,found⟩ := Option.isSome_iff_exists.mp some_found
    have same : t.idOf other = t.idOf child := by simpa using List.find?_some found
    rw [found,named.eq_of_id (forest.children directory (List.mem_of_find?_eq_some found)).1
      (forest.children directory member).1 same]
  rw [findResponsibleNode,if_neg (fun none => List.ne_nil_of_mem member (List.length_eq_zero_iff.mp none)),no_range,
    if_neg Bool.false_ne_true]
  dsimp only
  rw [selected]
  dsimp only
  rw [found]

omit unranged in
/-- One of the children has that place. -/
theorem exists_chosen (directory : t.IsDirectory node) (some_child : (t.node node).children ≠ []) (q : Nat) :
    ∃ child ∈ (t.node node).children, q % (t.place child node).2 = (t.place child node).1 := by
  have positive : 0 < (t.childIDs node).length := by
    rw [childIDs_length]
    exact List.length_pos_iff.mpr some_child
  have inside : q % (t.childIDs node).length < (t.childIDs node).length := Nat.mod_lt _ positive
  obtain ⟨child,member,same⟩ := mem_childIDs.mp (List.getElem_mem inside)
  refine ⟨child,member,?_⟩
  show q % (t.childIDs node).length = (t.childIDs node).idxOf (t.idOf child)
  rw [same,(forest.childIDs_nodup named directory).idxOf_getElem]

variable (t) in
/-- The quotient leads to the node at every level. -/
def LeadsTo (q : Nat) (node : NodeRef) : Prop := ∀ p ∈ t.places node, q ≡ p.1 [MOD p.2]

omit unranged in
theorem leadsTo_top (directory : t.IsDirectory node) (top : t.parentOf node = none) (q : Nat) : t.LeadsTo q node := by
  unfold LeadsTo
  rw [forest.places_top named directory top]
  exact fun _ none => absurd none List.not_mem_nil

omit unranged in
theorem leadsTo_child (directory : t.IsDirectory node) (member : child ∈ (t.node node).children) {q : Nat} :
    t.LeadsTo q child ↔ q % (t.place child node).2 = (t.place child node).1 ∧ t.LeadsTo q node := by
  obtain ⟨isChild,above⟩ := forest.children directory member
  unfold LeadsTo
  rw [forest.places_child named isChild above,List.forall_mem_cons,Nat.ModEq,Nat.mod_eq_of_lt (place_lt member)]

/-- Where the search goes, its quotient leads. -/
theorem search_leadsTo : ∀ (depth : Nat) {node : NodeRef}, t.IsDirectory node →
    t.LeadsTo (addr / t.addressMappingConfig.granularity).toNat node →
    t.IsDirectory (t.findResponsibleNode addr depth node) ∧ Climbs t.parentOf (t.findResponsibleNode addr depth node) node ∧
      t.LeadsTo (addr / t.addressMappingConfig.granularity).toNat (t.findResponsibleNode addr depth node)
  | 0, _, directory, leads => ⟨directory,.refl,leads⟩
  | depth + 1, node, directory, leads => by
    by_cases childless : (t.node node).children = []
    · rw [findResponsibleNode,if_pos (List.length_eq_zero_iff.mpr childless)]
      exact ⟨directory,.refl,leads⟩
    · obtain ⟨child,member,chosen⟩ := exists_chosen forest named directory childless
        (addr / t.addressMappingConfig.granularity).toNat
      obtain ⟨isChild,above⟩ := forest.children directory member
      rw [findResponsibleNode_child forest named unranged directory member chosen]
      obtain ⟨isFound,climbs,further⟩ :=
        search_leadsTo depth isChild ((leadsTo_child forest named directory member).mpr ⟨chosen,leads⟩)
      exact ⟨isFound,climbs.tail above,further⟩

/-- Where its quotient leads, the search goes. -/
theorem search_of_leadsTo (isLeaf : t.IsLeaf leaf)
    (leads : t.LeadsTo (addr / t.addressMappingConfig.granularity).toNat leaf) {l : List NodeRef}
    (ladder : Ladder t.parentOf leaf l) (climbs : Climbs t.parentOf leaf node) :
    ∀ {depth : Nat} {l' : List NodeRef}, Ladder t.parentOf node l' → l.length ≤ l'.length + depth →
      t.findResponsibleNode addr depth node = leaf := by
  induction climbs with
  | refl =>
    intro depth l' _ _
    cases depth with
    | zero => rfl
    | succ depth => rw [findResponsibleNode,if_pos (List.length_eq_zero_iff.mpr isLeaf.2)]
  | @tail child node lower above ih =>
    intro depth l' ladder' enough
    obtain ⟨before,after,split,from_child⟩ := ladder.split (ladder.mem_iff.mpr lower)
    obtain rfl := from_child.unique (.rung above ladder')
    have length := congrArg List.length split
    rw [List.length_append,List.length_cons] at length
    have isChild := forest.above isLeaf.1 lower
    obtain ⟨isNode,member⟩ := forest.parents isChild above
    cases depth with
    | zero => omega
    | succ depth =>
      have here := leads _ ((forest.mem_places named isLeaf.1).mpr ⟨child,node,lower,above,rfl⟩)
      rw [Nat.ModEq,Nat.mod_eq_of_lt (place_lt member)] at here
      rw [findResponsibleNode_child forest named unranged isNode member here]
      exact ih (.rung above ladder') (by rw [List.length_cons]; omega)

/-- The home of an address below a root is what the search finds. -/
theorem getHomeNode_of_root (isRoot : t.root = some root) :
    t.getHomeNode addr = .ok (t.idOf (t.findResponsibleNode addr t.size root)) := by
  obtain ⟨directory,top⟩ := forest.top isRoot
  have leads := leadsTo_top forest named directory top (addr / t.addressMappingConfig.granularity).toNat
  unfold getHomeNode mapAddressToDirectory
  rw [isRoot,if_neg (fun both => nomatch both.1)]
  split
  · next nodeID ref only =>
    obtain ⟨⟨id,found⟩,-,-⟩ := search_leadsTo forest named unranged t.size directory leads
    rw [named.named found]
    rw [only] at found
    cases List.mem_singleton.mp found
    rfl
  · rfl

end

/-! ### Quotients -/

theorem quotient_le (addr : UInt64) :
    (addr / t.addressMappingConfig.granularity).toNat ≤ t.lastQuotient := by
  rw [UInt64.toNat_div]
  exact Nat.div_le_div_right (Nat.le_sub_one_of_lt addr.toNat_lt)

theorem exists_addr (granular : t.addressMappingConfig.granularity ≠ 0) {q : Nat} (fits : q ≤ t.lastQuotient) :
    ∃ addr : UInt64, (addr / t.addressMappingConfig.granularity).toNat = q := by
  have positive : 0 < t.addressMappingConfig.granularity.toNat := by
    refine Nat.pos_of_ne_zero fun zero => granular ?_
    exact UInt64.toNat_inj.mp zero
  have small := (Nat.le_div_iff_mul_le positive).mp fits
  refine ⟨.ofNat (q * t.addressMappingConfig.granularity.toNat),?_⟩
  have inside : q * t.addressMappingConfig.granularity.toNat < UInt64.size := Nat.lt_of_le_of_lt small (by decide)
  rw [UInt64.toNat_div,UInt64.toNat_ofNat_of_lt' inside,Nat.mul_div_cancel _ positive]

/-- Below a root, a leaf is a home just if some quotient of an address leads there. -/
theorem leaf_is_home_iff (forest : t.Forest) (named : t.Named) (unranged : t.Unranged)
    (granular : t.addressMappingConfig.granularity ≠ 0) (isRoot : t.root = some root) (isLeaf : t.IsLeaf leaf) :
    (∃ addr, t.getHomeNode addr = .ok (t.idOf leaf)) ↔
      Climbs t.parentOf leaf root ∧ ∃ q ≤ t.lastQuotient, t.LeadsTo q leaf := by
  obtain ⟨directory,top⟩ := forest.top isRoot
  constructor
  · rintro ⟨addr,home⟩
    rw [getHomeNode_of_root forest named unranged isRoot] at home
    have leads := leadsTo_top forest named directory top (addr / t.addressMappingConfig.granularity).toNat
    obtain ⟨isFound,climbs,further⟩ := search_leadsTo forest named unranged t.size directory leads
    rw [named.eq_of_id isFound isLeaf.1 (Except.ok.inj home)] at climbs further
    exact ⟨climbs,_,quotient_le addr,further⟩
  · rintro ⟨climbs,q,fits,leads⟩
    obtain ⟨addr,rfl⟩ := exists_addr granular fits
    obtain ⟨l,ladder,short,-⟩ := forest.ladder named isLeaf.1
    have enough : l.length ≤ [root].length + t.size := short.trans (Nat.le_add_left ..)
    refine ⟨addr,?_⟩
    rw [getHomeNode_of_root forest named unranged isRoot,
      search_of_leadsTo forest named unranged isLeaf leads ladder climbs (.top top) enough]

/-! ### Leaves that are separated -/

/-- Below every directory there is a leaf. -/
theorem Forest.exists_leaf (forest : t.Forest) (named : t.Named) (directory : t.IsDirectory node) :
    ∃ leaf, t.IsLeaf leaf ∧ Climbs t.parentOf leaf node := by
  obtain ⟨l,ladder,short,-⟩ := forest.ladder named directory
  generalize room : t.size - l.length = k
  induction k generalizing node l with
  | zero =>
    refine ⟨node,⟨directory,?_⟩,.refl⟩
    by_contra childless
    obtain ⟨child,member⟩ := List.exists_mem_of_ne_nil _ childless
    obtain ⟨isChild,above⟩ := forest.children directory member
    obtain ⟨l',ladder',short',-⟩ := forest.ladder named isChild
    obtain rfl := ladder'.unique (.rung above ladder)
    rw [List.length_cons] at short'
    omega
  | succ k ih =>
    by_cases childless : (t.node node).children = []
    · exact ⟨node,⟨directory,childless⟩,.refl⟩
    · obtain ⟨child,member⟩ := List.exists_mem_of_ne_nil _ childless
      obtain ⟨isChild,above⟩ := forest.children directory member
      obtain ⟨l',ladder',short',-⟩ := forest.ladder named isChild
      obtain rfl := ladder'.unique (.rung above ladder)
      obtain ⟨leaf,isLeaf,climbs⟩ := ih isChild _ ladder' short' (by rw [List.length_cons]; omega)
      exact ⟨leaf,isLeaf,climbs.tail above⟩

theorem Forest.place_pos (forest : t.Forest) (named : t.Named) (directory : t.IsDirectory node) {p : Nat × Nat}
    (isPlace : p ∈ t.places node) : p.1 < p.2 := by
  obtain ⟨child,parent,climbs,above,rfl⟩ := (forest.mem_places named directory).mp isPlace
  exact place_lt (forest.parents (forest.above directory climbs) above).2

/-- Where the numbers of children are coprime, the least quotient that leads to a leaf decides
    whether one that is small enough does. -/
theorem separated_iff (forest : t.Forest) (named : t.Named) (isLeaf : t.IsLeaf leaf)
    (coprime : (t.places leaf).Pairwise (Function.onFun Nat.Coprime Prod.snd)) :
    t.Separated leaf ↔ ∃ q ≤ t.lastQuotient, t.LeadsTo q leaf := by
  constructor
  · intro separated
    exact ⟨_,separated.fits,(Nat.chineseRemainderOfList Prod.fst Prod.snd (t.places leaf) coprime).2⟩
  · rintro ⟨q,fits,leads⟩
    refine ⟨coprime,?_⟩
    have same := Nat.chineseRemainderOfList_modEq_unique Prod.fst Prod.snd (t.places leaf) coprime leads
    have least := Nat.chineseRemainderOfList_lt_prod Prod.fst Prod.snd (t.places leaf) coprime
      fun p isPlace => Nat.ne_zero_of_lt (forest.place_pos named isLeaf.1 isPlace)
    rw [Nat.ModEq,Nat.mod_eq_of_lt least] at same
    rw [← same]
    exact (Nat.mod_le _ _).trans fits

/-- Where two numbers of children are not coprime, some child is at a place that does not go
    with the place at the other level. -/
theorem exists_apart (forest : t.Forest) (named : t.Named) (directory : t.IsDirectory parent)
    (member : node ∈ (t.node parent).children) {p : Nat × Nat} (shared : ¬ Nat.Coprime (t.place node parent).2 p.2) :
    ∃ other ∈ (t.node parent).children, ¬ (t.place other parent).1 ≡ p.1 [MOD (t.place node parent).2.gcd p.2] := by
  have some_child := List.ne_nil_of_mem member
  have positive : 0 < (t.place node parent).2 := Nat.lt_of_le_of_lt (Nat.zero_le _) (place_lt member)
  have several : 1 < (t.place node parent).2 := by
    rcases Nat.lt_or_ge 1 (t.place node parent).2 with several | one
    · exact several
    · have one : (t.place node parent).2 = 1 := Nat.le_antisymm one positive
      rw [one] at shared
      exact absurd (Nat.coprime_one_left _) shared
  obtain ⟨first,isFirst,place_first⟩ := exists_chosen forest named directory some_child 0
  obtain ⟨second,isSecond,place_second⟩ := exists_chosen forest named directory some_child 1
  by_contra none_apart
  simp only [not_exists,not_and,not_not] at none_apart
  have congruent := (none_apart first isFirst).trans (none_apart second isSecond).symm
  rw [place_first.symm.trans (Nat.zero_mod _),place_second.symm.trans (Nat.mod_eq_of_lt several)] at congruent
  exact shared (Nat.dvd_one.mp ((Nat.modEq_iff_dvd' (Nat.zero_le 1)).mp congruent))

/-- Where all leaves are led to, the numbers of children on every way are coprime: of two
    children whose places differ by one, only one could be led to otherwise. -/
theorem coprime_of_leads (forest : t.Forest) (named : t.Named) (all_lead : ∀ leaf, t.IsLeaf leaf → ∃ q, t.LeadsTo q leaf)
    (directory : t.IsDirectory node) : (t.places node).Pairwise (Function.onFun Nat.Coprime Prod.snd) := by
  obtain ⟨l,ladder⟩ := forest.ends directory
  induction ladder with
  | top top =>
    rw [forest.places_top named directory top]
    exact .nil
  | @rung node parent l above _ ih =>
    obtain ⟨isParent,member⟩ := forest.parents directory above
    rw [forest.places_child named directory above]
    refine List.pairwise_cons.mpr ⟨?_,ih isParent⟩
    intro p isPlace
    by_contra shared
    obtain ⟨other,isChild,apart⟩ := exists_apart forest named isParent member shared
    obtain ⟨isOther,above'⟩ := forest.children isParent isChild
    obtain ⟨leaf,isLeaf,climbs⟩ := forest.exists_leaf named isOther
    obtain ⟨q,leads⟩ := all_lead leaf isLeaf
    have first := leads _ ((forest.mem_places named isLeaf.1).mpr ⟨other,parent,climbs,above',rfl⟩)
    have second : q ≡ p.1 [MOD p.2] := by
      obtain ⟨higher,top,further,above'',rfl⟩ := (forest.mem_places named isParent).mp isPlace
      exact leads _ ((forest.mem_places named isLeaf.1).mpr ⟨higher,top,(climbs.tail above').trans further,above'',rfl⟩)
    exact apart ((first.of_dvd (Nat.gcd_dvd_left ..)).symm.trans (second.of_dvd (Nat.gcd_dvd_right ..)))

/-! ### Several roots -/

theorem Forest.exists_top (forest : t.Forest) (directory : t.IsDirectory node) :
    ∃ top, Climbs t.parentOf node top ∧ t.IsDirectory top ∧ t.parentOf top = none := by
  obtain ⟨l,ladder⟩ := forest.ends directory
  obtain ⟨before,top,rfl,ends⟩ := ladder.getLast
  have climbs := ladder.mem_iff.mp (List.mem_append_right before (List.mem_singleton_self top))
  exact ⟨top,climbs,forest.above directory climbs,ends⟩

variable (t) in
/-- The ids of the roots in order. -/
def rootIDs : List Int := ((t.directoryNodes.filter fun entry => (t.parentOf entry.2).isNone).map Prod.fst).insertionSort (· ≤ ·)

theorem mem_rootIDs (named : t.Named) {ref : NodeRef} (directory : t.IsDirectory ref) :
    t.idOf ref ∈ t.rootIDs ↔ t.parentOf ref = none := by
  obtain ⟨id,isDirectory⟩ := directory
  rw [rootIDs,List.mem_insertionSort,List.mem_map,named.named isDirectory]
  constructor
  · rintro ⟨⟨id',ref'⟩,kept,rfl⟩
    obtain ⟨isDirectory',top⟩ := List.mem_filter.mp kept
    obtain rfl := value_unique named.keys isDirectory isDirectory'
    exact Option.isNone_iff_eq_none.mp top
  · intro top
    exact ⟨(id,ref),List.mem_filter.mpr ⟨isDirectory,Option.isNone_iff_eq_none.mpr top⟩,rfl⟩

theorem directory_of_mem_rootIDs {id : Int} (member : id ∈ t.rootIDs) : ∃ ref, (id,ref) ∈ t.directoryNodes := by
  rw [rootIDs,List.mem_insertionSort,List.mem_map] at member
  obtain ⟨⟨_,ref⟩,kept,rfl⟩ := member
  exact ⟨ref,List.mem_of_mem_filter kept⟩

theorem rootIDs_nodup (named : t.Named) : t.rootIDs.Nodup := by
  rw [rootIDs,(List.perm_insertionSort _ _).nodup_iff]
  exact named.keys.sublist (List.filter_sublist.map _)

/-- Without a single root, the home of an address is one of the roots. -/
theorem getHomeNode_of_roots (forest : t.Forest) (named : t.Named) (isRoot : t.root = none) {addr : UInt64}
    (directory : t.IsDirectory node) :
    t.getHomeNode addr = .ok (t.idOf node) ↔
      t.rootIDs[t.interleaved addr t.rootIDs.length]? = some (t.idOf node) := by
  obtain ⟨id,isDirectory⟩ := id directory
  unfold getHomeNode mapAddressToDirectory
  rw [isRoot,if_neg fun both => List.ne_nil_of_mem isDirectory (List.length_eq_zero_iff.mp both.2)]
  split
  · next nodeID ref only =>
    rw [only] at isDirectory
    cases List.mem_singleton.mp isDirectory
    obtain ⟨top,-,⟨topID,isTop⟩,ends⟩ := forest.exists_top directory
    rw [only] at isTop
    cases List.mem_singleton.mp isTop
    have single : t.rootIDs = [id] := by
      rw [rootIDs,only,List.filter_cons_of_pos (by rw [ends]; rfl)]
      rfl
    rw [single,named.named (only ▸ isDirectory),interleaved,List.length_singleton,Nat.mod_one]
    exact iff_of_true rfl rfl
  · dsimp only
    rw [← rootIDs]
    cases t.rootIDs[t.interleaved addr t.rootIDs.length]? with
    | none => simp
    | some dirID => simp

theorem root_is_home_iff (forest : t.Forest) (named : t.Named) (granular : t.addressMappingConfig.granularity ≠ 0)
    (isRoot : t.root = none) (directory : t.IsDirectory node) :
    (∃ addr, t.getHomeNode addr = .ok (t.idOf node)) ↔ t.parentOf node = none ∧ t.rootIDs.idxOf (t.idOf node) ≤ t.lastQuotient := by
  rw [exists_congr fun addr => getHomeNode_of_roots forest named isRoot directory,← mem_rootIDs named directory]
  constructor
  · rintro ⟨addr,selected⟩
    obtain ⟨inside,same⟩ := List.getElem?_eq_some_iff.mp selected
    refine ⟨List.mem_of_getElem? selected,?_⟩
    rw [← same,(rootIDs_nodup named).idxOf_getElem]
    exact (Nat.mod_le _ _).trans (quotient_le addr)
  · rintro ⟨isTop,fits⟩
    obtain ⟨addr,quotient⟩ := exists_addr granular fits
    refine ⟨addr,?_⟩
    rw [interleaved,quotient,Nat.mod_eq_of_lt (List.idxOf_lt_length_iff.mpr isTop)]
    exact List.getElem?_idxOf isTop

/-! ### All leaves -/

theorem leaves_are_roots_iff (forest : t.Forest) (named : t.Named) (granular : t.addressMappingConfig.granularity ≠ 0)
    (isRoot : t.root = none) :
    (∀ leaf, t.IsLeaf leaf → ∃ addr, t.getHomeNode addr = .ok (t.idOf leaf)) ↔
      (∀ node, t.IsDirectory node → t.parentOf node = none) ∧ t.directoryNodes.length ≤ t.lastQuotient + 1 := by
  have rooted : (∀ node, t.IsDirectory node → t.parentOf node = none) → t.rootIDs.length = t.directoryNodes.length := by
    intro tops
    rw [rootIDs,List.length_insertionSort,List.length_map,List.filter_eq_self.mpr]
    rintro ⟨id,ref⟩ member
    exact Option.isNone_iff_eq_none.mpr (tops ref ⟨id,member⟩)
  constructor
  · intro all
    have tops : ∀ node, t.IsDirectory node → t.parentOf node = none := by
      intro node directory
      obtain ⟨leaf,isLeaf,climbs⟩ := forest.exists_leaf named directory
      have top := ((root_is_home_iff forest named granular isRoot isLeaf.1).mp (all leaf isLeaf)).1
      rcases climbs.cases_head with rfl | ⟨_,above,_⟩
      · exact top
      · cases top.symm.trans above
    refine ⟨tops,?_⟩
    rw [← rooted tops]
    by_contra many
    have inside : t.rootIDs.length - 1 < t.rootIDs.length := by omega
    obtain ⟨ref,isDirectory⟩ := directory_of_mem_rootIDs (List.getElem_mem inside)
    have directory : t.IsDirectory ref := ⟨_,isDirectory⟩
    have childless : (t.node ref).children = [] := by
      refine List.eq_nil_iff_forall_not_mem.mpr fun child member => ?_
      obtain ⟨isChild,above⟩ := forest.children directory member
      cases (tops child isChild).symm.trans above
    have fits := ((root_is_home_iff forest named granular isRoot directory).mp (all ref ⟨directory,childless⟩)).2
    rw [named.named isDirectory,(rootIDs_nodup named).idxOf_getElem] at fits
    omega
  · rintro ⟨tops,few⟩ leaf isLeaf
    have top := tops leaf isLeaf.1
    have inside := List.idxOf_lt_length_iff.mpr ((mem_rootIDs named isLeaf.1).mpr top)
    rw [rooted tops] at inside
    exact (root_is_home_iff forest named granular isRoot isLeaf.1).mpr ⟨top,by omega⟩

theorem homesSeparated_iff (forest : t.Forest) (named : t.Named) (unranged : t.Unranged)
    (granular : t.addressMappingConfig.granularity ≠ 0) :
    (∀ leaf, t.IsLeaf leaf → ∃ addr, t.getHomeNode addr = .ok (t.idOf leaf)) ↔ t.HomesSeparated := by
  unfold HomesSeparated
  cases isRoot : t.root with
  | none => exact leaves_are_roots_iff forest named granular isRoot
  | some root =>
    have home := fun leaf (isLeaf : t.IsLeaf leaf) => leaf_is_home_iff forest named unranged granular isRoot isLeaf
    constructor
    · intro all leaf isLeaf
      have all_lead : ∀ leaf, t.IsLeaf leaf → ∃ q, t.LeadsTo q leaf := by
        intro leaf isLeaf
        obtain ⟨-,q,-,leads⟩ := (home leaf isLeaf).mp (all leaf isLeaf)
        exact ⟨q,leads⟩
      obtain ⟨climbs,led⟩ := (home leaf isLeaf).mp (all leaf isLeaf)
      exact ⟨climbs,(separated_iff forest named isLeaf (coprime_of_leads forest named all_lead isLeaf.1)).mpr led⟩
    · intro separated leaf isLeaf
      obtain ⟨climbs,separate⟩ := separated leaf isLeaf
      exact (home leaf isLeaf).mpr ⟨climbs,(separated_iff forest named isLeaf separate.coprime).mp separate⟩

/-- A forest is recognised by looking at its directories. -/
theorem forest_of_directories {dirs : List NodeRef} (all : dirs = t.directoryNodes.map Prod.snd)
    (parents : ∀ node ∈ dirs, ∀ parent ∈ t.parentOf node, parent ∈ dirs ∧ node ∈ (t.node parent).children)
    (children : ∀ node ∈ dirs, ∀ child ∈ (t.node node).children, child ∈ dirs ∧ t.parentOf child = some node)
    (once : ∀ node ∈ dirs, (t.node node).children.Nodup)
    (ends : ∀ node ∈ dirs, (climbTo t.parentOf (fun _ => false) (t.size + 1) (some node)).isSome)
    (top : ∀ root ∈ t.root, root ∈ dirs ∧ t.parentOf root = none) : t.Forest := by
  have isDirectory : ∀ {ref}, t.IsDirectory ref ↔ ref ∈ dirs := by
    intro ref
    rw [all,List.mem_map]
    exact ⟨fun ⟨id,member⟩ => ⟨_,member,rfl⟩,fun ⟨entry,member,same⟩ => ⟨entry.1,same ▸ member⟩⟩
  refine ⟨?_,?_,fun directory => once _ (isDirectory.mp directory),?_,?_⟩
  · intro node parent directory above
    obtain ⟨isParent,listed⟩ := parents node (isDirectory.mp directory) parent above
    exact ⟨isDirectory.mpr isParent,listed⟩
  · intro node child directory member
    obtain ⟨isChild,above⟩ := children node (isDirectory.mp directory) child member
    exact ⟨isDirectory.mpr isChild,above⟩
  · intro node directory
    obtain ⟨met,ended⟩ := Option.isSome_iff_exists.mp (ends node (isDirectory.mp directory))
    exact ladder_of_climbTo ended
  · intro root isRoot
    obtain ⟨directory,above⟩ := top root isRoot
    exact ⟨isDirectory.mpr directory,above⟩

end CoherenceTree

/-- All leaves of a tree without address ranges are homes exactly when on every way down from
    the root the numbers of children are pairwise coprime and the least quotient that leads to
    the leaf is one of an address. -/
theorem every_leaf_is_home_iff {config : AddressMappingConfig} {b : CoherenceTreeBuilder}
    (made : Reachable CoherenceTreeBuilder.step (.newCoherenceTreeBuilder config) b) {t : CoherenceTree}
    (built : b.build = .ok t) (forest : t.Forest) (unranged : t.Unranged) :
    (∀ leaf, t.IsLeaf leaf → ∃ addr, t.getHomeNode addr = .ok (t.idOf leaf)) ↔ t.HomesSeparated := by
  obtain ⟨named,-,granular⟩ := (CoherenceTreeBuilder.ordered_of_reachable made).build built
  exact CoherenceTree.homesSeparated_iff forest named unranged granular

/-- A tree without address ranges has no address ranges in its directories. -/
theorem unranged_of_directories {t : CoherenceTree}
    (none_has : ∀ entry ∈ t.directoryNodes, (t.node entry.2).addressResponsibility = none) : t.Unranged :=
  fun ⟨_,isDirectory⟩ => none_has _ isDirectory

/-- Directory 1 over 2 and 3, and 2 over 4, 5 and 6. -/
def twoByThree : List CoherenceTreeBuilder.Op :=
  [.addDirectory 1 ⟨[],none⟩,.addDirectory 2 ⟨[],none⟩,.addDirectory 3 ⟨[],none⟩,.addDirectory 4 ⟨[],none⟩,
    .addDirectory 5 ⟨[],none⟩,.addDirectory 6 ⟨[],none⟩,.setParent 2 1,.setParent 3 1,.setParent 4 2,.setParent 5 2,.setParent 6 2]

def twoByThreeBuilder : CoherenceTreeBuilder :=
  (runActions CoherenceTreeBuilder.step (fun _ _ => True) twoByThree (.newCoherenceTreeBuilder ⟨64⟩)).get (by decide +kernel)

def twoByThreeTree : CoherenceTree := twoByThreeBuilder.build.toOption.get (by decide +kernel)

theorem forest_twoByThree : twoByThreeTree.Forest := by
  have dirs : [0,1,2,3,4,5] = twoByThreeTree.directoryNodes.map Prod.snd := by decide +kernel
  exact CoherenceTree.forest_of_directories dirs (by decide +kernel) (by decide +kernel) (by decide +kernel) (by decide +kernel)
    (by decide +kernel)

/-- Places of coprime numbers of children lead to a leaf when the numbers' product is no
    more than the quotients. -/
theorem CoherenceTree.separated_of_prod {t : CoherenceTree} {leaf : NodeRef}
    (coprime : (t.places leaf).Pairwise (Function.onFun Nat.Coprime Prod.snd)) (positive : ∀ place ∈ t.places leaf, place.2 ≠ 0)
    (few : ((t.places leaf).map Prod.snd).prod ≤ t.lastQuotient) : t.Separated leaf :=
  ⟨coprime,(Nat.chineseRemainderOfList_lt_prod Prod.fst Prod.snd _ coprime positive).le.trans few⟩

theorem homesSeparated_twoByThree : twoByThreeTree.HomesSeparated := by
  have isRoot : twoByThreeTree.root = some 0 := by decide +kernel
  have leaves : ∀ entry ∈ twoByThreeTree.directoryNodes, (twoByThreeTree.node entry.2).children = [] → entry.2 ∈ [2,3,4,5] := by
    decide +kernel
  have below : ∀ leaf ∈ [2,3,4,5], ∀ mid ∈ twoByThreeTree.parentOf leaf, mid = 0 ∨ twoByThreeTree.parentOf mid = some 0 := by
    decide +kernel
  have hasParent : ∀ leaf ∈ [2,3,4,5], (twoByThreeTree.parentOf leaf).isSome := by decide +kernel
  have coprime : ∀ leaf ∈ [2,3,4,5], (twoByThreeTree.places leaf).Pairwise (Function.onFun Nat.Coprime Prod.snd) := by
    unfold Function.onFun
    decide +kernel
  have positive : ∀ leaf ∈ [2,3,4,5], ∀ place ∈ twoByThreeTree.places leaf, place.2 ≠ 0 := by decide +kernel
  have few : ∀ leaf ∈ [2,3,4,5], ((twoByThreeTree.places leaf).map Prod.snd).prod ≤ twoByThreeTree.lastQuotient := by
    decide +kernel
  unfold CoherenceTree.HomesSeparated
  rw [isRoot]
  rintro leaf ⟨⟨id,directory⟩,childless⟩
  have listed := leaves _ directory childless
  obtain ⟨mid,above⟩ := Option.isSome_iff_exists.mp (hasParent leaf listed)
  refine ⟨?_,CoherenceTree.separated_of_prod (coprime leaf listed) (positive leaf listed) (few leaf listed)⟩
  rcases below leaf listed mid above with rfl | top
  · exact .single above
  · exact .head above (.single top)

/-- Of two below one and of three below one of these, every leaf is a home. -/
theorem every_leaf_is_home_twoByThree : twoByThreeTree.IsLeaf 5 ∧ ∀ leaf, twoByThreeTree.IsLeaf leaf →
    ∃ addr, twoByThreeTree.getHomeNode addr = .ok (twoByThreeTree.idOf leaf) := by
  refine ⟨⟨⟨6,by decide +kernel⟩,by decide +kernel⟩,?_⟩
  exact (every_leaf_is_home_iff (reaches_runActions twoByThree (Option.some_get _).symm) (eq_ok_get _) forest_twoByThree
    (unranged_of_directories (by decide +kernel))).mpr homesSeparated_twoByThree

/-- Directory 1 over 2 and 3, and 2 over 4 and 5. -/
def twoByTwo : List CoherenceTreeBuilder.Op :=
  [.addDirectory 1 ⟨[],none⟩,.addDirectory 2 ⟨[],none⟩,.addDirectory 3 ⟨[],none⟩,.addDirectory 4 ⟨[],none⟩,
    .addDirectory 5 ⟨[],none⟩,.setParent 2 1,.setParent 3 1,.setParent 4 2,.setParent 5 2]

def twoByTwoBuilder : CoherenceTreeBuilder :=
  (runActions CoherenceTreeBuilder.step (fun _ _ => True) twoByTwo (.newCoherenceTreeBuilder ⟨64⟩)).get (by decide +kernel)

def twoByTwoTree : CoherenceTree := twoByTwoBuilder.build.toOption.get (by decide +kernel)

/-- The second leaf below the first child is never a home: its quotient would be odd and even. -/
theorem leaf_is_no_home : twoByTwoBuilder.build = .ok twoByTwoTree ∧ twoByTwoTree.Forest ∧ twoByTwoTree.Unranged ∧
    twoByTwoTree.IsLeaf 4 ∧ ¬ ∃ addr, twoByTwoTree.getHomeNode addr = .ok (twoByTwoTree.idOf 4) := by
  have made : Reachable CoherenceTreeBuilder.step (.newCoherenceTreeBuilder ⟨64⟩) twoByTwoBuilder :=
    reaches_runActions twoByTwo (Option.some_get _).symm
  have built : twoByTwoBuilder.build = .ok twoByTwoTree := eq_ok_get _
  have dirs : [0,1,2,3,4] = twoByTwoTree.directoryNodes.map Prod.snd := by decide +kernel
  have forest : twoByTwoTree.Forest := CoherenceTree.forest_of_directories dirs (by decide +kernel) (by decide +kernel)
    (by decide +kernel) (by decide +kernel) (by decide +kernel)
  have unranged : twoByTwoTree.Unranged := unranged_of_directories (by decide +kernel)
  have isLeaf : twoByTwoTree.IsLeaf 4 := ⟨⟨5,by decide +kernel⟩,by decide +kernel⟩
  have isRoot : twoByTwoTree.root = some 0 := by decide +kernel
  have places : twoByTwoTree.places 4 = [(1,2),(0,2)] := by decide +kernel
  obtain ⟨named,-,granular⟩ := (CoherenceTreeBuilder.ordered_of_reachable made).build built
  refine ⟨built,forest,unranged,isLeaf,?_⟩
  rw [CoherenceTree.leaf_is_home_iff forest named unranged granular isRoot isLeaf]
  rintro ⟨-,q,-,leads⟩
  unfold CoherenceTree.LeadsTo at leads
  rw [places] at leads
  have odd := leads (1,2) (by decide)
  have even := leads (0,2) (by decide)
  exact absurd (odd.symm.trans even) (by decide)

end FlowSim.Coherence
