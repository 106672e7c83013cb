import FlowSim.Lib.Recency

/-!
The buffer of decoded instructions: a table of lines that gives up the line used longest
ago. Which one that is, is found by going through a map in any order; as long as the clock
has not come round, the table is a list by recency, whatever the order (`dib_is_lru`).
-/
namespace FlowSim.Cpu
open FlowSim.Lib
set_option linter.unusedSimpArgs false

structure DIBEntry where
  ip : UInt64
  valid : Bool
  lastAccessTime : UInt64
deriving DecidableEq

/-- The buffer. The clock is a 64-bit counter. -/
structure DIB where
  entries : AList fun _ : UInt64 => DIBEntry
  maxSize : Nat
  shiftAmount : Nat
  currentTime : UInt64

/-- The line of an address. -/
def lineIndex (shiftAmount : Nat) (ip : UInt64) : UInt64 := UInt64.ofNat (ip.toNat >>> shiftAmount)

namespace DIB

def newDIB (maxSize shiftAmount : Nat) : DIB where
  entries := ∅
  maxSize := maxSize
  shiftAmount := shiftAmount
  currentTime := 0

/-- The entries in the order in which they are gone through. -/
abbrev Order := List (Sigma fun _ : UInt64 => DIBEntry)

def getIndex (dib : DIB) (ip : UInt64) : UInt64 := lineIndex dib.shiftAmount ip

/-- Writes an entry with the current time. -/
def stamp (dib : DIB) (index ip : UInt64) : DIB :=
  { dib with
    entries := dib.entries.insert index { ip, valid := true, lastAccessTime := dib.currentTime }
    currentTime := dib.currentTime + 1 }

/-- A hit is used now. -/
def check (dib : DIB) (ip : UInt64) : Bool × DIB :=
  match dib.entries.lookup (dib.getIndex ip) with
  | none => (false,dib)
  | some entry => if entry.valid ∧ entry.ip = ip then (true,dib.stamp (dib.getIndex ip) ip) else (false,dib)

/-- Gives up the entry with the least time, as found by going through the entries. -/
def evict (dib : DIB) (order : Order) : DIB :=
  if dib.entries.keys.length = 0 then dib
  else
    let (oldestIndex,_) := leastOf Sigma.fst (fun entry => entry.2.lastAccessTime) ((0 : UInt64),(0xFFFFFFFFFFFFFFFF : UInt64)) order
    { dib with entries := dib.entries.erase oldestIndex }

/-- Renews the line's entry, or adds one, where a full buffer gives one up. -/
def insert (dib : DIB) (order : Order) (ip : UInt64) : DIB :=
  match dib.entries.lookup (dib.getIndex ip) with
  | some _ => dib.stamp (dib.getIndex ip) ip
  | none =>
    if dib.maxSize ≤ dib.entries.keys.length then (dib.evict order).stamp (dib.getIndex ip) ip
    else dib.stamp (dib.getIndex ip) ip

def invalidate (dib : DIB) (ip : UInt64) : DIB :=
  match dib.entries.lookup (dib.getIndex ip) with
  | some entry => { dib with entries := dib.entries.insert (dib.getIndex ip) { entry with valid := false } }
  | none => dib

end DIB

/-! ### Calls -/

inductive DIBCall where
  | check (ip : UInt64)
  | insert (ip : UInt64)
  | invalidate (ip : UInt64)
deriving DecidableEq

/-- A call, when the map is gone through in the given order; only `Check` answers. -/
def DIB.call (dib : DIB) (order : DIB.Order) : DIBCall → Option Bool × DIB
  | .check ip => ((dib.check ip).1,(dib.check ip).2)
  | .insert ip => (none,dib.insert order ip)
  | .invalidate ip => (none,dib.invalidate ip)

/-- The buffer after some calls, with their answers. In every call the map may be gone
    through in an order of its own. -/
inductive DIB.Run (maxSize shiftAmount : Nat) : List DIBCall → List (Option Bool) → DIB → Prop where
  | start : Run maxSize shiftAmount [] [] (.newDIB maxSize shiftAmount)
  | call {calls : List DIBCall} {answers : List (Option Bool)} {dib : DIB} {order : DIB.Order} (next : DIBCall)
      (run : Run maxSize shiftAmount calls answers dib) (goes : order.Perm dib.entries.entries) :
      Run maxSize shiftAmount (calls ++ [next]) (answers ++ [(dib.call order next).1]) (dib.call order next).2

/-! ### What the buffer is for -/

/-- A line of a list by recency: its index, the address last inserted, and whether it holds. -/
structure LruLine where
  index : UInt64
  ip : UInt64
  valid : Bool
deriving DecidableEq

/-- A call to a list of at most `maxSize` lines, most recent first. -/
def lruCall (maxSize shiftAmount : Nat) (lines : List LruLine) : DIBCall → Option Bool × List LruLine
  | .check ip =>
    let index := lineIndex shiftAmount ip
    if ⟨index,ip,true⟩ ∈ lines then (some true,⟨index,ip,true⟩ :: lines.filter (fun line => line.index ≠ index))
    else (some false,lines)
  | .insert ip =>
    let index := lineIndex shiftAmount ip
    let others := lines.filter (fun line => line.index ≠ index)
    if others.length < maxSize then (none,⟨index,ip,true⟩ :: others) else (none,⟨index,ip,true⟩ :: others.dropLast)
  | .invalidate ip =>
    let index := lineIndex shiftAmount ip
    (none,lines.map fun line => if line.index = index then { line with valid := false } else line)

/-- The answers to some calls and the lines afterwards. -/
def lruRun (maxSize shiftAmount : Nat) (calls : List DIBCall) : List (Option Bool) × List LruLine :=
  calls.foldl (fun s call =>
    let (answer,lines) := lruCall maxSize shiftAmount s.2 call
    (s.1 ++ [answer],lines)) ([],[])

/-- The entries, without their times. -/
def DIB.lines (dib : DIB) : List LruLine := dib.entries.entries.map fun entry => ⟨entry.1,entry.2.ip,entry.2.valid⟩

/-- The buffer has answered as the list does, and has its lines. -/
def DIB.IsLru (maxSize shiftAmount : Nat) (calls : List DIBCall) (answers : List (Option Bool)) (dib : DIB) : Prop :=
  answers = (lruRun maxSize shiftAmount calls).1 ∧ dib.lines.Perm (lruRun maxSize shiftAmount calls).2 ∧
    (lruRun maxSize shiftAmount calls).2.length ≤ maxSize

/-! ### The rows of the buffer -/

abbrev DIBRow := Row UInt64 (UInt64 × Bool)

def rowEntry (row : DIBRow) : Sigma fun _ : UInt64 => DIBEntry :=
  ⟨row.key,{ ip := row.value.1, valid := row.value.2, lastAccessTime := UInt64.ofNat row.time }⟩

def rowLine (row : DIBRow) : LruLine := ⟨row.key,row.value.1,row.value.2⟩

/-- The entries are the rows, which have fallen due before the time `now`. -/
structure DIB.Tracks (dib : DIB) (now : Nat) (rows : List DIBRow) : Prop where
  recent : ByRecency now rows
  entries : dib.entries.entries.Perm (rows.map rowEntry)
  clock : dib.currentTime = UInt64.ofNat now

/-- The rows other than the one of an index. -/
def others (index : UInt64) (rows : List DIBRow) : List DIBRow := rows.filter fun row => row.key ≠ index

/-- The rows when an index is used now. -/
def used (now : Nat) (index ip : UInt64) (rows : List DIBRow) : List DIBRow := ⟨index,(ip,true),now⟩ :: others index rows

/-- The rows when an index is invalidated. -/
def lapsed (index : UInt64) (rows : List DIBRow) : List DIBRow :=
  rows.map fun row => { row with value := if row.key = index then (row.value.1,false) else row.value }

theorem lines_used (now : Nat) (index ip : UInt64) (rows : List DIBRow) :
    (used now index ip rows).map rowLine = ⟨index,ip,true⟩ :: (rows.map rowLine).filter (fun line => line.index ≠ index) := by
  rw [used,List.map_cons,List.filter_map]
  rfl

theorem kerase_rows (index : UInt64) : ∀ {rows : List DIBRow}, (rows.map Row.key).Nodup →
    (rows.map rowEntry).kerase index = (others index rows).map rowEntry
  | [], _ => rfl
  | row :: rows, keys => by
    obtain ⟨fresh,rest⟩ := List.nodup_cons.mp keys
    by_cases here : row.key = index
    · subst here
      have kept : others row.key (row :: rows) = rows := by
        unfold others
        rw [List.filter_cons_of_neg (by simp)]
        refine List.filter_eq_self.mpr fun other member => ?_
        have different : other.key ≠ row.key := fun same => fresh (same ▸ List.mem_map_of_mem member)
        simpa using different
      rw [kept]
      exact List.kerase_cons_eq rfl
    · have kept : others index (row :: rows) = row :: others index rows := List.filter_cons_of_pos (by simpa using here)
      rw [kept,List.map_cons,List.map_cons,List.kerase_cons_ne (fun same => here same.symm),kerase_rows index rest]

theorem perm_others {rows : List DIBRow} {row : DIBRow} (keys : (rows.map Row.key).Nodup) (member : row ∈ rows) :
    rows.Perm (row :: others row.key rows) := by
  obtain ⟨before,after,rfl⟩ := List.append_of_mem member
  have apart := keys
  rw [List.map_append,List.map_cons,List.nodup_append,List.nodup_cons] at apart
  obtain ⟨-,⟨later,-⟩,earlier⟩ := apart
  have kept : others row.key (before ++ row :: after) = before ++ after := by
    unfold others
    rw [List.filter_append,List.filter_cons_of_neg (by simp),List.filter_eq_self.mpr,List.filter_eq_self.mpr]
    · intro other inside
      simpa using fun same : other.key = row.key => later (same ▸ List.mem_map_of_mem inside)
    · intro other inside
      simpa using earlier other.key (List.mem_map_of_mem inside) row.key (List.mem_cons_self ..)
  rw [kept]
  exact List.perm_middle

theorem lines_others (index : UInt64) (rows : List DIBRow) :
    (others index rows).map rowLine = (rows.map rowLine).filter fun line => line.index ≠ index := by
  rw [List.filter_map]
  rfl

namespace DIB.Tracks
variable {dib : DIB} {now : Nat} {rows : List DIBRow}

theorem lookup (tracks : dib.Tracks now rows) {index : UInt64} {entry : DIBEntry} :
    dib.entries.lookup index = some entry ↔ ∃ row ∈ rows, rowEntry row = ⟨index,entry⟩ := by
  rw [← Option.mem_def,AList.mem_lookup_iff,tracks.entries.mem_iff,List.mem_map]

theorem absent (tracks : dib.Tracks now rows) {index : UInt64} (missing : dib.entries.lookup index = none) :
    ∀ row ∈ rows, row.key ≠ index := by
  rintro row member rfl
  have found := tracks.lookup.mpr ⟨row,member,rfl⟩
  rw [missing] at found
  cases found

theorem length (tracks : dib.Tracks now rows) : dib.entries.keys.length = rows.length := by
  have same := tracks.entries.length_eq
  rw [List.length_map] at same
  exact (List.length_map ..).trans same

theorem lines_perm (tracks : dib.Tracks now rows) : dib.lines.Perm (rows.map rowLine) := by
  have shown := tracks.entries.map fun entry => (⟨entry.1,entry.2.ip,entry.2.valid⟩ : LruLine)
  rwa [List.map_map] at shown

/-- A line of the table, by its index, address and flag. -/
theorem mem_lines (tracks : dib.Tracks now rows) {index ip : UInt64} :
    (⟨index,ip,true⟩ : LruLine) ∈ rows.map rowLine ↔
      ∃ entry, dib.entries.lookup index = some entry ∧ entry.valid = true ∧ entry.ip = ip := by
  constructor
  · intro member
    obtain ⟨row,inside,shown⟩ := List.mem_map.mp member
    obtain ⟨rfl,rfl,holds⟩ := LruLine.mk.inj shown
    exact ⟨_,tracks.lookup.mpr ⟨row,inside,rfl⟩,holds,rfl⟩
  · rintro ⟨entry,found,holds,rfl⟩
    obtain ⟨row,inside,shown⟩ := tracks.lookup.mp found
    cases shown
    exact List.mem_map.mpr ⟨row,inside,congrArg (LruLine.mk row.key row.value.1) holds⟩

/-- An entry that is written comes to the front. -/
theorem stamp (tracks : dib.Tracks now rows) (index ip : UInt64) :
    (dib.stamp index ip).Tracks (now + 1) (used now index ip rows) where
  recent := (tracks.recent.sublist List.filter_sublist).front _ fun row member => by simpa using (List.mem_filter.mp member).2
  entries := by
    show (dib.entries.insert index _).entries.Perm _
    rw [AList.entries_insert,used,List.map_cons,← kerase_rows index tracks.recent.keys,tracks.clock]
    exact (List.Perm.kerase dib.entries.nodupKeys tracks.entries).cons _
  clock := by
    show dib.currentTime + 1 = _
    rw [tracks.clock,UInt64.ofNat_add]
    rfl

/-- Before the clock comes round, the entry given up is that of the last row. -/
theorem evict {earlier : List DIBRow} {last : DIBRow} (tracks : dib.Tracks now (earlier ++ [last])) (early : now < 2 ^ 64)
    {order : Order} (goes : order.Perm dib.entries.entries) : (dib.evict order).Tracks now earlier := by
  have time_lt : ∀ row ∈ earlier ++ [last], row.time < 2 ^ 64 - 1 := fun row member => by
    have before := tracks.recent.past row member
    omega
  have toNat_time : ∀ row ∈ earlier ++ [last], (UInt64.ofNat row.time).toNat = row.time := fun row member =>
    UInt64.toNat_ofNat_of_lt' (lt_of_lt_of_le (time_lt row member) (by decide))
  have is_last : last ∈ earlier ++ [last] := List.mem_append_right _ (List.mem_singleton_self _)
  have least : leastOf Sigma.fst (fun entry => entry.2.lastAccessTime) ((0 : UInt64),(0xFFFFFFFFFFFFFFFF : UInt64)) order =
      (last.key,UInt64.ofNat last.time) := by
    have found := tracks.entries.symm.trans goes.symm
    have is_entry : rowEntry last ∈ order := found.mem_iff.mp (List.mem_map_of_mem is_last)
    refine leastOf_eq (fun {s t} earlier later => UInt64.lt_asymm earlier later) is_entry ?_ ?_
    · intro entry member
      obtain ⟨row,inside,rfl⟩ := List.mem_map.mp (found.mem_iff.mpr member)
      rcases tracks.recent.last_least inside with rfl | older
      · exact .inl rfl
      · refine .inr (UInt64.lt_iff_toNat_lt.mpr ?_)
        show (UInt64.ofNat last.time).toNat < (UInt64.ofNat row.time).toNat
        rwa [toNat_time last is_last,toNat_time row inside]
    · refine UInt64.lt_iff_toNat_lt.mpr ?_
      show (UInt64.ofNat last.time).toNat < 2 ^ 64 - 1
      rw [toNat_time last is_last]
      exact time_lt last is_last
  have some_left : dib.entries.keys.length ≠ 0 := by
    rw [tracks.length,List.length_append]
    exact Nat.succ_ne_zero _
  have only_last : others last.key (earlier ++ [last]) = earlier := by
    have apart := tracks.recent.keys
    rw [List.map_append] at apart
    have before : ∀ row ∈ earlier, row.key ≠ last.key := fun row member same =>
      (List.nodup_append.mp apart).2.2 row.key (List.mem_map_of_mem member) last.key (List.mem_singleton_self _) same
    unfold others
    rw [List.filter_append,List.filter_eq_self.mpr (fun row member => by simpa using before row member)]
    simp
  unfold DIB.evict
  rw [if_neg some_left,least]
  refine ⟨tracks.recent.sublist (List.sublist_append_left ..),?_,tracks.clock⟩
  show (dib.entries.erase last.key).entries.Perm _
  have erased := List.Perm.kerase (a := last.key) dib.entries.nodupKeys tracks.entries
  rwa [kerase_rows last.key tracks.recent.keys,only_last] at erased

/-- An entry that is invalidated stays where it is. -/
theorem invalidated (tracks : dib.Tracks now rows) {row : DIBRow} (member : row ∈ rows) :
    Tracks { dib with entries := dib.entries.insert row.key { (rowEntry row).2 with valid := false } } now (lapsed row.key rows) where
  recent := tracks.recent.map_value fun key value => if key = row.key then (value.1,false) else value
  entries := by
    show (dib.entries.insert row.key _).entries.Perm _
    rw [AList.entries_insert,lapsed,List.map_map]
    have apart : rows.Perm (row :: others row.key rows) := perm_others tracks.recent.keys member
    have rest : (others row.key rows).map (rowEntry ∘ fun other : DIBRow =>
        { other with value := if other.key = row.key then (other.value.1,false) else other.value }) =
          (others row.key rows).map rowEntry := by
      refine List.map_congr_left fun other inside => ?_
      have different : other.key ≠ row.key := by simpa [others] using (List.mem_filter.mp inside).2
      simp only [Function.comp,rowEntry,if_neg different]
    have shown := apart.map (rowEntry ∘ fun other : DIBRow =>
        { other with value := if other.key = row.key then (other.value.1,false) else other.value })
    rw [List.map_cons,rest,← kerase_rows row.key tracks.recent.keys] at shown
    refine List.Perm.trans ?_ shown.symm
    simp only [Function.comp,rowEntry,if_pos]
    exact (List.Perm.kerase dib.entries.nodupKeys tracks.entries).cons _
  clock := tracks.clock

end DIB.Tracks

/-! ### One call -/

theorem getLast_split : ∀ {rows : List DIBRow}, rows ≠ [] → ∃ earlier last, rows = earlier ++ [last] := by
  intro rows some_row
  exact ⟨rows.dropLast,rows.getLast some_row,(List.dropLast_append_getLast some_row).symm⟩

section
variable {dib : DIB} {now : Nat} {rows : List DIBRow} {order : DIB.Order}

/-- What a call leaves, in the rows and in the list by recency. -/
structure DIB.Follows (dib : DIB) (order : DIB.Order) (now : Nat) (rows : List DIBRow) (call : DIBCall) (answer : Option Bool)
    (now' : Nat) (rows' : List DIBRow) : Prop where
  tracks : (dib.call order call).2.Tracks now' rows'
  answers : (dib.call order call).1 = answer
  reference : lruCall dib.maxSize dib.shiftAmount (rows.map rowLine) call = (answer,rows'.map rowLine)
  clock : now' ≤ now + 1
  bounded : rows'.length ≤ dib.maxSize

theorem reference_check (lines : List LruLine) (ip : UInt64) : lruCall dib.maxSize dib.shiftAmount lines (.check ip) =
    if ⟨dib.getIndex ip,ip,true⟩ ∈ lines then
      (some true,⟨dib.getIndex ip,ip,true⟩ :: lines.filter (fun line => line.index ≠ dib.getIndex ip))
    else (some false,lines) :=
  rfl

theorem reference_insert (lines : List LruLine) (ip : UInt64) : lruCall dib.maxSize dib.shiftAmount lines (.insert ip) =
    if (lines.filter fun line => line.index ≠ dib.getIndex ip).length < dib.maxSize then
      (none,⟨dib.getIndex ip,ip,true⟩ :: lines.filter (fun line => line.index ≠ dib.getIndex ip))
    else (none,⟨dib.getIndex ip,ip,true⟩ :: (lines.filter fun line => line.index ≠ dib.getIndex ip).dropLast) :=
  rfl

theorem reference_invalidate (lines : List LruLine) (ip : UInt64) :
    lruCall dib.maxSize dib.shiftAmount lines (.invalidate ip) =
      (none,lines.map fun line => if line.index = dib.getIndex ip then { line with valid := false } else line) :=
  rfl

theorem others_length_lt {row : DIBRow} (member : row ∈ rows) : (others row.key rows).length < rows.length := by
  refine List.length_filter_lt_length_iff_exists.mpr ⟨row,member,?_⟩
  simp

theorem follows_check (tracks : dib.Tracks now rows) (bounded : rows.length ≤ dib.maxSize) (ip : UInt64) :
    ∃ answer now' rows', dib.Follows order now rows (.check ip) answer now' rows' := by
  by_cases hit : (⟨dib.getIndex ip,ip,true⟩ : LruLine) ∈ rows.map rowLine
  · obtain ⟨entry,found,holds,same⟩ := tracks.mem_lines.mp hit
    have checked : dib.check ip = (true,dib.stamp (dib.getIndex ip) ip) := by
      simp only [DIB.check,found,holds,same,and_self,if_true]
    obtain ⟨row,member,shown⟩ := tracks.lookup.mp found
    have key : row.key = dib.getIndex ip := congrArg Sigma.fst shown
    refine ⟨some true,now + 1,used now (dib.getIndex ip) ip rows,?_,?_,?_,le_rfl,?_⟩
    · simp only [DIB.call,checked]
      exact tracks.stamp _ ip
    · simp only [DIB.call,checked]
    · rw [reference_check,if_pos hit,lines_used]
    · rw [← key]
      exact Nat.le_trans (others_length_lt member) bounded
  · have checked : dib.check ip = (false,dib) := by
      unfold DIB.check
      cases found : dib.entries.lookup (dib.getIndex ip) with
      | none => rfl
      | some entry =>
        exact if_neg fun ⟨holds,same⟩ => hit (tracks.mem_lines.mpr ⟨entry,found,holds,same⟩)
    refine ⟨some false,now,rows,?_,?_,?_,Nat.le_succ _,bounded⟩
    · simp only [DIB.call,checked]
      exact tracks
    · simp only [DIB.call,checked]
    · rw [reference_check,if_neg hit]

theorem follows_insert (tracks : dib.Tracks now rows) (bounded : rows.length ≤ dib.maxSize) (some_room : 1 ≤ dib.maxSize)
    (early : now < 2 ^ 64) (goes : order.Perm dib.entries.entries) (ip : UInt64) :
    ∃ answer now' rows', dib.Follows order now rows (.insert ip) answer now' rows' := by
  have lines_length : (others (dib.getIndex ip) rows).length =
      ((rows.map rowLine).filter fun line => line.index ≠ dib.getIndex ip).length := by
    rw [← lines_others,List.length_map]
  cases found : dib.entries.lookup (dib.getIndex ip) with
  | some entry =>
    obtain ⟨row,member,shown⟩ := tracks.lookup.mp found
    have key : row.key = dib.getIndex ip := congrArg Sigma.fst shown
    have room : (others (dib.getIndex ip) rows).length < dib.maxSize := by
      rw [← key]
      exact Nat.lt_of_lt_of_le (others_length_lt member) bounded
    refine ⟨none,now + 1,used now (dib.getIndex ip) ip rows,?_,rfl,?_,le_rfl,?_⟩
    · simp only [DIB.call,DIB.insert,found]
      exact tracks.stamp _ ip
    · rw [reference_insert,if_pos (lines_length ▸ room),lines_used]
    · exact room
  | none =>
    have fresh := tracks.absent found
    have all : others (dib.getIndex ip) rows = rows := List.filter_eq_self.mpr fun row member => by simpa using fresh row member
    rw [all] at lines_length
    by_cases full : dib.maxSize ≤ rows.length
    · have some_row : rows ≠ [] := by
        rintro rfl
        exact absurd (Nat.le_trans some_room full) (by simp)
      obtain ⟨earlier,last,rfl⟩ := getLast_split some_row
      have fresh' : others (dib.getIndex ip) earlier = earlier :=
        List.filter_eq_self.mpr fun row member => by simpa using fresh row (List.mem_append_left _ member)
      have evicted := (tracks.evict early goes).stamp (dib.getIndex ip) ip
      refine ⟨none,now + 1,used now (dib.getIndex ip) ip earlier,?_,rfl,?_,le_rfl,?_⟩
      · simp only [DIB.call,DIB.insert,found]
        rw [if_pos (tracks.length ▸ full)]
        exact evicted
      · rw [reference_insert,if_neg (lines_length ▸ Nat.not_lt.mpr full),lines_used,← lines_others,← lines_others,all,fresh']
        rw [List.map_append,List.map_singleton,List.dropLast_concat]
      · show (others (dib.getIndex ip) earlier).length + 1 ≤ _
        rw [fresh']
        rwa [List.length_append] at bounded
    · refine ⟨none,now + 1,used now (dib.getIndex ip) ip rows,?_,rfl,?_,le_rfl,?_⟩
      · simp only [DIB.call,DIB.insert,found]
        rw [if_neg (tracks.length ▸ full)]
        exact tracks.stamp _ ip
      · rw [reference_insert,if_pos (lines_length ▸ Nat.lt_of_not_le full),lines_used]
      · show (others (dib.getIndex ip) rows).length < _
        rw [all]
        exact Nat.lt_of_not_le full

theorem follows_invalidate (tracks : dib.Tracks now rows) (bounded : rows.length ≤ dib.maxSize) (ip : UInt64) :
    ∃ answer now' rows', dib.Follows order now rows (.invalidate ip) answer now' rows' := by
  cases found : dib.entries.lookup (dib.getIndex ip) with
  | none =>
    have fresh := tracks.absent found
    refine ⟨none,now,rows,?_,rfl,?_,Nat.le_succ _,bounded⟩
    · simp only [DIB.call,DIB.invalidate,found]
      exact tracks
    · rw [reference_invalidate,List.map_map]
      refine congrArg (Prod.mk none) (List.map_congr_left fun row member => ?_)
      exact if_neg (fresh row member)
  | some entry =>
    obtain ⟨row,member,shown⟩ := tracks.lookup.mp found
    have key : row.key = dib.getIndex ip := congrArg Sigma.fst shown
    have same : (rowEntry row).2 = entry := eq_of_heq (Sigma.mk.inj shown).2
    refine ⟨none,now,lapsed (dib.getIndex ip) rows,?_,rfl,?_,Nat.le_succ _,?_⟩
    · simp only [DIB.call,DIB.invalidate,found]
      rw [← key,← same]
      exact tracks.invalidated member
    · rw [reference_invalidate,lapsed,List.map_map,List.map_map]
      refine congrArg (Prod.mk none) (List.map_congr_left fun other inside => ?_)
      by_cases here : other.key = dib.getIndex ip
      · simp [rowLine,here]
      · simp [rowLine,here]
    · rwa [lapsed,List.length_map]

theorem follows_call (tracks : dib.Tracks now rows) (bounded : rows.length ≤ dib.maxSize) (some_room : 1 ≤ dib.maxSize)
    (early : now < 2 ^ 64) (goes : order.Perm dib.entries.entries) (call : DIBCall) :
    ∃ answer now' rows', dib.Follows order now rows call answer now' rows' := by
  cases call with
  | check ip => exact follows_check tracks bounded ip
  | insert ip => exact follows_insert tracks bounded some_room early goes ip
  | invalidate ip => exact follows_invalidate tracks bounded ip

end

/-! ### Runs -/

theorem DIB.call_sizes (dib : DIB) (order : DIB.Order) (call : DIBCall) :
    (dib.call order call).2.maxSize = dib.maxSize ∧ (dib.call order call).2.shiftAmount = dib.shiftAmount := by
  have evicted : (dib.evict order).maxSize = dib.maxSize ∧ (dib.evict order).shiftAmount = dib.shiftAmount := by
    unfold DIB.evict
    split <;> exact ⟨rfl,rfl⟩
  cases call with
  | check ip =>
    simp only [DIB.call,DIB.check]
    split
    · exact ⟨rfl,rfl⟩
    · split <;> exact ⟨rfl,rfl⟩
  | insert ip =>
    simp only [DIB.call,DIB.insert]
    split
    · exact ⟨rfl,rfl⟩
    · split
      · exact evicted
      · exact ⟨rfl,rfl⟩
  | invalidate ip =>
    simp only [DIB.call,DIB.invalidate]
    split <;> exact ⟨rfl,rfl⟩

theorem lruRun_concat (maxSize shiftAmount : Nat) (calls : List DIBCall) (call : DIBCall) :
    lruRun maxSize shiftAmount (calls ++ [call]) =
      let (answer,lines) := lruCall maxSize shiftAmount (lruRun maxSize shiftAmount calls).2 call
      ((lruRun maxSize shiftAmount calls).1 ++ [answer],lines) := by
  simp only [lruRun,List.foldl_append,List.foldl_cons,List.foldl_nil]

section
variable {maxSize shiftAmount : Nat} {calls : List DIBCall} {answers : List (Option Bool)} {dib : DIB}

/-- The rows of the buffer after some calls are the lines of the list, while the clock has
    counted no more than the calls. -/
theorem run_tracks (some_room : 1 ≤ maxSize) (run : DIB.Run maxSize shiftAmount calls answers dib)
    (few : calls.length ≤ 2 ^ 64) : dib.maxSize = maxSize ∧ dib.shiftAmount = shiftAmount ∧
      ∃ now rows, dib.Tracks now rows ∧ now ≤ calls.length ∧ rows.length ≤ maxSize ∧
        lruRun maxSize shiftAmount calls = (answers,rows.map rowLine) := by
  induction run with
  | start => exact ⟨rfl,rfl,0,[],⟨byRecency_nil,.refl _,rfl⟩,le_rfl,Nat.zero_le _,rfl⟩
  | @call calls answers dib order next run goes ih =>
    rw [List.length_append,List.length_singleton] at few ⊢
    obtain ⟨same_size,same_shift,now,rows,tracks,counted,bounded,reference⟩ := ih (by omega)
    obtain ⟨size_kept,shift_kept⟩ := dib.call_sizes order next
    have early : now < 2 ^ 64 := by omega
    obtain ⟨answer,now',rows',follows⟩ :=
      follows_call tracks (same_size ▸ bounded) (same_size ▸ some_room) early goes next
    refine ⟨size_kept.trans same_size,shift_kept.trans same_shift,now',rows',follows.tracks,?_,?_,?_⟩
    · exact Nat.le_trans follows.clock (by omega)
    · exact same_size ▸ follows.bounded
    · have called := follows.reference
      rw [same_size,same_shift] at called
      rw [lruRun_concat,reference,called,follows.answers]

/-- For up to `2 ^ 64` calls, the buffer is the list by recency: it has its lines and
    answers as it does, in whatever order the map is gone through. -/
theorem dib_is_lru (some_room : 1 ≤ maxSize) (few : calls.length ≤ 2 ^ 64)
    (run : DIB.Run maxSize shiftAmount calls answers dib) : dib.IsLru maxSize shiftAmount calls answers := by
  obtain ⟨-,-,now,rows,tracks,-,bounded,reference⟩ := run_tracks some_room run few
  refine ⟨?_,?_,?_⟩
  · rw [reference]
  · rw [reference]
    exact tracks.lines_perm
  · rw [reference,List.length_map]
    exact bounded

end

/-- The answers to some calls and the buffer afterwards, when the map is gone through as it lies. -/
def DIB.played (maxSize shiftAmount : Nat) (calls : List DIBCall) : List (Option Bool) × DIB :=
  calls.foldl (fun s call =>
    let (answer,dib) := s.2.call s.2.entries.entries call
    (s.1 ++ [answer],dib)) ([],.newDIB maxSize shiftAmount)

theorem played_run (maxSize shiftAmount : Nat) (calls : List DIBCall) :
    DIB.Run maxSize shiftAmount calls (DIB.played maxSize shiftAmount calls).1 (DIB.played maxSize shiftAmount calls).2 := by
  induction calls using List.reverseRecOn with
  | nil => exact .start
  | append_singleton calls call ih =>
    have next := DIB.Run.call call ih (.refl _)
    simpa only [DIB.played,List.foldl_append,List.foldl_cons,List.foldl_nil] using next

/-- The older of two lines is hit, and then invalidated. -/
def hitAndInvalidated : List DIBCall :=
  [.insert 64,.insert 128,.check 64,.invalidate 64,.insert 192,.check 64,.check 128,.check 192]

/-- After the hit the other line is the oldest, and gives way to the third. -/
theorem dib_is_lru_hit :
    ((DIB.played 2 6 hitAndInvalidated).1 =
        [none,none,some true,none,none,some false,some false,some true] ∧
      (DIB.played 2 6 hitAndInvalidated).2.lines.map LruLine.ip = [192,64]) ∧
    (DIB.played 2 6 hitAndInvalidated).2.IsLru 2 6 hitAndInvalidated (DIB.played 2 6 hitAndInvalidated).1 :=
  ⟨by decide +kernel,dib_is_lru (by decide) (by decide) (played_run 2 6 hitAndInvalidated)⟩

/-- The buffer of one line, used at the time `n`. -/
def oneLine (n : Nat) : DIB where
  entries := (∅ : AList fun _ : UInt64 => DIBEntry).insert 1 { ip := 1, valid := true, lastAccessTime := UInt64.ofNat n }
  maxSize := 1
  shiftAmount := 0
  currentTime := UInt64.ofNat (n + 1)

theorem oneLine_run : ∀ n, ∃ answers, DIB.Run 1 0 (.insert 1 :: List.replicate n (.check 1)) answers (oneLine n)
  | 0 => ⟨_,DIB.Run.call (.insert 1) .start (List.Perm.refl [])⟩
  | n + 1 => by
    obtain ⟨answers,run⟩ := oneLine_run n
    have next := DIB.Run.call (.check 1) run (.refl _)
    rw [List.cons_append,← List.replicate_succ'] at next
    have checked : (oneLine n).check 1 = (true,oneLine (n + 1)) := by
      have found : (oneLine n).entries.lookup ((oneLine n).getIndex 1) =
          some { ip := 1, valid := true, lastAccessTime := UInt64.ofNat n } :=
        AList.lookup_insert (∅ : AList fun _ : UInt64 => DIBEntry)
      simp only [DIB.check,found,and_self,if_true]
      refine congrArg (Prod.mk true) ?_
      simp only [DIB.stamp,oneLine]
      congr 1
      rw [UInt64.ofNat_add (n + 1)]
      rfl
    simp only [DIB.call,checked] at next
    exact ⟨_,next⟩

/-- When the clock stands at its last value, the only entry is not found to be old, and a
    buffer of one line has two. -/
theorem dib_two_lines : ¬ ∀ maxSize shiftAmount calls answers dib, 1 ≤ maxSize →
    DIB.Run maxSize shiftAmount calls answers dib → dib.IsLru maxSize shiftAmount calls answers := by
  intro always
  obtain ⟨answers,run⟩ := oneLine_run (2 ^ 64 - 1)
  obtain ⟨-,same,few⟩ := always 1 0 _ _ _ le_rfl (.call (.insert 2) run (.refl _))
  have two : ((oneLine (2 ^ 64 - 1)).call (oneLine (2 ^ 64 - 1)).entries.entries (.insert 2)).2.lines.length = 2 := by
    decide +kernel
  rw [← same.length_eq,two] at few
  exact absurd few (by decide)

end FlowSim.Cpu
