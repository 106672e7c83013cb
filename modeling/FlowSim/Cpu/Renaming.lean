import FlowSim.Cpu.RegisterAllocator

/-!
What the allocator keeps. `past` and `pending` are the registers allocated for
the writes of retired instructions and of those still under way, oldest first.
`Renaming` says that the two tables are the latest of the past and of all of
them, that no register is in two places, and that nothing has happened to a
register in use since it was allocated. Each operation of the allocator keeps it.
-/
namespace FlowSim.Cpu
set_option linter.unusedSimpArgs false

/-- A register allocated for a write. -/
structure Alloc where
  instrID : Nat
  archReg : UInt8
  physReg : PhysicalRegisterID
deriving DecidableEq

def Alloc.event (x : Alloc) : RegisterEvent := .dest x.instrID x.archReg x.physReg

/-! ### Reading the events -/

/-- The registers allocated for writes, oldest first. -/
def destAllocs (events : List RegisterEvent) : List Alloc :=
  events.filterMap fun
    | .dest instrID archReg physReg => some ⟨instrID,archReg,physReg⟩
    | _ => none

/-- The registers allocated for the initial value of an architectural register. -/
def initials (events : List RegisterEvent) (archReg : UInt8) : List PhysicalRegisterID :=
  events.filterMap fun
    | .initial other physReg => if other = archReg then some physReg else none
    | _ => none

def initialOf (events : List RegisterEvent) (archReg : UInt8) : PhysicalRegisterID :=
  (initials events archReg).head?.getD invalidPhysicalRegister

/-- The last thing that happened to a physical register. -/
def lastEvent (events : List RegisterEvent) (physReg : PhysicalRegisterID) : Option RegisterEvent :=
  (events.filter (fun event => event.register = physReg)).getLast?

/-- The register of the latest write of an architectural register, if there is one. -/
def latest (archReg : UInt8) (start : PhysicalRegisterID) (allocs : List Alloc) : PhysicalRegisterID :=
  allocs.foldl (fun current x => if x.archReg = archReg then x.physReg else current) start

section
variable {events : List RegisterEvent} {archReg : UInt8} {physReg start : PhysicalRegisterID} {allocs : List Alloc}

@[simp] theorem destAllocs_append (before after : List RegisterEvent) :
    destAllocs (before ++ after) = destAllocs before ++ destAllocs after := List.filterMap_append

@[simp] theorem initials_append (before after : List RegisterEvent) :
    initials (before ++ after) archReg = initials before archReg ++ initials after archReg := List.filterMap_append

@[simp] theorem destAllocs_dest (instrID : Nat) :
    destAllocs [.dest instrID archReg physReg] = [⟨instrID,archReg,physReg⟩] := rfl
@[simp] theorem destAllocs_initial : destAllocs [.initial archReg physReg] = [] := rfl
@[simp] theorem destAllocs_freed : destAllocs [.freed physReg] = [] := rfl
@[simp] theorem initials_dest (instrID : Nat) (other : UInt8) :
    initials [.dest instrID other physReg] archReg = [] := rfl
@[simp] theorem initials_freed : initials [.freed physReg] archReg = [] := rfl
@[simp] theorem initials_initial (other : UInt8) :
    initials [.initial other physReg] archReg = if other = archReg then [physReg] else [] := by
  by_cases same : other = archReg <;> simp [initials,same]

theorem initialOf_append {before after : List RegisterEvent} (nothing : initials after archReg = []) :
    initialOf (before ++ after) archReg = initialOf before archReg := by
  simp [initialOf,nothing]

theorem lastEvent_append (event : RegisterEvent) :
    lastEvent (events ++ [event]) physReg = if event.register = physReg then some event else lastEvent events physReg := by
  by_cases same : event.register = physReg <;> simp [lastEvent,same]

@[simp] theorem latest_append (more : List Alloc) :
    latest archReg start (allocs ++ more) = latest archReg (latest archReg start allocs) more := List.foldl_append

@[simp] theorem latest_singleton (x : Alloc) :
    latest archReg start [x] = if x.archReg = archReg then x.physReg else start := rfl

/-- The latest register is that of the last write, or the one at the start. -/
theorem latest_cases (archReg : UInt8) (start : PhysicalRegisterID) (allocs : List Alloc) :
    (∃ x, (allocs.filter (fun x => x.archReg = archReg)).getLast? = some x ∧ latest archReg start allocs = x.physReg) ∨
      ((allocs.filter (fun x => x.archReg = archReg)).getLast? = none ∧ latest archReg start allocs = start) := by
  induction allocs using List.reverseRecOn with
  | nil => exact .inr ⟨rfl,rfl⟩
  | append_singleton rest x ih =>
    by_cases same : x.archReg = archReg
    · exact .inl ⟨x,by simp [same],by simp [same]⟩
    · simpa [same] using ih

/-- Where the latest register is not the one at the start, that one does not matter. -/
theorem latest_start {start' : PhysicalRegisterID} (moved : latest archReg start allocs ≠ start) :
    latest archReg start' allocs = latest archReg start allocs := by
  rcases latest_cases archReg start allocs with ⟨x,last,value⟩ | ⟨_,value⟩
  · rcases latest_cases archReg start' allocs with ⟨x',last',value'⟩ | ⟨none_,_⟩
    · rw [value,value',Option.some.inj (last'.symm.trans last)]
    · rw [none_] at last
      cases last
  · exact absurd value moved

/-- The event that gave an architectural register its committed register. -/
def originEvent (archReg : UInt8) (past : List Alloc) (physReg : PhysicalRegisterID) : RegisterEvent :=
  ((past.filter (fun x => x.archReg = archReg)).getLast?.map Alloc.event).getD (.initial archReg physReg)

end

/-! ### What is kept -/

/-- The registers that can be handed out before the panic, if it comes to one. -/
def RegisterAllocator.usable (ra : RegisterAllocator) : List PhysicalRegisterID :=
  ra.freeRegisters.takeWhile PhysicalRegisterID.isValid

structure Renaming (ra : RegisterAllocator) (past pending : List Alloc) : Prop where
  allocs : destAllocs ra.events = past ++ pending
  once : ∀ a, (initials ra.events a).length ≤ 1
  backend : ∀ a, ra.backendRAT a = latest a (initialOf ra.events a) past
  frontend : ∀ a, ra.frontendRAT a = latest a (initialOf ra.events a) (past ++ pending)
  file : ∀ x ∈ pending, (ra.physicalRegisterFile x.physReg).archRegIndex = x.archReg
  inFile : (∀ p ∈ ra.usable, ra.inFile p) ∧ (∀ x ∈ past ++ pending, ra.inFile x.physReg) ∧
    ∀ a, ∀ p ∈ initials ra.events a, ra.inFile p
  nodup : (ra.usable ++ pending.map Alloc.physReg).Nodup
  injective : ∀ a b, ra.backendRAT a = ra.backendRAT b → ra.backendRAT a ≠ invalidPhysicalRegister → a = b
  apart : ∀ a, ra.backendRAT a ∉ ra.usable ++ pending.map Alloc.physReg
  pendingEvent : ∀ x ∈ pending, lastEvent ra.events x.physReg = some x.event
  backendEvent : ∀ a, ra.backendRAT a ≠ invalidPhysicalRegister →
    lastEvent ra.events (ra.backendRAT a) = some (originEvent a past (ra.backendRAT a))

section
variable {ra ra' : RegisterAllocator} {past pending : List Alloc} {archReg : UInt8} {physReg : PhysicalRegisterID}

/-- What the registers in the file are. -/
theorem valid_of_inFile (inside : ra.inFile physReg = true) : PhysicalRegisterID.isValid physReg = true := by
  simp only [RegisterAllocator.inFile,PhysicalRegisterID.isValid,decide_eq_true_eq] at inside ⊢
  exact inside.1

theorem ne_invalid (valid : PhysicalRegisterID.isValid physReg = true) : physReg ≠ invalidPhysicalRegister := by
  rintro rfl
  exact absurd valid (by decide)

/-- The latest register of a write that is known, or of the initial value, is in
    the file. -/
theorem Renaming.latest_inFile (kept : Renaming ra past pending) (a : UInt8) {allocs : List Alloc}
    (known : ∀ x ∈ allocs, x ∈ past ++ pending) : latest a (initialOf ra.events a) allocs = invalidPhysicalRegister ∨
      ra.inFile (latest a (initialOf ra.events a) allocs) = true := by
  rcases latest_cases a (initialOf ra.events a) allocs with ⟨x,last,value⟩ | ⟨_,value⟩ <;> rw [value]
  · have member : x ∈ allocs := List.mem_of_mem_filter (List.mem_of_getLast? last)
    exact .inr (kept.inFile.2.1 x (known x member))
  · rcases found : initials ra.events a with _ | ⟨first,rest⟩
    · exact .inl (by simp [initialOf,found])
    · exact .inr (by simpa [initialOf,found] using kept.inFile.2.2 a first (by simp [found]))

/-- A register taken from the free list to be handed out. -/
theorem usable_pop {rest : List PhysicalRegisterID} (free : ra.freeRegisters = physReg :: rest)
    (inside : ra.inFile physReg = true) : ra.usable = physReg :: rest.takeWhile PhysicalRegisterID.isValid := by
  simp [RegisterAllocator.usable,free,valid_of_inFile inside]

/-- The registers in use, and what becomes of them when one is handed out. -/
theorem Renaming.fresh {rest : List PhysicalRegisterID} (kept : Renaming ra past pending)
    (free : ra.freeRegisters = physReg :: rest) (inside : ra.inFile physReg = true) :
    physReg ∉ rest.takeWhile PhysicalRegisterID.isValid ++ pending.map Alloc.physReg ∧
      (rest.takeWhile PhysicalRegisterID.isValid ++ pending.map Alloc.physReg).Nodup ∧
      ∀ a, ra.backendRAT a ≠ physReg ∧
        ra.backendRAT a ∉ rest.takeWhile PhysicalRegisterID.isValid ++ pending.map Alloc.physReg := by
  have nodup := kept.nodup
  rw [usable_pop free inside,List.cons_append,List.nodup_cons] at nodup
  refine ⟨nodup.1,nodup.2,fun a => ?_⟩
  have apart := kept.apart a
  rw [usable_pop free inside,List.cons_append,List.mem_cons,not_or] at apart
  exact apart

theorem renaming_renameDest {producerID : Nat} (kept : Renaming ra past pending)
    (renamed : ra.renameDestRegister archReg producerID = .ok (physReg,ra')) :
    Renaming ra' past (pending ++ [⟨producerID,archReg,physReg⟩]) ∧
      ra'.events = ra.events ++ [.dest producerID archReg physReg] := by
  obtain ⟨rest,free,inside,rfl⟩ := RegisterAllocator.renameDestRegister_ok renamed
  obtain ⟨unused,nodup,backend⟩ := kept.fresh free inside
  have others : ∀ x ∈ pending, x.physReg ≠ physReg := fun x member same =>
    unused (List.mem_append_right _ (List.mem_map.mpr ⟨x,member,same⟩))
  have same : ∀ a, initialOf (ra.events ++ [.dest producerID archReg physReg]) a = initialOf ra.events a :=
    fun a => initialOf_append (initials_dest ..)
  have swapped : (rest.takeWhile PhysicalRegisterID.isValid ++
      (pending ++ [(⟨producerID,archReg,physReg⟩ : Alloc)]).map Alloc.physReg).Perm
      (physReg :: (rest.takeWhile PhysicalRegisterID.isValid ++ pending.map Alloc.physReg)) := by
    rw [List.map_append,← List.append_assoc]
    exact List.perm_append_singleton ..
  refine ⟨?_,rfl⟩
  constructor
  case allocs => simp [kept.allocs]
  case once => simpa using kept.once
  case backend => simpa only [same] using kept.backend
  case frontend =>
    intro a
    have before := kept.frontend a
    simp only [same,latest_append,latest_singleton,Function.update_apply] at before ⊢
    by_cases here : a = archReg
    · rw [if_pos here,if_pos here.symm]
    · rw [if_neg here,if_neg (Ne.symm here),before]
  case file =>
    intro x member
    rcases List.mem_append.mp member with old | new
    · simpa [Function.update_of_ne (others x old)] using kept.file x old
    · obtain rfl := List.mem_singleton.mp new
      simp
  case inFile =>
    obtain ⟨usable,used,first⟩ := kept.inFile
    rw [usable_pop free inside] at usable
    refine ⟨fun p member => usable p (List.mem_cons_of_mem _ member),?_,fun a p member => first a p (by simpa using member)⟩
    intro x member
    rw [← List.append_assoc] at member
    rcases List.mem_append.mp member with old | new
    · exact used x old
    · obtain rfl := List.mem_singleton.mp new
      exact inside
  case nodup => exact swapped.nodup_iff.mpr (List.nodup_cons.mpr ⟨unused,nodup⟩)
  case injective => exact kept.injective
  case apart =>
    intro a member
    rcases List.mem_cons.mp (swapped.mem_iff.mp member) with here | old
    · exact (backend a).1 here
    · exact (backend a).2 old
  case pendingEvent =>
    intro x member
    rw [lastEvent_append]
    rcases List.mem_append.mp member with old | new
    · exact (if_neg (Ne.symm (others x old))).trans (kept.pendingEvent x old)
    · obtain rfl := List.mem_singleton.mp new
      exact if_pos rfl
  case backendEvent =>
    intro a mapped
    rw [lastEvent_append]
    exact (if_neg (Ne.symm (backend a).1)).trans (kept.backendEvent a mapped)

/-- An architectural register without a mapping has never been written or read. -/
theorem Renaming.unmapped (kept : Renaming ra past pending) (unmapped : ra.frontendRAT archReg = invalidPhysicalRegister) :
    initials ra.events archReg = [] ∧ (past ++ pending).filter (fun x => x.archReg = archReg) = [] := by
  rw [kept.frontend archReg] at unmapped
  rcases latest_cases archReg (initialOf ra.events archReg) (past ++ pending) with ⟨x,last,value⟩ | ⟨none_,value⟩
  · have member : x ∈ past ++ pending := List.mem_of_mem_filter (List.mem_of_getLast? last)
    exact absurd (value.symm.trans unmapped) (ne_invalid (valid_of_inFile (kept.inFile.2.1 x member)))
  · refine ⟨?_,List.getLast?_eq_none_iff.mp none_⟩
    rcases found : initials ra.events archReg with _ | ⟨first,rest⟩
    · rfl
    · have inside := kept.inFile.2.2 archReg first (by simp [found])
      have same : first = invalidPhysicalRegister := by simpa [initialOf,found] using value.symm.trans unmapped
      exact absurd same (ne_invalid (valid_of_inFile inside))

theorem latest_of_filter {start : PhysicalRegisterID} {allocs : List Alloc}
    (nothing : allocs.filter (fun x => x.archReg = archReg) = []) : latest archReg start allocs = start := by
  rcases latest_cases archReg start allocs with ⟨x,last,_⟩ | ⟨_,value⟩
  · rw [nothing] at last
    cases last
  · exact value

theorem renaming_renameSrc (kept : Renaming ra past pending)
    (renamed : ra.renameSrcRegister archReg = .ok (physReg,ra')) :
    Renaming ra' past pending ∧ physReg = latest archReg (initialOf ra'.events archReg) (past ++ pending) ∧
      PhysicalRegisterID.isValid physReg := by
  rcases RegisterAllocator.renameSrcRegister_ok renamed with ⟨rfl,mapped,rfl⟩ | ⟨unmapped,rest,free,inside,rfl⟩
  · refine ⟨kept,kept.frontend archReg,?_⟩
    rcases kept.latest_inFile archReg (fun x member => member) with none_ | inside
    · exact absurd ((kept.frontend archReg).trans none_) mapped
    · rw [kept.frontend archReg]
      exact valid_of_inFile inside
  · obtain ⟨none_read,none_written⟩ := kept.unmapped unmapped
    obtain ⟨unused,nodup,backend⟩ := kept.fresh free inside
    have others : ∀ x ∈ pending, x.physReg ≠ physReg := fun x member same =>
      unused (List.mem_append_right _ (List.mem_map.mpr ⟨x,member,same⟩))
    have none_past : past.filter (fun x => x.archReg = archReg) = [] := by
      rw [List.filter_append] at none_written
      exact (List.append_eq_nil_iff.mp none_written).1
    have here : initialOf (ra.events ++ [.initial archReg physReg]) archReg = physReg := by
      simp [initialOf,none_read]
    have elsewhere : ∀ {a}, a ≠ archReg →
        initialOf (ra.events ++ [.initial archReg physReg]) a = initialOf ra.events a := fun {a} other =>
      initialOf_append (by simp [Ne.symm other])
    refine ⟨?_,by rw [here,latest_of_filter none_written],valid_of_inFile inside⟩
    constructor
    case allocs => simp [kept.allocs]
    case once =>
      intro a
      by_cases same : archReg = a
      · simp [← same,none_read]
      · simpa [same] using kept.once a
    case backend =>
      intro a
      simp only [Function.update_apply]
      split
      · next same => rw [same,here,latest_of_filter none_past]
      · next other => rw [elsewhere other]; exact kept.backend a
    case frontend =>
      intro a
      simp only [Function.update_apply]
      split
      · next same => rw [same,here,latest_of_filter none_written]
      · next other => rw [elsewhere other]; exact kept.frontend a
    case file =>
      intro x member
      simpa [Function.update_of_ne (others x member)] using kept.file x member
    case inFile =>
      obtain ⟨usable,used,first⟩ := kept.inFile
      rw [usable_pop free inside] at usable
      refine ⟨fun p member => usable p (List.mem_cons_of_mem _ member),used,fun a p member => ?_⟩
      rw [initials_append,initials_initial] at member
      rcases List.mem_append.mp member with old | new
      · exact first a p old
      · split at new
        · obtain rfl := List.mem_singleton.mp new
          exact inside
        · cases new
    case nodup => exact nodup
    case injective =>
      intro a b same mapped
      simp only [Function.update_apply] at same mapped
      split_ifs at same mapped with first second
      · exact first.trans second.symm
      · exact absurd same.symm (backend b).1
      · exact absurd same (backend a).1
      · exact kept.injective a b same mapped
    case apart =>
      intro a
      simp only [Function.update_apply]
      split
      · exact unused
      · exact (backend a).2
    case pendingEvent =>
      intro x member
      rw [lastEvent_append]
      exact (if_neg (Ne.symm (others x member))).trans (kept.pendingEvent x member)
    case backendEvent =>
      intro a mapped
      rw [lastEvent_append]
      by_cases same : a = archReg
      · subst same
        simp [originEvent,none_past,RegisterEvent.register]
      · simp only [Function.update_of_ne same] at mapped ⊢
        exact (if_neg (Ne.symm (backend a).1)).trans (kept.backendEvent a mapped)

/-- Marking a value as there changes nothing else. -/
theorem renaming_complete (kept : Renaming ra past pending) (physReg : PhysicalRegisterID) :
    Renaming (ra.completeDestRegister physReg) past pending := by
  unfold RegisterAllocator.completeDestRegister
  split
  · exact kept
  · refine { kept with file := fun x member => ?_ }
    have before := kept.file x member
    simp only [RegisterAllocator.setRegister,Function.update_apply]
    split
    · next here => rw [← here]; exact before
    · exact before

/-- A committed write: the register becomes the one of the architectural register. -/
theorem renaming_commit {x : Alloc} (kept : Renaming ra past (x :: pending)) :
    Renaming { ra with backendRAT := Function.update ra.backendRAT x.archReg x.physReg } (past ++ [x]) pending := by
  have again : past ++ [x] ++ pending = past ++ x :: pending := by simp
  have swapped := List.nodup_middle.mp kept.nodup
  rw [List.nodup_cons] at swapped
  have apart : ∀ a, ra.backendRAT a ≠ x.physReg ∧ ra.backendRAT a ∉ ra.usable ++ pending.map Alloc.physReg := by
    intro a
    have before := kept.apart a
    simp only [List.map_cons,List.mem_append,List.mem_cons,not_or] at before ⊢
    exact ⟨before.2.1,before.1,before.2.2⟩
  constructor
  case allocs => rw [again]; exact kept.allocs
  case once => exact kept.once
  case backend =>
    intro a
    simp only [Function.update_apply,latest_append,latest_singleton]
    split
    · next here => rw [if_pos here.symm]
    · next other => rw [if_neg (Ne.symm other)]; exact kept.backend a
  case frontend => rw [again]; exact kept.frontend
  case file => exact fun y member => kept.file y (List.mem_cons_of_mem _ member)
  case inFile => rw [again]; exact kept.inFile
  case nodup => exact swapped.2
  case injective =>
    intro a b same mapped
    simp only [Function.update_apply] at same mapped
    split_ifs at same mapped with first second
    · exact first.trans second.symm
    · exact absurd same.symm (apart b).1
    · exact absurd same (apart a).1
    · exact kept.injective a b same mapped
  case apart =>
    intro a
    simp only [Function.update_apply]
    split
    · exact swapped.1
    · exact (apart a).2
  case pendingEvent => exact fun y member => kept.pendingEvent y (List.mem_cons_of_mem _ member)
  case backendEvent =>
    intro a mapped
    by_cases same : a = x.archReg
    · subst same
      simpa [originEvent] using kept.pendingEvent x List.mem_cons_self
    · simp only [Function.update_of_ne same] at mapped ⊢
      rw [kept.backendEvent a mapped]
      simp [originEvent,Ne.symm same]

/-- A register that nothing refers to is freed. -/
theorem renaming_free (kept : Renaming ra past pending) (inside : ra.inFile physReg = true)
    (unused : physReg ∉ ra.usable ++ pending.map Alloc.physReg) (uncommitted : ∀ a, ra.backendRAT a ≠ physReg) :
    Renaming (ra.freeRegister physReg) past pending := by
  rw [RegisterAllocator.freeRegister_inFile inside]
  have others : ∀ x ∈ pending, x.physReg ≠ physReg := fun x member same =>
    unused (List.mem_append_right _ (List.mem_map.mpr ⟨x,member,same⟩))
  have same : ∀ a, initialOf (ra.events ++ [.freed physReg]) a = initialOf ra.events a :=
    fun a => initialOf_append initials_freed
  -- the freed register can be handed out unless a panic comes first
  have usable : (ra.freeRegisters ++ [physReg]).takeWhile PhysicalRegisterID.isValid = ra.usable ∨
      (ra.freeRegisters ++ [physReg]).takeWhile PhysicalRegisterID.isValid = ra.usable ++ [physReg] := by
    rw [List.takeWhile_append]
    split
    · next all =>
      have whole : ra.usable = ra.freeRegisters := (List.takeWhile_prefix _).eq_of_length all
      rw [whole,List.takeWhile_cons_of_pos (valid_of_inFile inside),List.takeWhile_nil]
      exact .inr rfl
    · exact .inl rfl
  constructor
  case allocs => simpa using kept.allocs
  case once => simpa using kept.once
  case backend => simpa only [same] using kept.backend
  case frontend => simpa only [same] using kept.frontend
  case file =>
    intro x member
    simpa [Function.update_of_ne (others x member)] using kept.file x member
  case inFile =>
    obtain ⟨free,used,first⟩ := kept.inFile
    refine ⟨fun p member => ?_,used,fun a p member => first a p (by simpa using member)⟩
    rcases usable with old | new
    · exact free p (old ▸ member)
    · rcases List.mem_append.mp (new ▸ member : p ∈ ra.usable ++ [physReg]) with old | here
      · exact free p old
      · obtain rfl := List.mem_singleton.mp here
        exact inside
  case nodup =>
    rcases usable with old | new
    · show ((ra.freeRegisters ++ [physReg]).takeWhile PhysicalRegisterID.isValid ++ _).Nodup
      rw [old]
      exact kept.nodup
    · show ((ra.freeRegisters ++ [physReg]).takeWhile PhysicalRegisterID.isValid ++ _).Nodup
      rw [new,List.append_assoc,List.singleton_append,List.nodup_middle,List.nodup_cons]
      exact ⟨unused,kept.nodup⟩
  case injective => exact kept.injective
  case apart =>
    intro a member
    rcases List.mem_append.mp member with free | used
    · rcases usable with old | new
      · exact kept.apart a (List.mem_append_left _ (old ▸ free))
      · rcases List.mem_append.mp (new ▸ free : ra.backendRAT a ∈ ra.usable ++ [physReg]) with old | here
        · exact kept.apart a (List.mem_append_left _ old)
        · exact uncommitted a (List.mem_singleton.mp here)
    · exact kept.apart a (List.mem_append_right _ used)
  case pendingEvent =>
    intro x member
    exact (lastEvent_append _).trans ((if_neg (Ne.symm (others x member))).trans (kept.pendingEvent x member))
  case backendEvent =>
    intro a mapped
    exact (lastEvent_append _).trans ((if_neg (Ne.symm (uncommitted a))).trans (kept.backendEvent a mapped))

/-- Retiring a write commits it, and frees the register it takes the place of. -/
theorem renaming_retireDest {x : Alloc} (kept : Renaming ra past (x :: pending)) :
    Renaming (ra.retireDestRegister x.physReg) (past ++ [x]) pending := by
  have inside : ra.inFile x.physReg = true := kept.inFile.2.1 x (List.mem_append_right _ List.mem_cons_self)
  rw [RegisterAllocator.retireDestRegister_inFile inside (kept.file x List.mem_cons_self)]
  have committed := renaming_commit kept
  simp only
  split
  · next mapped =>
    have apart := kept.apart x.archReg
    simp only [List.map_cons,List.mem_append,List.mem_cons,not_or] at apart
    refine renaming_free committed ?_ ?_ ?_
    · rw [kept.backend x.archReg] at mapped ⊢
      exact (kept.latest_inFile x.archReg (fun y member => List.mem_append_left _ member)).resolve_left mapped
    · simpa only [List.mem_append,not_or] using ⟨apart.1,apart.2.2⟩
    · intro a same
      simp only [Function.update_apply] at same
      split at same
      · exact apart.2.1 same.symm
      · next other => exact other (kept.injective a x.archReg same (same ▸ mapped))
  · exact committed

/-- The registers of a new allocator that can be handed out: numbers whose id is not
    negative, so each of them its own id. -/
theorem usable_new (numPhysical : Nat) : ∃ k, k ≤ numPhysical ∧ k ≤ 32768 ∧
    (RegisterAllocator.newRegisterAllocator numPhysical).usable = (List.range k).map Int16.ofNat := by
  have start := List.takeWhile_prefix (l := List.range numPhysical) (PhysicalRegisterID.isValid ∘ Int16.ofNat)
  rw [List.prefix_iff_eq_take,List.take_range] at start
  refine ⟨_,Nat.min_le_right _ numPhysical,?_,(List.takeWhile_map ..).trans (congrArg _ start)⟩
  by_contra more
  have member := List.mem_range.mpr (Nat.lt_of_not_le more)
  rw [← start] at member
  exact absurd (List.mem_takeWhile_imp member) (by decide)

theorem toInt_ofNat {n : Nat} (small : n < 32768) : (Int16.ofNat n).toInt = n := by
  rw [Int16.toInt_ofNat',Int.bmod_eq_of_le] <;> (simp only [Int16.size]; omega)

/-- A new allocator. -/
theorem renaming_new (numPhysical : Nat) : Renaming (.newRegisterAllocator numPhysical) [] [] := by
  obtain ⟨k,below,small,usable⟩ := usable_new numPhysical
  have number : ∀ i ∈ List.range k, (Int16.ofNat i).toInt = i := fun i member =>
    toInt_ofNat (Nat.lt_of_lt_of_le (List.mem_range.mp member) small)
  constructor
  case nodup =>
    rw [usable,List.map_nil,List.append_nil]
    refine List.Nodup.map_on ?_ List.nodup_range
    intro i here j there same
    have numbers := congrArg Int16.toInt same
    rw [number i here,number j there] at numbers
    exact Int.ofNat_inj.mp numbers
  case inFile =>
    refine ⟨fun p member => ?_,by simp,by simp [RegisterAllocator.newRegisterAllocator,initials]⟩
    rw [usable] at member
    obtain ⟨i,here,rfl⟩ := List.mem_map.mp member
    rw [RegisterAllocator.inFile_iff,number i here]
    have bound := List.mem_range.mp here
    simp only [RegisterAllocator.newRegisterAllocator]
    omega
  case apart =>
    intro a member
    rw [usable,List.map_nil,List.append_nil] at member
    obtain ⟨i,here,same⟩ := List.mem_map.mp member
    have numbers := congrArg Int16.toInt same
    rw [number i here] at numbers
    exact absurd numbers (by simp [RegisterAllocator.newRegisterAllocator,invalidPhysicalRegister])
  case injective => exact fun a b _ mapped => absurd rfl mapped
  case backendEvent => exact fun a mapped => absurd rfl mapped
  all_goals simp [RegisterAllocator.newRegisterAllocator,destAllocs,initials,initialOf,latest]

/-! ### No register is lost -/

/-- All registers are on the free list, committed, or of a write under way. -/
structure Covering (ra : RegisterAllocator) (pending : List Alloc) : Prop where
  valid : ∀ p ∈ ra.freeRegisters, PhysicalRegisterID.isValid p
  covered : ∀ p, ra.inFile p → p ∈ ra.freeRegisters ∨ (∃ a, ra.backendRAT a = p) ∨ p ∈ pending.map Alloc.physReg

theorem Covering.usable_eq (covering : Covering ra pending) : ra.usable = ra.freeRegisters :=
  List.takeWhile_eq_self_iff.mpr covering.valid

theorem covering_new {numPhysical : Nat} (small : numPhysical ≤ 32768) :
    Covering (.newRegisterAllocator numPhysical) [] := by
  constructor
  · intro p member
    obtain ⟨i,here,rfl⟩ := List.mem_map.mp member
    have number := toInt_ofNat (Nat.lt_of_lt_of_le (List.mem_range.mp here) small)
    simp [PhysicalRegisterID.isValid,number]
  · intro p inside
    obtain ⟨nonneg,below⟩ := RegisterAllocator.inFile_iff.mp inside
    have bound : p.toInt.toNat < numPhysical := by
      have : p.toInt < numPhysical := below
      omega
    refine .inl (List.mem_map.mpr ⟨p.toInt.toNat,List.mem_range.mpr bound,?_⟩)
    rw [← Int16.toInt_inj,toInt_ofNat (Nat.lt_of_lt_of_le bound small)]
    exact Int.toNat_of_nonneg nonneg

theorem covering_renameDest {producerID : Nat} (covering : Covering ra pending)
    (renamed : ra.renameDestRegister archReg producerID = .ok (physReg,ra')) :
    Covering ra' (pending ++ [⟨producerID,archReg,physReg⟩]) := by
  obtain ⟨rest,free,inside,rfl⟩ := RegisterAllocator.renameDestRegister_ok renamed
  constructor
  · exact fun p member => covering.valid p (free ▸ List.mem_cons_of_mem _ member)
  · intro p inFile
    rcases covering.covered p inFile with unused | committed | used
    · rw [free,List.mem_cons] at unused
      rcases unused with rfl | unused
      · exact .inr (.inr (by simp))
      · exact .inl unused
    · exact .inr (.inl committed)
    · exact .inr (.inr (by simpa using .inl (List.mem_map.mp used)))

theorem covering_renameSrc (kept : Renaming ra past pending) (covering : Covering ra pending)
    (renamed : ra.renameSrcRegister archReg = .ok (physReg,ra')) : Covering ra' pending := by
  rcases RegisterAllocator.renameSrcRegister_ok renamed with ⟨_,_,rfl⟩ | ⟨unmapped,rest,free,_,rfl⟩
  · exact covering
  · obtain ⟨none_read,none_written⟩ := kept.unmapped unmapped
    rw [List.filter_append] at none_written
    have uncommitted : ra.backendRAT archReg = invalidPhysicalRegister := by
      rw [kept.backend archReg,latest_of_filter (List.append_eq_nil_iff.mp none_written).1]
      simp [initialOf,none_read]
    constructor
    · exact fun p member => covering.valid p (free ▸ List.mem_cons_of_mem _ member)
    · intro p inFile
      rcases covering.covered p inFile with unused | ⟨a,committed⟩ | used
      · rw [free,List.mem_cons] at unused
        rcases unused with rfl | unused
        · exact .inr (.inl ⟨archReg,by simp⟩)
        · exact .inl unused
      · have other : a ≠ archReg := by
          rintro rfl
          exact ne_invalid (valid_of_inFile inFile) (committed.symm.trans uncommitted)
        exact .inr (.inl ⟨a,by simpa [Function.update_of_ne other] using committed⟩)
      · exact .inr (.inr used)

theorem covering_complete (covering : Covering ra pending) (physReg : PhysicalRegisterID) :
    Covering (ra.completeDestRegister physReg) pending := by
  unfold RegisterAllocator.completeDestRegister
  split
  · exact covering
  · exact ⟨covering.valid,covering.covered⟩

theorem covering_retireDest {x : Alloc} (kept : Renaming ra past (x :: pending)) (covering : Covering ra (x :: pending)) :
    Covering (ra.retireDestRegister x.physReg) pending := by
  have inside : ra.inFile x.physReg = true := kept.inFile.2.1 x (List.mem_append_right _ List.mem_cons_self)
  rw [RegisterAllocator.retireDestRegister_inFile inside (kept.file x List.mem_cons_self)]
  -- a register other than the replaced one is where it was, or committed now
  have kept_apart : ∀ p, ra.inFile p → p = ra.backendRAT x.archReg ∨ p ∈ ra.freeRegisters ∨
      (∃ a, Function.update ra.backendRAT x.archReg x.physReg a = p) ∨ p ∈ pending.map Alloc.physReg := by
    intro p inFile
    rcases covering.covered p inFile with unused | ⟨a,committed⟩ | used
    · exact .inr (.inl unused)
    · by_cases same : a = x.archReg
      · exact .inl (same ▸ committed.symm)
      · exact .inr (.inr (.inl ⟨a,by simpa [Function.update_of_ne same] using committed⟩))
    · rcases List.mem_cons.mp used with rfl | used
      · exact .inr (.inr (.inl ⟨x.archReg,by simp⟩))
      · exact .inr (.inr (.inr used))
  simp only
  split
  · next mapped =>
    let committed := { ra with backendRAT := Function.update ra.backendRAT x.archReg x.physReg }
    have replaced : committed.inFile (ra.backendRAT x.archReg) = true := by
      show ra.inFile (ra.backendRAT x.archReg) = true
      rw [kept.backend x.archReg] at mapped ⊢
      exact (kept.latest_inFile x.archReg (fun y member => List.mem_append_left _ member)).resolve_left mapped
    rw [RegisterAllocator.freeRegister_inFile replaced]
    constructor
    · intro p member
      rcases List.mem_append.mp member with old | new
      · exact covering.valid p old
      · obtain rfl := List.mem_singleton.mp new
        exact valid_of_inFile replaced
    · intro p inFile
      rcases kept_apart p inFile with rfl | unused | rest
      · exact .inl (List.mem_append_right _ List.mem_cons_self)
      · exact .inl (List.mem_append_left _ unused)
      · exact .inr rest
  · next unmapped =>
    refine ⟨covering.valid,fun p inFile => (kept_apart p inFile).resolve_left ?_⟩
    rintro rfl
    exact ne_invalid (valid_of_inFile inFile) (not_not.mp unmapped)

/-! ### The operations -/

/-- What is kept of the allocator: nothing is in two places and, as long as ids can
    number the registers, nothing is lost. -/
structure Allocation (ra : RegisterAllocator) (past pending : List Alloc) : Prop where
  renames : Renaming ra past pending
  covering : ra.numPhysical ≤ 32768 → Covering ra pending

/-- The operations add to the events; `allocs` are the writes among those added. -/
structure Extends (ra ra' : RegisterAllocator) (allocs : List Alloc) : Prop where
  numPhysical : ra'.numPhysical = ra.numPhysical
  events : ∃ more, ra'.events = ra.events ++ more ∧ destAllocs more = allocs

theorem Extends.refl (ra : RegisterAllocator) : Extends ra ra [] := ⟨rfl,[],by simp,rfl⟩

theorem Extends.trans {ra'' : RegisterAllocator} {first second : List Alloc} (before : Extends ra ra' first)
    (after : Extends ra' ra'' second) : Extends ra ra'' (first ++ second) := by
  obtain ⟨number,more,events,allocs⟩ := before
  obtain ⟨number',more',events',allocs'⟩ := after
  refine ⟨number'.trans number,more ++ more',?_,by rw [destAllocs_append,allocs,allocs']⟩
  rw [events',events,List.append_assoc]

theorem allocation_new (numPhysical : Nat) : Allocation (.newRegisterAllocator numPhysical) [] [] :=
  ⟨renaming_new numPhysical,covering_new⟩

theorem allocation_renameDest {producerID : Nat} (kept : Allocation ra past pending)
    (renamed : ra.renameDestRegister archReg producerID = .ok (physReg,ra')) :
    Allocation ra' past (pending ++ [⟨producerID,archReg,physReg⟩]) ∧ Extends ra ra' [⟨producerID,archReg,physReg⟩] := by
  obtain ⟨renames,events⟩ := renaming_renameDest kept.renames renamed
  have number : ra'.numPhysical = ra.numPhysical := by
    obtain ⟨_,_,_,rfl⟩ := RegisterAllocator.renameDestRegister_ok renamed
    rfl
  refine ⟨⟨renames,fun small => covering_renameDest (kept.covering (number ▸ small)) renamed⟩,number,_,events,rfl⟩

theorem allocation_renameSrc (kept : Allocation ra past pending)
    (renamed : ra.renameSrcRegister archReg = .ok (physReg,ra')) :
    Allocation ra' past pending ∧ Extends ra ra' [] ∧
      physReg = latest archReg (initialOf ra'.events archReg) (past ++ pending) ∧ PhysicalRegisterID.isValid physReg := by
  obtain ⟨renames,value,valid⟩ := renaming_renameSrc kept.renames renamed
  have extended : Extends ra ra' [] := by
    rcases RegisterAllocator.renameSrcRegister_ok renamed with ⟨_,_,rfl⟩ | ⟨_,_,_,_,rfl⟩
    · exact .refl ra'
    · exact ⟨rfl,_,rfl,rfl⟩
  refine ⟨⟨renames,fun small => ?_⟩,extended,value,valid⟩
  exact covering_renameSrc kept.renames (kept.covering (extended.numPhysical ▸ small)) renamed

theorem allocation_complete (kept : Allocation ra past pending) (physReg : PhysicalRegisterID) :
    Allocation (ra.completeDestRegister physReg) past pending ∧ Extends ra (ra.completeDestRegister physReg) [] := by
  have extended : Extends ra (ra.completeDestRegister physReg) [] := by
    unfold RegisterAllocator.completeDestRegister
    split
    · exact .refl ra
    · exact ⟨rfl,[],by simp [RegisterAllocator.setRegister],rfl⟩
  refine ⟨⟨renaming_complete kept.renames physReg,fun small => ?_⟩,extended⟩
  exact covering_complete (kept.covering (extended.numPhysical ▸ small)) physReg

theorem allocation_retireDest {x : Alloc} (kept : Allocation ra past (x :: pending)) :
    Allocation (ra.retireDestRegister x.physReg) (past ++ [x]) pending ∧
      Extends ra (ra.retireDestRegister x.physReg) [] := by
  have extended : Extends ra (ra.retireDestRegister x.physReg) [] := by
    unfold RegisterAllocator.retireDestRegister RegisterAllocator.freeRegister
    dsimp only
    split
    · exact .refl ra
    · split
      · split
        · exact ⟨rfl,[],by simp,rfl⟩
        · exact ⟨rfl,_,rfl,rfl⟩
      · exact ⟨rfl,[],by simp,rfl⟩
  refine ⟨⟨renaming_retireDest kept.renames,fun small => ?_⟩,extended⟩
  exact covering_retireDest kept.renames (kept.covering (extended.numPhysical ▸ small))

end
end FlowSim.Cpu
