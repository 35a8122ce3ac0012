import Mathlib.Data.List.Nodup

/-! Allocated objects in allocation order, addressed by numbers that are never reused.
A freed object is simply absent, so a dangling address is one that is not found. Every
operation's effect is stated on the cells, and proofs work with cell membership.
-/

namespace Program

/-- Live objects with their addresses, oldest first. Addresses are distinct and lie below
`next`, the address of the next allocation.
-/
@[ext]
structure Pool (α : Type) where
  next : Nat
  cells : List (Nat × α)
  below : ∀ cell ∈ cells, cell.1 < next
  distinct : (cells.map Prod.fst).Nodup

namespace Pool

variable {α : Type}

/-- No object, with `first` as the first address to hand out. -/
def empty (first : Nat) : Pool α where
  next := first
  cells := []
  below := by simp
  distinct := by simp

/-- The object at `address`, or none when it was freed. -/
def get? (pool : Pool α) (address : Nat) : Option α :=
  (pool.cells.find? (fun cell => cell.1 == address)).map Prod.snd

/-- The objects alone, oldest first. -/
def values (pool : Pool α) : List α := pool.cells.map Prod.snd

/-- Place a new object at address `pool.next`. -/
def alloc (pool : Pool α) (value : α) : Pool α where
  next := pool.next + 1
  cells := pool.cells ++ [(pool.next, value)]
  below := by
    intro cell member
    rcases List.mem_append.mp member with old | new
    · exact Nat.lt_succ_of_lt (pool.below cell old)
    · rw [List.mem_singleton.mp new]
      exact Nat.lt_succ_self _
  distinct := by
    rw [List.map_append, List.nodup_append]
    refine ⟨pool.distinct, by simp, ?_⟩
    intro old oldMember new newMember
    obtain ⟨cell, member, rfl⟩ := List.mem_map.mp oldMember
    have bound := pool.below cell member
    simp only [List.map_cons, List.map_nil, List.mem_singleton] at newMember
    omega

/-- Rewrite the object at `address`; nothing happens when it was freed. -/
def modify (pool : Pool α) (address : Nat) (f : α → α) : Pool α where
  next := pool.next
  cells := pool.cells.map (fun cell => if cell.1 = address then (cell.1, f cell.2) else cell)
  below := by
    intro cell member
    obtain ⟨old, oldMember, rfl⟩ := List.mem_map.mp member
    have bound := pool.below old oldMember
    split <;> exact bound
  distinct := by
    have same : (pool.cells.map (fun cell =>
        if cell.1 = address then (cell.1, f cell.2) else cell)).map Prod.fst
        = pool.cells.map Prod.fst := by
      rw [List.map_map]
      apply List.map_congr_left
      intro cell _
      simp only [Function.comp_apply]
      split <;> rfl
    rw [same]
    exact pool.distinct

/-- Free the object at `address`. -/
def erase (pool : Pool α) (address : Nat) : Pool α where
  next := pool.next
  cells := pool.cells.filter (fun cell => cell.1 != address)
  below := fun cell member => pool.below cell (List.mem_filter.mp member).1
  distinct := (List.filter_sublist.map Prod.fst).nodup pool.distinct

@[simp]
theorem next_alloc (pool : Pool α) (value : α) : (pool.alloc value).next = pool.next + 1 := rfl

@[simp]
theorem next_modify (pool : Pool α) (address : Nat) (f : α → α)
    : (pool.modify address f).next = pool.next :=
  rfl

@[simp]
theorem next_erase (pool : Pool α) (address : Nat) : (pool.erase address).next = pool.next :=
  rfl

/-- Lookup succeeds exactly on the stored cells; distinct addresses exclude any other hit. -/
theorem get?_eq_some_iff {pool : Pool α} {address : Nat} {value : α}
    : pool.get? address = some value ↔ (address, value) ∈ pool.cells := by
  constructor
  · intro found
    obtain ⟨cell, hit, rfl⟩ := Option.map_eq_some_iff.mp found
    have same : cell.1 = address := by simpa using List.find?_some hit
    subst same
    exact List.mem_of_find?_eq_some hit
  · intro member
    cases hit : pool.cells.find? (fun cell => cell.1 == address) with
    | none =>
        have absent := List.find?_eq_none.mp hit _ member
        simp at absent
    | some cell =>
        have same : cell.1 = address := by simpa using List.find?_some hit
        have equal : cell = (address, value) :=
          List.inj_on_of_nodup_map pool.distinct (List.mem_of_find?_eq_some hit) member same
        simp [get?, hit, equal]

/-- A lookup fails exactly when no cell carries the address. -/
theorem get?_eq_none_iff {pool : Pool α} {address : Nat}
    : pool.get? address = none ↔ ∀ value, (address, value) ∉ pool.cells := by
  constructor
  · intro missing value member
    rw [get?_eq_some_iff.mpr member] at missing
    cases missing
  · intro absent
    cases found : pool.get? address with
    | none => rfl
    | some value => exact (absent value (get?_eq_some_iff.mp found)).elim

/-- A found address lies below the next allocation. -/
theorem lt_next {pool : Pool α} {address : Nat} {value : α}
    (found : pool.get? address = some value)
    : address < pool.next :=
  pool.below _ (get?_eq_some_iff.mp found)

@[simp]
theorem mem_alloc {pool : Pool α} {value : α} {cell : Nat × α}
    : cell ∈ (pool.alloc value).cells ↔ cell ∈ pool.cells ∨ cell = (pool.next, value) := by
  simp [alloc]

@[simp]
theorem mem_modify {pool : Pool α} {address : Nat} {f : α → α} {cell : Nat × α}
    : cell ∈ (pool.modify address f).cells
      ↔ ∃ old ∈ pool.cells,
          (if old.1 = address then (old.1, f old.2) else old) = cell := by
  simp [modify]

@[simp]
theorem mem_erase {pool : Pool α} {address : Nat} {cell : Nat × α}
    : cell ∈ (pool.erase address).cells ↔ cell ∈ pool.cells ∧ cell.1 ≠ address := by
  simp [erase]

/-- A fresh object is found at its address. -/
@[simp]
theorem get?_alloc_self (pool : Pool α) (value : α)
    : (pool.alloc value).get? pool.next = some value :=
  get?_eq_some_iff.mpr (mem_alloc.mpr (Or.inr rfl))

/-- Allocation does not move the objects that were there. -/
theorem get?_alloc_of_ne {pool : Pool α} {address : Nat} (value : α)
    (old : address ≠ pool.next)
    : (pool.alloc value).get? address = pool.get? address := by
  unfold get? alloc
  rw [List.find?_append]
  simp [Ne.symm old]

@[simp]
theorem get?_modify_self (pool : Pool α) (address : Nat) (f : α → α)
    : (pool.modify address f).get? address = (pool.get? address).map f := by
  cases found : pool.get? address with
  | none =>
      simp only [Option.map_none, get?_eq_none_iff, mem_modify, not_exists, not_and]
      rintro value ⟨key, old⟩ member same
      by_cases hit : key = address
      · subst hit
        exact get?_eq_none_iff.mp found old member
      · simp only [hit, if_false, Prod.mk.injEq, false_and] at same
  | some value =>
      rw [Option.map_some, get?_eq_some_iff, mem_modify]
      exact ⟨_, get?_eq_some_iff.mp found, by simp⟩

/-- Rewriting one object leaves the others alone. -/
theorem get?_modify_of_ne {pool : Pool α} {address other : Nat} (f : α → α)
    (apart : other ≠ address)
    : (pool.modify address f).get? other = pool.get? other := by
  unfold get? modify
  simp only [List.find?_map]
  have same : ((fun cell : Nat × α => cell.1 == other)
      ∘ fun cell => if cell.1 = address then (cell.1, f cell.2) else cell)
      = fun cell => cell.1 == other := by
    funext cell
    simp only [Function.comp_apply]
    split <;> rfl
  rw [same]
  cases hit : pool.cells.find? (fun cell => cell.1 == other) with
  | none => rfl
  | some cell =>
      have key : cell.1 = other := by simpa using List.find?_some hit
      simp [key, apart]

/-- Only what a rewrite does to the object that is there matters. -/
theorem modify_congr {pool : Pool α} {address : Nat} {f g : α → α}
    (same : ∀ value, pool.get? address = some value → f value = g value)
    : pool.modify address f = pool.modify address g := by
  refine Pool.ext rfl (List.map_congr_left fun cell member => ?_)
  split
  · rename_i here
    rw [same cell.2 (get?_eq_some_iff.mpr (here ▸ member))]
  · rfl

/-- Writing an object back as it is changes nothing. -/
theorem modify_of_same {pool : Pool α} {address : Nat} {f : α → α}
    (same : ∀ value, pool.get? address = some value → f value = value)
    : pool.modify address f = pool := by
  rw [modify_congr (f := f) (g := id) same]
  refine Pool.ext rfl ?_
  conv_rhs => rw [← List.map_id pool.cells]
  refine List.map_congr_left fun cell _ => ?_
  split <;> rfl

/-- Rewriting a freed object changes nothing. -/
theorem modify_of_absent {pool : Pool α} {address : Nat} (f : α → α)
    (absent : pool.get? address = none)
    : pool.modify address f = pool :=
  modify_of_same (fun value found => by rw [absent] at found; cases found)

/-- Two rewrites of one object are one. -/
theorem modify_modify (pool : Pool α) (address : Nat) (f g : α → α)
    : (pool.modify address f).modify address g = pool.modify address (fun v => g (f v)) := by
  refine Pool.ext rfl ?_
  simp only [modify, List.map_map]
  refine List.map_congr_left fun cell _ => ?_
  by_cases here : cell.1 = address <;> simp [here]

/-- Freeing what was just placed leaves the other objects. -/
theorem cells_erase_alloc (pool : Pool α) (value : α)
    : ((pool.alloc value).erase pool.next).cells = pool.cells := by
  simp only [erase, alloc, List.filter_append]
  rw [List.filter_eq_self.mpr]
  · simp
  · intro cell member
    simpa using Nat.ne_of_lt (pool.below cell member)

/-- Rewriting a fresh object is allocating the rewritten one. -/
theorem modify_alloc_self (pool : Pool α) (value : α) (f : α → α)
    : (pool.alloc value).modify pool.next f = pool.alloc (f value) := by
  refine Pool.ext rfl ?_
  simp only [modify, alloc, List.map_append, List.map_cons, List.map_nil, if_true]
  congr 1
  conv_rhs => rw [← List.map_id pool.cells]
  refine List.map_congr_left fun cell member => ?_
  have old := pool.below cell member
  rw [if_neg (Nat.ne_of_lt old)]
  rfl

/-- Addresses below the next one are not touched by an allocation. -/
theorem get?_alloc_of_lt {pool : Pool α} {address : Nat} (value : α)
    (old : address < pool.next)
    : (pool.alloc value).get? address = pool.get? address :=
  get?_alloc_of_ne value (Nat.ne_of_lt old)

/-- Objects at or above the next address do not exist yet. -/
theorem get?_of_le {pool : Pool α} {address : Nat} (beyond : pool.next ≤ address)
    : pool.get? address = none := by
  cases found : pool.get? address with
  | none => rfl
  | some value => exact absurd (lt_next found) (Nat.not_lt.mpr beyond)

/-- What an allocation leaves at an address: the new object, or what was there. -/
theorem get?_alloc_eq_some {pool : Pool α} {address : Nat} {value found : α}
    : (pool.alloc value).get? address = some found
      ↔ (address = pool.next ∧ found = value) ∨ pool.get? address = some found := by
  rw [get?_eq_some_iff, get?_eq_some_iff, mem_alloc]
  constructor
  · rintro (old | new)
    · exact Or.inr old
    · exact Or.inl (by simpa using new)
  · rintro (⟨rfl, rfl⟩ | old)
    · exact Or.inr rfl
    · exact Or.inl old

/-- What a rewrite leaves at an address. -/
theorem get?_modify_eq_some {pool : Pool α} {address other : Nat} {f : α → α} {found : α}
    : (pool.modify address f).get? other = some found
      ↔ ∃ old, pool.get? other = some old
          ∧ found = if other = address then f old else old := by
  by_cases here : other = address
  · subst here
    rw [get?_modify_self, Option.map_eq_some_iff]
    constructor
    · rintro ⟨old, there, rfl⟩
      exact ⟨old, there, by simp⟩
    · rintro ⟨old, there, rfl⟩
      exact ⟨old, there, by simp⟩
  · simp only [get?_modify_of_ne f here, here, if_false]
    constructor
    · exact fun found => ⟨_, found, rfl⟩
    · rintro ⟨old, found, rfl⟩
      exact found

/-- What a removal leaves at an address. -/
theorem get?_erase_eq_some {pool : Pool α} {address other : Nat} {found : α}
    : (pool.erase address).get? other = some found
      ↔ other ≠ address ∧ pool.get? other = some found := by
  rw [get?_eq_some_iff, get?_eq_some_iff, mem_erase, and_comm]

@[simp]
theorem get?_erase_self (pool : Pool α) (address : Nat)
    : (pool.erase address).get? address = none := by
  simp [get?_eq_none_iff]

/-- A rewrite of an object that is freed then does not matter. -/
theorem erase_modify (pool : Pool α) (address : Nat) (f : α → α)
    : (pool.modify address f).erase address = pool.erase address := by
  refine Pool.ext rfl ?_
  simp only [modify, erase, List.filter_map]
  have kept : (fun cell : Nat × α => cell.1 != address)
      ∘ (fun cell => if cell.1 = address then (cell.1, f cell.2) else cell)
      = fun cell => cell.1 != address := by
    funext cell
    simp only [Function.comp_apply]
    split <;> rfl
  rw [kept]
  conv_rhs => rw [← List.map_id (pool.cells.filter _)]
  refine List.map_congr_left (fun cell member => ?_)
  have other : cell.1 ≠ address := by simpa using (List.mem_filter.mp member).2
  rw [if_neg other]
  rfl

/-- Rewrite the objects at these addresses in turn. -/
def modifyAll (pool : Pool α) (f : α → α) (addresses : List Nat) : Pool α :=
  addresses.foldl (fun pool address => pool.modify address f) pool

/-- Rewriting an object again makes no difference, so each address counts once. -/
theorem get?_modifyAll {f : α → α} (settles : ∀ value, f (f value) = f value) (pool : Pool α)
    (addresses : List Nat) (other : Nat)
    : (pool.modifyAll f addresses).get? other
      = (pool.get? other).map (fun value => if other ∈ addresses then f value else value) := by
  induction addresses generalizing pool with
  | nil => simp [modifyAll]
  | cons address rest ih =>
      have first : pool.modifyAll f (address :: rest) = (pool.modify address f).modifyAll f rest :=
        rfl
      rw [first, ih]
      by_cases here : other = address
      · subst here
        rw [get?_modify_self, Option.map_map]
        congr 1
        funext value
        simp [settles]
      · rw [get?_modify_of_ne f here]
        simp [here]

/-- Some object is at the address. -/
def Live (pool : Pool α) (address : Nat) : Prop := (pool.get? address).isSome

theorem live_of_get? {pool : Pool α} {address : Nat} {value : α}
    (found : pool.get? address = some value)
    : pool.Live address :=
  Option.isSome_iff_exists.mpr ⟨value, found⟩

theorem Live.lt_next {pool : Pool α} {address : Nat} (live : pool.Live address)
    : address < pool.next := by
  obtain ⟨value, found⟩ := Option.isSome_iff_exists.mp live
  exact Pool.lt_next found

theorem live_alloc_self (pool : Pool α) (value : α) : (pool.alloc value).Live pool.next :=
  live_of_get? (get?_alloc_self pool value)

theorem Live.alloc {pool : Pool α} {address : Nat} (live : pool.Live address) (value : α)
    : (pool.alloc value).Live address := by
  rw [Live, get?_alloc_of_lt value live.lt_next]
  exact live

theorem Live.modify {pool : Pool α} {address : Nat} (live : pool.Live address) (other : Nat)
    (f : α → α)
    : (pool.modify other f).Live address := by
  obtain ⟨value, found⟩ := Option.isSome_iff_exists.mp live
  exact live_of_get? (get?_modify_eq_some.mpr ⟨value, found, rfl⟩)

theorem live_modify_iff {pool : Pool α} {address other : Nat} {f : α → α}
    : (pool.modify other f).Live address ↔ pool.Live address := by
  refine ⟨fun live => ?_, fun live => live.modify other f⟩
  obtain ⟨value, found⟩ := Option.isSome_iff_exists.mp live
  obtain ⟨old, before, _⟩ := get?_modify_eq_some.mp found
  exact live_of_get? before

/-- Freeing one object leaves the others alone. -/
theorem get?_erase_of_ne {pool : Pool α} {address other : Nat} (apart : other ≠ address)
    : (pool.erase address).get? other = pool.get? other := by
  cases found : pool.get? other with
  | none =>
      rw [get?_eq_none_iff] at found ⊢
      intro value member
      exact found value (mem_erase.mp member).1
  | some value =>
      rw [get?_eq_some_iff] at found ⊢
      exact mem_erase.mpr ⟨found, apart⟩

end Pool

end Program
