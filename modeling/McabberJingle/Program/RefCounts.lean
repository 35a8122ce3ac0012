import McabberJingle.Program.Pool

/-! Objects with reference counts. Each reference belongs to a holder, so an object is freed with
its last reference, and nobody holds a freed object: first for any account of references, then for a
pool of objects that are counted.
-/

namespace Program

-----------------------------------------------------------------------------------------
-- Balance
-----------------------------------------------------------------------------------------

/-- Every object has as many references as there are entries for it among the holders. -/
def Balanced (refs : Nat → Nat) (holders : List Nat) : Prop := ∀ q, refs q = holders.count q

section Balance

variable {refs refs' : Nat → Nat} {holders : List Nat} {p : Nat}

theorem Balanced.perm {holders' : List Nat} (balanced : Balanced refs holders)
    (same : holders'.Perm holders)
    : Balanced refs holders' :=
  fun q => (balanced q).trans (same.count_eq q).symm

theorem Balanced.congr (balanced : Balanced refs holders) (same : ∀ q, refs' q = refs q)
    : Balanced refs' holders :=
  fun q => (same q).trans (balanced q)

/-- What is held was not freed. -/
theorem Balanced.pos (balanced : Balanced refs holders) (held : p ∈ holders) : 0 < refs p := by
  rw [balanced p]
  exact List.count_pos_iff.mpr held

/-- What was freed is not held. -/
theorem Balanced.not_mem (balanced : Balanced refs holders) (freed : refs p = 0) : p ∉ holders :=
  fun held => Nat.lt_irrefl 0 (freed ▸ balanced.pos held)

/-- Somebody takes a reference. -/
theorem Balanced.taken (balanced : Balanced refs holders)
    (more : ∀ q, refs' q = refs q + if q = p then 1 else 0)
    : Balanced refs' (p :: holders) := by
  intro q
  rw [more, balanced q, List.count_cons]
  simp only [beq_iff_eq, @eq_comm _ q]

/-- Somebody drops a reference. -/
theorem Balanced.dropped (balanced : Balanced refs holders)
    (less : ∀ q, refs' q = refs q - if q = p then 1 else 0)
    : Balanced refs' (holders.erase p) := by
  intro q
  rw [less, balanced q, List.count_erase]
  simp only [beq_iff_eq, @eq_comm _ q]

/-- Somebody drops many references. -/
theorem Balanced.droppedAll {gone : List Nat} (balanced : Balanced refs (gone ++ holders))
    (less : ∀ q, refs' q = refs q - gone.count q)
    : Balanced refs' holders := by
  intro q
  rw [less, balanced q, List.count_append]
  exact Nat.add_sub_cancel_left _ _

end Balance

-----------------------------------------------------------------------------------------
-- A pool of counted objects
-----------------------------------------------------------------------------------------

/-- An object and the number of its references. -/
structure Counted (α : Type) where
  value : α
  refs : Nat

namespace Pool

variable {α : Type} {heap : Pool (Counted α)} {p q : Nat}

/-- A new object, which its maker holds. -/
def make (heap : Pool (Counted α)) (value : α) : Pool (Counted α) :=
  heap.alloc { value, refs := 1 }

/-- One more reference. -/
def ref (heap : Pool (Counted α)) (p : Nat) : Pool (Counted α) :=
  heap.modify p (fun object => { object with refs := object.refs + 1 })

/-- One reference less; the last one takes the object with it. -/
def unref (heap : Pool (Counted α)) (p : Nat) : Pool (Counted α) :=
  if (heap.get? p).any (fun object => object.refs == 1) then
    heap.erase p
  else
    heap.modify p (fun object => { object with refs := object.refs - 1 })

/-- Change the object, not its references. -/
def update (heap : Pool (Counted α)) (p : Nat) (f : α → α) : Pool (Counted α) :=
  heap.modify p (fun object => { object with value := f object.value })

/-- The object at an address. -/
def valueAt (heap : Pool (Counted α)) (p : Nat) : Option α := (heap.get? p).map Counted.value

/-- How often an address is referenced. -/
def refsOf (heap : Pool (Counted α)) (p : Nat) : Nat :=
  ((heap.get? p).map Counted.refs).getD 0

theorem refsOf_next (heap : Pool (Counted α)) : heap.refsOf heap.next = 0 := by
  simp [refsOf, get?_of_le]

theorem refsOf_make (heap : Pool (Counted α)) (value : α) (q : Nat)
    : (heap.make value).refsOf q = heap.refsOf q + if q = heap.next then 1 else 0 := by
  by_cases here : q = heap.next
  · subst here
    rw [refsOf_next]
    simp [refsOf, make]
  · simp [refsOf, make, get?_alloc_of_ne _ here, here]

theorem refsOf_ref (live : heap.Live p) (q : Nat)
    : (heap.ref p).refsOf q = heap.refsOf q + if q = p then 1 else 0 := by
  by_cases here : q = p
  · subst here
    obtain ⟨object, there⟩ := Option.isSome_iff_exists.mp live
    simp [refsOf, ref, there]
  · simp [refsOf, ref, get?_modify_of_ne _ here, here]

theorem refsOf_unref (heap : Pool (Counted α)) (p q : Nat)
    : (heap.unref p).refsOf q = heap.refsOf q - if q = p then 1 else 0 := by
  unfold unref
  by_cases here : q = p
  · subst here
    cases there : heap.get? q with
    | none => simp [refsOf, there]
    | some object =>
        by_cases last : object.refs = 1 <;> simp [refsOf, there, last]
  · rw [if_neg here]
    split <;> simp [refsOf, get?_modify_of_ne _ here, get?_erase_of_ne here]

@[simp]
theorem refsOf_update (heap : Pool (Counted α)) (p q : Nat) (f : α → α)
    : (heap.update p f).refsOf q = heap.refsOf q := by
  by_cases here : q = p
  · subst here
    cases there : heap.get? q <;> simp [refsOf, update, there]
  · simp [refsOf, update, get?_modify_of_ne _ here]

@[simp]
theorem valueAt_make_self (heap : Pool (Counted α)) (value : α)
    : (heap.make value).valueAt heap.next = some value := by
  simp [valueAt, make]

theorem valueAt_make_of_ne (value : α) (old : q ≠ heap.next)
    : (heap.make value).valueAt q = heap.valueAt q := by
  simp [valueAt, make, get?_alloc_of_ne _ old]

@[simp]
theorem valueAt_ref (heap : Pool (Counted α)) (p q : Nat)
    : (heap.ref p).valueAt q = heap.valueAt q := by
  by_cases here : q = p
  · subst here
    cases there : heap.get? q <;> simp [valueAt, ref, there]
  · simp [valueAt, ref, get?_modify_of_ne _ here]

@[simp]
theorem valueAt_update_self (heap : Pool (Counted α)) (p : Nat) (f : α → α)
    : (heap.update p f).valueAt p = (heap.valueAt p).map f := by
  cases there : heap.get? p <;> simp [valueAt, update, there]

theorem valueAt_update_of_ne (f : α → α) (apart : q ≠ p)
    : (heap.update p f).valueAt q = heap.valueAt q := by
  simp [valueAt, update, get?_modify_of_ne _ apart]

/-- Dropping a reference leaves the object of an address that is still referenced. -/
theorem valueAt_unref (held : 0 < (heap.unref p).refsOf q)
    : (heap.unref p).valueAt q = heap.valueAt q := by
  rw [refsOf_unref] at held
  unfold unref
  by_cases here : q = p
  · subst here
    cases there : heap.get? q with
    | none => simp [valueAt, there]
    | some object =>
        have others : object.refs ≠ 1 := by
          intro last
          simp [refsOf, there, last] at held
        simp [valueAt, there, others]
  · split <;> simp [valueAt, get?_modify_of_ne _ here, get?_erase_of_ne here]

/-- Dropping many references. -/
theorem refsOf_unrefAll (heap : Pool (Counted α)) (gone : List Nat) (q : Nat)
    : (gone.foldl unref heap).refsOf q = heap.refsOf q - gone.count q := by
  induction gone generalizing heap with
  | nil => rfl
  | cons p rest ih =>
      rw [List.foldl_cons, ih, refsOf_unref, List.count_cons, Nat.sub_sub, Nat.add_comm]
      simp only [beq_iff_eq, @eq_comm _ q]

theorem valueAt_unrefAll {gone : List Nat} (held : 0 < (gone.foldl unref heap).refsOf q)
    : (gone.foldl unref heap).valueAt q = heap.valueAt q := by
  induction gone generalizing heap with
  | nil => rfl
  | cons p rest ih =>
      have before : 0 < (heap.unref p).refsOf q := by
        rw [List.foldl_cons, refsOf_unrefAll] at held
        omega
      rw [List.foldl_cons, ih held, valueAt_unref before]

end Pool

end Program
