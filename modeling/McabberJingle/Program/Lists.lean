import Mathlib.Data.List.Forall2

/-! Facts about lists: elements that are related one by one, and maps that pass over indices or
removed elements.
-/

namespace Program

variable {α β γ : Type}

-----------------------------------------------------------------------------------------
-- Related lists
-----------------------------------------------------------------------------------------

theorem forall₂_mem_right {R : α → β → Prop} {as : List α} {bs : List β}
    (related : List.Forall₂ R as bs) {b : β} (member : b ∈ bs)
    : ∃ a ∈ as, R a b := by
  induction related with
  | nil => cases member
  | cons head tail ih =>
      rcases List.mem_cons.mp member with rfl | later
      · exact ⟨_, List.mem_cons_self, head⟩
      · obtain ⟨a, there, related⟩ := ih later
        exact ⟨a, List.mem_cons_of_mem _ there, related⟩

theorem forall₂_mem_left {R : α → β → Prop} {as : List α} {bs : List β}
    (related : List.Forall₂ R as bs) {a : α} (member : a ∈ as)
    : ∃ b ∈ bs, R a b :=
  forall₂_mem_right related.flip member

theorem forall₂_imp_mem {R R' : α → β → Prop} {as : List α} {bs : List β}
    (related : List.Forall₂ R as bs) (more : ∀ a b, a ∈ as → R a b → R' a b)
    : List.Forall₂ R' as bs := by
  induction related with
  | nil => exact .nil
  | cons head tail ih =>
      exact .cons (more _ _ List.mem_cons_self head)
        (ih (fun a b member => more a b (List.mem_cons_of_mem _ member)))

-----------------------------------------------------------------------------------------
-- Prefixes and maps
-----------------------------------------------------------------------------------------

/-- A prefix of a list with a first element is empty or has that element. -/
theorem forall_take_cons {p : List α → Prop} (head : α) (rest : List α)
    : (∀ k, p ((head :: rest).take k)) ↔ p [] ∧ ∀ k, p (head :: rest.take k) := by
  constructor
  · intro all
    exact ⟨all 0, fun k => all (k + 1)⟩
  · intro both k
    cases k with
    | zero => exact both.1
    | succ k => exact both.2 k

/-- A map that does not see the indices. -/
theorem map_mapIdx_of_same {l : List α} {f : Nat → α → β} {g : β → γ} {h : α → γ}
    (same : ∀ index a, g (f index a) = h a)
    : (l.mapIdx f).map g = l.map h := by
  rw [List.mapIdx_eq_zipIdx_map, List.map_map]
  calc l.zipIdx.map (g ∘ fun p => f p.2 p.1)
    _ = l.zipIdx.map (h ∘ Prod.fst) := List.map_congr_left (fun p _ => same p.2 p.1)
    _ = l.map h := by rw [← List.map_map, List.zipIdx_map_fst]

/-- When each step of a fold leaves a value alone or makes it smaller, the fold leaves it alone
only if all of its steps do.
-/
theorem foldl_eq_self_iff {step : α → β → α} {size : α → Nat} {bs : List β}
    (shrinks : ∀ b ∈ bs, ∀ a, step a b = a ∨ size (step a b) < size a) (a : α)
    : bs.foldl step a = a ↔ ∀ b ∈ bs, step a b = a := by
  have bounded {bs : List β} (shrinks : ∀ b ∈ bs, ∀ a, step a b = a ∨ size (step a b) < size a)
      (a : α)
      : size (bs.foldl step a) ≤ size a := by
    induction bs generalizing a with
    | nil => exact Nat.le_refl _
    | cons b rest ih =>
        have later := ih (fun b' member => shrinks b' (List.mem_cons_of_mem _ member)) (step a b)
        rcases shrinks b List.mem_cons_self a with same | smaller
        · rw [same] at later
          rwa [List.foldl_cons, same]
        · exact Nat.le_trans later (Nat.le_of_lt smaller)
  induction bs with
  | nil => simp
  | cons b rest ih =>
      have others := fun b' member => shrinks b' (List.mem_cons_of_mem b member)
      rw [List.foldl_cons, List.forall_mem_cons]
      rcases shrinks b List.mem_cons_self a with same | smaller
      · rw [same]
        exact (ih others).trans (and_iff_right rfl).symm
      · have less := Nat.lt_of_le_of_lt (bounded others (step a b)) smaller
        constructor
        · intro back
          rw [back] at less
          exact absurd less (Nat.lt_irrefl _)
        · intro both
          rw [both.1] at smaller
          exact absurd smaller (Nat.lt_irrefl _)

section Erasing

variable [BEq α] [LawfulBEq α] {f : α → Option β} {x : α} {l : List α}

/-- Removing an element removes what it was mapped to, when nothing else is removed there. -/
theorem filterMap_erase {p : β → Bool} (only : ∀ y, (f y).any p = true ↔ y = x)
    : (l.erase x).filterMap f = (l.filterMap f).eraseP p := by
  induction l with
  | nil => rfl
  | cons y rest ih =>
      by_cases here : y = x
      · subst here
        obtain ⟨z, mapped, removed⟩ := (Option.any_eq_true _ _).mp ((only y).mpr rfl)
        rw [List.erase_cons_head, List.filterMap_cons_some mapped, List.eraseP_cons_of_pos removed]
      · rw [List.erase_cons_tail (by simpa using here)]
        cases mapped : f y with
        | none => rw [List.filterMap_cons_none mapped, List.filterMap_cons_none mapped, ih]
        | some z =>
            have kept : ¬p z = true := by
              intro removed
              exact here ((only y).mp ((Option.any_eq_true _ _).mpr ⟨z, mapped, removed⟩))
            rw [List.filterMap_cons_some mapped, List.filterMap_cons_some mapped,
              List.eraseP_cons_of_neg kept, ih]

theorem filterMap_erase_of_none (unmapped : f x = none)
    : (l.erase x).filterMap f = l.filterMap f := by
  induction l with
  | nil => rfl
  | cons y rest ih =>
      by_cases here : y = x
      · subst here
        rw [List.erase_cons_head, List.filterMap_cons_none unmapped]
      · rw [List.erase_cons_tail (by simpa using here), List.filterMap_cons,
          List.filterMap_cons, ih]

end Erasing

end Program
