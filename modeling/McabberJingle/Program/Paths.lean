import Mathlib.Data.List.DropRight

/-! File names taken apart and put together, over any separator: the last component of a path,
and a directory joined with a name.
-/

namespace Program.Path

variable {α : Type} [DecidableEq α] (sep : α)

/-- A path without the separators at its end. -/
def trimEnd (path : List α) : List α := path.rdropWhile (· == sep)

/-- A path without the separators at both ends. -/
def core (path : List α) : List α := trimEnd sep (path.dropWhile (· == sep))

/-- The last component of a path: `dot` for an empty path, and the separator for one that has
nothing else.
-/
def basename (dot path : List α) : List α :=
  if path = [] then
    dot
  else if trimEnd sep path = [] then
    [sep]
  else
    (trimEnd sep path).rtakeWhile (· != sep)

/-- Two trimmed elements with one separator between them. -/
def link : List α → List α → List α
  | [], name => name
  | dir, [] => dir
  | dir, name => dir ++ sep :: name

/-- A directory joined with a name: an empty element is ignored, the separators at the start of
the first and at the end of the second stay as they are.
-/
def join (dir name : List α) : List α :=
  if dir = [] then
    name
  else if name = [] then
    dir
  else
    dir.takeWhile (· == sep) ++ link sep (core sep dir) (core sep name)
      ++ name.rtakeWhile (· == sep)

/-- A nonempty name without separators. -/
structure IsComponent (name : List α) : Prop where
  nonempty : name ≠ []
  single : sep ∉ name

variable {sep} {dir name name' : List α}

theorem IsComponent.trimEnd_eq (component : IsComponent sep name) : trimEnd sep name = name := by
  rw [trimEnd, List.rdropWhile_eq_self_iff]
  intro nonempty isSep
  exact component.single ((eq_of_beq isSep) ▸ List.getLast_mem nonempty)

theorem IsComponent.core_eq (component : IsComponent sep name) : core sep name = name := by
  have start : name.dropWhile (· == sep) = name := by
    cases name with
    | nil => rfl
    | cons x rest =>
        have differs : x ≠ sep := fun same => component.single (same ▸ List.mem_cons_self ..)
        rw [List.dropWhile_cons, if_neg (by simpa using differs)]
  rw [core, start, component.trimEnd_eq]

theorem IsComponent.rtakeWhile_eq (component : IsComponent sep name)
    : name.rtakeWhile (· == sep) = [] := by
  rw [List.rtakeWhile_eq_nil_iff]
  intro nonempty isSep
  exact component.single ((eq_of_beq isSep) ▸ List.getLast_mem nonempty)

/-- A single component is its own last one. -/
theorem IsComponent.basename_eq (component : IsComponent sep name) {dot : List α}
    : basename sep dot name = name := by
  rw [basename, if_neg component.nonempty, component.trimEnd_eq, if_neg component.nonempty,
    List.rtakeWhile_eq_self_iff]
  intro x member
  have apart : x ≠ sep := fun same => component.single (same ▸ member)
  simpa using apart

/-- The last component of a path has no separator, the two special cases apart. -/
theorem basename_cases (sep : α) (dot path : List α)
    : basename sep dot path = dot ∨ basename sep dot path = [sep]
      ∨ IsComponent sep (basename sep dot path) := by
  unfold basename
  split
  · exact .inl rfl
  split
  · exact .inr (.inl rfl)
  rename_i some
  refine .inr (.inr ⟨?_, fun member => ?_⟩)
  · rw [Ne, List.rtakeWhile_eq_nil_iff, Classical.not_forall]
    refine ⟨some, not_not.mpr ?_⟩
    have last := List.rdropWhile_last_not _ _ some
    simpa [trimEnd] using last
  · simpa using List.mem_rtakeWhile_imp member

variable (sep) in
/-- What stands before the name in a joined path. -/
def stem (dir : List α) : List α :=
  if dir = [] then
    []
  else
    dir.takeWhile (· == sep)
      ++ if core sep dir = [] then [] else core sep dir ++ [sep]

/-- Before a name in a directory there is a separator. -/
theorem sep_mem_stem (some : dir ≠ []) : sep ∈ stem sep dir := by
  rw [stem, if_neg some]
  by_cases nothing : core sep dir = []
  · cases dir with
    | nil => exact absurd rfl some
    | cons x rest =>
        by_cases first : x = sep
        · subst first
          simp
        · have untrimmed : (x :: rest).dropWhile (· == sep) = x :: rest :=
            List.dropWhile_cons_of_neg (by simpa using first)
          rw [core, untrimmed, trimEnd, List.rdropWhile_eq_nil_iff] at nothing
          exact absurd (by simpa using nothing x List.mem_cons_self) first
  · rw [if_neg nothing]
    simp

theorem join_component (dir : List α) (component : IsComponent sep name)
    : join sep dir name = stem sep dir ++ name := by
  unfold join stem
  by_cases empty : dir = []
  · rw [if_pos empty, if_pos empty, List.nil_append]
  rw [if_neg empty, if_neg component.nonempty, if_neg empty, component.core_eq,
    component.rtakeWhile_eq, List.append_nil, List.append_assoc]
  congr 1
  have nonempty := component.nonempty
  generalize core sep dir = base
  unfold link
  grind

/-- The joined path tells which component the directory was joined with. -/
theorem join_injective (component : IsComponent sep name) (component' : IsComponent sep name')
    (same : join sep dir name = join sep dir name')
    : name = name' := by
  rw [join_component dir component, join_component dir component'] at same
  exact List.append_cancel_left same

/-- A separator alone adds at most itself. -/
theorem join_sep (dir : List α)
    : join sep dir [sep] = stem sep dir ++ [sep] ∨ join sep dir [sep] = stem sep dir := by
  unfold join stem
  by_cases empty : dir = []
  · rw [if_pos empty, if_pos empty]
    exact .inl rfl
  have nothing : core sep [sep] = [] := by simp [core, trimEnd]
  have all : List.rtakeWhile (fun x => x == sep) [sep] = [sep] := by simp
  rw [if_neg empty, if_neg (List.cons_ne_nil _ _), if_neg empty, nothing, all]
  cases core sep dir with
  | nil => exact .inl rfl
  | cons x rest =>
      rw [if_neg (List.cons_ne_nil _ _), ← List.append_assoc]
      exact .inr rfl

/-- A separator alone is not joined as a component is. -/
theorem join_sep_ne (dir : List α) (component : IsComponent sep name)
    : join sep dir [sep] ≠ join sep dir name := by
  rw [join_component dir component]
  intro same
  cases join_sep dir with
  | inl whole =>
      rw [whole] at same
      have name_eq := List.append_cancel_left same
      exact component.single (name_eq ▸ List.mem_singleton_self _)
  | inr bare =>
      rw [bare, List.self_eq_append_right] at same
      exact component.nonempty same

end Program.Path
