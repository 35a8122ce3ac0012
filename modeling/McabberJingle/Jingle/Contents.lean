import McabberJingle.Jingle.Sessions

/-! Facts about the content list of a session: the functions that search it by name touch
the first hit only, and what is appended is found there unless the name was taken.
-/

namespace McabberJingle

open Program

variable {name : String} {f : SessionContent → SessionContent}

@[simp]
theorem length_updateFirst (content : List SessionContent)
    : (updateFirst name f content).length = content.length := by
  induction content with
  | nil => rfl
  | cons sc rest ih =>
      simp only [updateFirst]
      split <;> simp [ih]

@[simp]
theorem length_updateLast (content : List SessionContent)
    : (updateLast f content).length = content.length := by
  induction content with
  | nil => rfl
  | cons sc rest ih =>
      cases rest with
      | nil => rfl
      | cons => simpa [updateLast] using ih

/-- The element appended last is the one rewritten. -/
@[simp]
theorem updateLast_append (content : List SessionContent) (sc : SessionContent)
    : updateLast f (content ++ [sc]) = content ++ [f sc] := by
  induction content with
  | nil => rfl
  | cons head rest ih =>
      cases rest with
      | nil => rfl
      | cons next rest => simpa [updateLast] using ih

/-- A name that is not taken is found only in what was appended. -/
theorem updateFirst_append_of_fresh {content : List SessionContent}
    (fresh : name ∉ content.map SessionContent.name) (more : List SessionContent)
    : updateFirst name f (content ++ more) = content ++ updateFirst name f more := by
  induction content with
  | nil => rfl
  | cons sc rest ih =>
      simp only [List.map_cons, List.mem_cons, not_or] at fresh
      simp only [List.cons_append, updateFirst, Ne.symm fresh.1, if_false, ih fresh.2]

theorem updateFirst_of_fresh {content : List SessionContent}
    (fresh : name ∉ content.map SessionContent.name)
    : updateFirst name f content = content := by
  have same := updateFirst_append_of_fresh (f := f) fresh []
  simpa [updateFirst] using same

/-- What a rewrite by name leaves in the list. -/
theorem mem_updateFirst {content : List SessionContent} {sc : SessionContent}
    (member : sc ∈ updateFirst name f content)
    : sc ∈ content ∨ ∃ old ∈ content, old.name = name ∧ sc = f old := by
  induction content with
  | nil => exact Or.inl member
  | cons head rest ih =>
      simp only [updateFirst] at member
      split at member
      · rename_i here
        rcases List.mem_cons.mp member with rfl | member
        · exact Or.inr ⟨head, List.mem_cons_self, here, rfl⟩
        · exact Or.inl (List.mem_cons_of_mem _ member)
      · rcases List.mem_cons.mp member with rfl | member
        · exact Or.inl List.mem_cons_self
        · rcases ih member with old | ⟨old, oldMember, named, rfl⟩
          · exact Or.inl (List.mem_cons_of_mem _ old)
          · exact Or.inr ⟨old, List.mem_cons_of_mem _ oldMember, named, rfl⟩

/-- What a rewrite of the last element leaves in the list. -/
theorem mem_updateLast {content : List SessionContent} {sc : SessionContent}
    (member : sc ∈ updateLast f content)
    : sc ∈ content ∨ ∃ old ∈ content, sc = f old := by
  rcases List.eq_nil_or_concat content with rfl | ⟨front, last, rfl⟩
  · exact Or.inl member
  · rw [List.concat_eq_append, updateLast_append] at member
    rw [List.concat_eq_append]
    rcases List.mem_append.mp member with old | new
    · exact Or.inl (List.mem_append_left _ old)
    · exact Or.inr ⟨last, by simp, by simpa using new⟩

/-- A rewrite that keeps a field of every content keeps the list of that field. -/
theorem map_updateFirst {α : Type} {g : SessionContent → α} (keeps : ∀ sc, g (f sc) = g sc)
    (content : List SessionContent)
    : (updateFirst name f content).map g = content.map g := by
  induction content with
  | nil => rfl
  | cons sc rest ih =>
      simp only [updateFirst]
      split <;> simp [keeps, ih]

/-- A relation between contents survives a rewrite of one that keeps it to all others. -/
theorem pairwise_updateFirst {R : SessionContent → SessionContent → Prop}
    {content : List SessionContent} (apart : content.Pairwise R)
    (left : ∀ sc ∈ content, ∀ sc' ∈ content, R sc sc' → R (f sc) sc')
    (right : ∀ sc ∈ content, ∀ sc' ∈ content, R sc sc' → R sc (f sc'))
    : (updateFirst name f content).Pairwise R := by
  induction content with
  | nil => exact List.Pairwise.nil
  | cons head rest ih =>
      obtain ⟨first, others⟩ := List.pairwise_cons.mp apart
      simp only [updateFirst]
      split
      · refine List.pairwise_cons.mpr ⟨fun sc member => ?_, others⟩
        exact left head List.mem_cons_self sc (List.mem_cons_of_mem _ member) (first sc member)
      · refine List.pairwise_cons.mpr ⟨fun sc member => ?_, ?_⟩
        · rcases mem_updateFirst member with there | ⟨sc', there, _, rfl⟩
          · exact first sc there
          · exact right head List.mem_cons_self sc' (List.mem_cons_of_mem _ there) (first sc' there)
        · exact ih others
            (fun sc member sc' member' =>
              left sc (List.mem_cons_of_mem _ member) sc' (List.mem_cons_of_mem _ member'))
            (fun sc member sc' member' =>
              right sc (List.mem_cons_of_mem _ member) sc' (List.mem_cons_of_mem _ member'))

theorem map_updateLast {α : Type} {g : SessionContent → α} (keeps : ∀ sc, g (f sc) = g sc)
    (content : List SessionContent)
    : (updateLast f content).map g = content.map g := by
  rcases List.eq_nil_or_concat content with rfl | ⟨front, last, rfl⟩
  · rfl
  · rw [List.concat_eq_append, updateLast_append]
    simp [keeps]

/-- Rewriting by name and dropping the last element: the others are rewritten by name. -/
theorem dropLast_updateFirst_append (content : List SessionContent) (sc : SessionContent)
    : (updateFirst name f (content ++ [sc])).dropLast = updateFirst name f content := by
  induction content with
  | nil =>
      simp only [List.nil_append, updateFirst]
      split <;> rfl
  | cons head rest ih =>
      simp only [List.cons_append, updateFirst]
      split
      · rw [← List.cons_append, List.dropLast_concat]
      · rw [List.dropLast_cons_of_ne_nil, ih]
        have longer : (updateFirst name f (rest ++ [sc])).length = rest.length + 1 := by simp
        exact List.ne_nil_of_length_pos (by omega)

theorem removeFirst_sublist (name : String) (content : List SessionContent)
    : (removeFirst name content).Sublist content := by
  induction content with
  | nil => exact .refl _
  | cons sc rest ih =>
      simp only [removeFirst]
      split
      · exact List.sublist_cons_self _ _
      · exact ih.cons_cons _

/-- Only a content with the name given leaves the list. -/
theorem mem_removeFirst_of_ne {content : List SessionContent} {sc : SessionContent}
    (member : sc ∈ content) (other : sc.name ≠ name)
    : sc ∈ removeFirst name content := by
  induction content with
  | nil => exact member
  | cons head rest ih =>
      simp only [removeFirst]
      split
      · rename_i here
        rcases List.mem_cons.mp member with rfl | member
        · exact absurd here other
        · exact member
      · rcases List.mem_cons.mp member with rfl | member
        · exact List.mem_cons_self
        · exact List.mem_cons_of_mem _ (ih member)

/-- A content that is unlinked need not be rewritten before. -/
theorem removeFirst_updateFirst (keeps : ∀ sc, (f sc).name = sc.name)
    (content : List SessionContent)
    : removeFirst name (updateFirst name f content) = removeFirst name content := by
  induction content with
  | nil => rfl
  | cons sc rest ih =>
      by_cases here : sc.name = name
      · simp only [updateFirst, removeFirst, here, if_true, keeps]
      · simp only [updateFirst, removeFirst, here, if_false, ih]

/-- The first content of the list is the one found under its name. -/
@[simp]
theorem removeFirst_head (sc : SessionContent) (rest : List SessionContent)
    : removeFirst sc.name (sc :: rest) = rest := by
  simp [removeFirst]

/-- Something is found under the name of a content that is there. -/
theorem sessionFindSessioncontent_isSome {js : JingleSession}
    (member : name ∈ js.content.map SessionContent.name)
    : (sessionFindSessioncontent js name).isSome := by
  obtain ⟨sc, there, rfl⟩ := List.mem_map.mp member
  exact List.find?_isSome.mpr ⟨sc, there, by simp⟩

theorem sessionFindSessioncontent_mem {js : JingleSession} {name : String}
    {sc : SessionContent} (found : sessionFindSessioncontent js name = some sc)
    : sc ∈ js.content ∧ sc.name = name :=
  ⟨List.mem_of_find?_eq_some found, by simpa using List.find?_some found⟩

end McabberJingle
