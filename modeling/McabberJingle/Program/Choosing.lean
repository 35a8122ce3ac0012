import Mathlib.Data.List.MinMax

/-! Choosing the item of highest rank again and again, with what was chosen before forbidden.
Items are told apart by a key, so several items may be forbidden at once.
-/

namespace Program.Choosing

variable {α β γ : Type} [DecidableEq β] [LinearOrder γ] (key : α → β) (rank : α → γ)

/-- The items whose keys are not forbidden. -/
def allowed (items : List α) (forbidden : List β) : List α :=
  items.filter (fun item => decide (key item ∉ forbidden))

/-- The first of the allowed items of highest rank. -/
def best (items : List α) (forbidden : List β) : Option α :=
  (allowed key items forbidden).argmax rank

/-- What at most `turns` choices give, each forbidden for the later ones. -/
def drain (items : List α) : Nat → List β → List α
  | 0, _ => []
  | turns + 1, forbidden =>
      match best key rank items forbidden with
      | none => []
      | some item => item :: drain items turns (forbidden ++ [key item])

variable {key rank} {items : List α} {forbidden : List β} {item : α}

theorem mem_allowed
    : item ∈ allowed key items forbidden ↔ item ∈ items ∧ key item ∉ forbidden := by
  simp [allowed]

theorem best_mem (chosen : best key rank items forbidden = some item)
    : item ∈ items ∧ key item ∉ forbidden :=
  mem_allowed.mp (List.argmax_mem chosen)

/-- Nothing allowed ranks above what is chosen. -/
theorem le_best {other : α} (chosen : best key rank items forbidden = some item)
    (member : other ∈ items) (free : key other ∉ forbidden)
    : rank other ≤ rank item :=
  List.le_of_mem_argmax (mem_allowed.mpr ⟨member, free⟩) chosen

theorem best_eq_none
    : best key rank items forbidden = none ↔ ∀ item ∈ items, key item ∈ forbidden := by
  rw [best, List.argmax_eq_none, List.eq_nil_iff_forall_not_mem]
  simp [mem_allowed]

/-- By induction on the items: what ranks above a threshold is chosen as if nothing else was
there.
-/
theorem argmax_filter_lt (rank : α → γ) (low : γ) (items : List α)
    : (items.filter (fun item => decide (low < rank item))).argmax rank
      = (items.argmax rank).filter (fun item => decide (low < rank item)) := by
  induction items with
  | nil => rfl
  | cons first rest ih =>
      rw [List.argmax_cons]
      by_cases above : low < rank first
      · rw [List.filter_cons_of_pos (by simpa using above), List.argmax_cons, ih]
        cases rest.argmax rank with
        | none => simp [Option.filter_some, above]
        | some later =>
            by_cases higher : low < rank later
            · by_cases less : rank first < rank later <;>
                simp [Option.filter_some, higher, above, less]
            · have notLess : ¬rank first < rank later := fun less => higher (above.trans less)
              simp [Option.filter_some, higher, above, notLess]
      · rw [List.filter_cons_of_neg (by simpa using above), ih]
        cases rest.argmax rank with
        | none => simp [Option.filter_some, above]
        | some later =>
            by_cases less : rank first < rank later
            · simp [less]
            · have notHigher : ¬low < rank later := fun higher =>
                above (higher.trans_le (not_lt.mp less))
              simp [Option.filter_some, less, above, notHigher]

/-- By induction on the turns. -/
theorem drain_mem {turns : Nat} (drained : item ∈ drain key rank items turns forbidden)
    : item ∈ items ∧ key item ∉ forbidden := by
  induction turns generalizing forbidden with
  | zero => cases drained
  | succ turns ih =>
      rw [drain] at drained
      split at drained
      · cases drained
      · rename_i first chosen
        rcases List.mem_cons.mp drained with rfl | later
        · exact best_mem chosen
        · obtain ⟨member, free⟩ := ih later
          exact ⟨member, fun taken => free (List.mem_append_left _ taken)⟩

/-- No key is chosen twice. -/
theorem drain_nodup (turns : Nat) : ((drain key rank items turns forbidden).map key).Nodup := by
  induction turns generalizing forbidden with
  | zero => exact List.nodup_nil
  | succ turns ih =>
      rw [drain]
      split
      · exact List.nodup_nil
      · rename_i first chosen
        refine List.nodup_cons.mpr ⟨fun again => ?_, ih⟩
        obtain ⟨later, drained, same⟩ := List.mem_map.mp again
        exact (drain_mem drained).2 (List.mem_append_right _ (by simp [same]))

/-- Later choices do not rank higher. -/
theorem drain_ordered (turns : Nat)
    : (drain key rank items turns forbidden).Pairwise
        (fun first later => rank later ≤ rank first) := by
  induction turns generalizing forbidden with
  | zero => exact List.Pairwise.nil
  | succ turns ih =>
      rw [drain]
      split
      · exact List.Pairwise.nil
      · rename_i first chosen
        refine List.pairwise_cons.mpr ⟨fun later drained => ?_, ih⟩
        obtain ⟨member, free⟩ := drain_mem drained
        exact le_best chosen member (fun taken => free (List.mem_append_left _ taken))

/-- Choosing forbids at least one more item. -/
theorem length_allowed_lt (chosen : best key rank items forbidden = some item)
    : (allowed key items (forbidden ++ [key item])).length
      < (allowed key items forbidden).length := by
  have member : item ∈ allowed key items forbidden := List.argmax_mem chosen
  have less : allowed key items (forbidden ++ [key item])
      = (allowed key items forbidden).filter (fun other => decide (key other ≠ key item)) := by
    rw [allowed, allowed, List.filter_filter]
    refine List.filter_congr (fun other _ => ?_)
    simp [not_or, and_comm]
  rw [less]
  exact List.length_filter_lt_length_iff_exists.mpr ⟨item, member, by simp⟩

/-- With enough turns every allowed key is chosen. -/
theorem drain_complete {turns : Nat} (enough : (allowed key items forbidden).length ≤ turns)
    (member : item ∈ items) (free : key item ∉ forbidden)
    : key item ∈ (drain key rank items turns forbidden).map key := by
  induction turns generalizing forbidden with
  | zero =>
      have none : allowed key items forbidden = [] := List.length_eq_zero_iff.mp (by omega)
      have there : item ∈ allowed key items forbidden := mem_allowed.mpr ⟨member, free⟩
      rw [none] at there
      cases there
  | succ turns ih =>
      rw [drain]
      split
      · rename_i nothing
        exact absurd (best_eq_none.mp nothing item member) free
      · rename_i first chosen
        by_cases same : key item = key first
        · exact List.mem_cons.mpr (.inl same)
        · have fewer := length_allowed_lt chosen
          refine List.mem_cons_of_mem _ (ih (by omega) ?_)
          simp [free, same]

theorem length_drain_le (turns : Nat)
    : (drain key rank items turns forbidden).length ≤ turns := by
  induction turns generalizing forbidden with
  | zero => exact Nat.le_refl 0
  | succ turns ih =>
      rw [drain]
      split
      · exact Nat.zero_le _
      · exact Nat.succ_le_succ ih

/-- Fewer turns choose the same at first. -/
theorem drain_take {turns fewer : Nat} (less : fewer ≤ turns)
    : (drain key rank items turns forbidden).take fewer
      = drain key rank items fewer forbidden := by
  induction turns generalizing forbidden fewer with
  | zero =>
      obtain rfl : fewer = 0 := Nat.le_zero.mp less
      rfl
  | succ turns ih =>
      cases fewer with
      | zero => rfl
      | succ fewer =>
          rw [drain, drain]
          split
          · rfl
          · rw [List.take_succ_cons, ih (Nat.le_of_succ_le_succ less)]

end Program.Choosing
