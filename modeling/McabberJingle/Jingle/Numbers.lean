import McabberJingle.Jingle.Stanza

/-! The integers that attributes are read as, before `g_ascii_strtoll` fits them into 64 bits. -/

namespace McabberJingle

/-- The integer at the front of a text, 0 if there is none. -/
def leadingInteger (text : String) : Int :=
  match text.toList.dropWhile gAsciiIsspace with
  | '-' :: digits => -(leadingDigits digits 0 : Int)
  | '+' :: digits => leadingDigits digits 0
  | digits => leadingDigits digits 0

/-- A value that does not fit becomes the nearest one that does. -/
theorem gAsciiStrtoll_eq (text : String)
    : gAsciiStrtoll (some text) = max G_MININT64 (min (leadingInteger text) G_MAXINT64) := by
  have fits (n : Nat) : max G_MININT64 (min (n : Int) G_MAXINT64) = min (n : Int) G_MAXINT64 := by
    simp only [G_MININT64, G_MAXINT64]
    omega
  unfold gAsciiStrtoll leadingInteger
  dsimp only
  generalize text.toList.dropWhile gAsciiIsspace = shown
  rcases shown with _ | ⟨sign, digits⟩
  · exact (fits _).symm
  by_cases minus : sign = '-'
  · subst minus
    simp only [G_MININT64, G_MAXINT64]
    omega
  by_cases plus : sign = '+'
  · subst plus
    exact (fits _).symm
  · simp [minus, plus, fits]

/-- The number that digits alone are. -/
def decimalDigits (digits : List Char) : Option Nat :=
  if digits ≠ [] ∧ digits.all Char.isDigit = true then some (leadingDigits digits 0) else none

/-- The integer that a whole text is: digits after an optional sign. -/
def decimalInteger (text : String) : Option Int :=
  match text.toList with
  | '-' :: digits => (decimalDigits digits).map (fun n : Nat => -(n : Int))
  | '+' :: digits => (decimalDigits digits).map (fun n : Nat => (n : Int))
  | digits => (decimalDigits digits).map (fun n : Nat => (n : Int))

theorem decimalDigits_some {digits : List Char} {n : Nat} (whole : decimalDigits digits = some n)
    : digits ≠ [] ∧ (∀ c ∈ digits, c.isDigit = true) ∧ leadingDigits digits 0 = n := by
  unfold decimalDigits at whole
  split at whole
  · rename_i good
    exact ⟨good.1, List.all_eq_true.mp good.2, Option.some.inj whole⟩
  · cases whole

/-- A text that is an integer has it at its front. -/
theorem leadingInteger_of_decimal {text : String} {n : Int} (whole : decimalInteger text = some n)
    : leadingInteger text = n := by
  unfold decimalInteger at whole
  unfold leadingInteger
  cases shape : text.toList with
  | nil =>
      rw [shape] at whole
      cases whole
  | cons c rest =>
      rw [shape] at whole
      by_cases minus : c = '-'
      · subst minus
        obtain ⟨digits, read, rfl⟩ := Option.map_eq_some_iff.mp whole
        exact congrArg (fun n : Nat => -(n : Int)) (decimalDigits_some read).2.2
      by_cases plus : c = '+'
      · subst plus
        obtain ⟨digits, read, rfl⟩ := Option.map_eq_some_iff.mp whole
        exact congrArg (fun n : Nat => (n : Int)) (decimalDigits_some read).2.2
      have plain : (decimalDigits (c :: rest)).map (fun n : Nat => (n : Int)) = some n := by
        split at whole
        · rename_i same
          exact absurd (List.cons.inj same).1 minus
        · rename_i same
          exact absurd (List.cons.inj same).1 plus
        · exact whole
      obtain ⟨digits, read, rfl⟩ := Option.map_eq_some_iff.mp plain
      obtain ⟨_, all, value⟩ := decimalDigits_some read
      have visible := isspace_of_isDigit (all c List.mem_cons_self)
      rw [List.dropWhile_cons_of_neg (by simp [visible])]
      split
      · rename_i same
        exact absurd (List.cons.inj same).1 minus
      · rename_i same
        exact absurd (List.cons.inj same).1 plus
      · exact congrArg (fun n : Nat => (n : Int)) value

/-- An integer in range is read as it is. -/
theorem gAsciiStrtoll_of_decimal {text : String} {n : Nat}
    (whole : decimalInteger text = some (n : Int)) (small : (n : Int) ≤ G_MAXINT64)
    : gAsciiStrtoll (some text) = n := by
  rw [gAsciiStrtoll_eq, leadingInteger_of_decimal whole]
  simp only [G_MININT64, G_MAXINT64] at small ⊢
  omega

end McabberJingle
