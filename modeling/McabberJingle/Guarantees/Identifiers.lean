import McabberJingle.Jingle.Identifiers

/-! Identifiers have the length they should, except those of in-band streams when the terminator of
the table is drawn.
-/

namespace McabberJingle

/-- A C string of `n` letters and digits, inside its buffer. -/
def IsIdentifier (n : Nat) (str : Option (List Char)) : Prop :=
  ∃ buffer, str = some buffer ∧ NUL ∈ buffer
    ∧ (buffer.takeWhile (· != NUL)).length = n
    ∧ ∀ c ∈ buffer.takeWhile (· != NUL), c.isAlphanum = true

theorem ne_nul_of_isAlphanum {c : Char} (letter : c.isAlphanum = true) : (c != NUL) = true := by
  rw [bne_iff_ne]
  rintro rfl
  revert letter
  decide

/-- A buffer that holds letters and digits and then zeros. -/
theorem isIdentifier_of_letters {letters : List Char} {zeros : Nat} (ended : 0 < zeros)
    (all : ∀ c ∈ letters, c.isAlphanum = true)
    : IsIdentifier letters.length (some (letters ++ List.replicate zeros NUL)) := by
  have read : (letters ++ List.replicate zeros NUL).takeWhile (· != NUL) = letters := by
    rw [List.takeWhile_append_of_pos (fun c member => ne_nul_of_isAlphanum (all c member))]
    cases zeros with
    | zero => cases ended
    | succ zeros => simp [List.replicate_succ]
  refine ⟨_, rfl, ?_, ?_, ?_⟩
  · exact List.mem_append_right _ (List.mem_replicate.mpr ⟨Nat.ne_of_gt ended, rfl⟩)
  · rw [read]
  · rw [read]
    exact all

/-- A zero among the first `n` characters makes the string shorter. -/
theorem not_isIdentifier_of_nul {letters rest : List Char} (nul : NUL ∈ letters)
    : ¬IsIdentifier letters.length (some (letters ++ rest)) := by
  rintro ⟨buffer, same, _, length, _⟩
  cases same
  obtain ⟨front, back, rfl⟩ := List.append_of_mem nul
  have shorter : ((front ++ NUL :: back ++ rest).takeWhile (· != NUL)).length ≤ front.length := by
    rw [List.append_assoc, List.takeWhile_append]
    split
    · simp
    · exact (List.takeWhile_prefix _).length_le
  rw [length, List.length_append, List.length_cons] at shorter
  omega

variable {random : RandomSource}

/-- Letters and digits are drawn from the table without its terminator. -/
theorem drawn_isAlphanum {stop : Nat} (range : stop ≤ car.length - 1) (positive : 0 < stop)
    (call : Nat)
    : (random.drawn stop call).isAlphanum = true := by
  have below := (random.within 0 stop call positive).2
  rw [car_length] at range
  rcases car_cases (n := random.intRange 0 stop call) (by omega) with ⟨_, letter⟩ | ⟨terminator, _⟩
  · exact letter
  · omega

/-- Without the terminator in the range, the identifier is as long as it should be. -/
theorem randomIdentifier_isIdentifier {size len : Nat} (room : len < size)
    : IsIdentifier len (randomIdentifier random size (car.length - 1) len) := by
  have positive : 0 < car.length - 1 := by
    rw [car_length]
    decide
  rw [randomIdentifier_eq positive (Nat.sub_le _ _) room]
  have letters : ∀ c ∈ (List.range' 0 len).map (random.drawn (car.length - 1)),
      c.isAlphanum = true := by
    intro c member
    obtain ⟨call, _, rfl⟩ := List.mem_map.mp member
    exact drawn_isAlphanum (Nat.le_refl _) positive call
  have identifier := isIdentifier_of_letters (Nat.sub_pos_of_lt room) letters
  simpa using identifier

/-- The terminator is not drawn for any of the six characters of a stream's identifier. -/
def DrawsNoTerminator (random : RandomSource) : Prop :=
  ∀ call < 6, random.intRange 0 car.length call ≠ car.length - 1

theorem genIbbSid_isIdentifier_iff (random : RandomSource)
    : IsIdentifier 6 (genIbbSid random) ↔ DrawsNoTerminator random := by
  have positive : 0 < car.length := by
    rw [car_length]
    decide
  have drawn (call : Nat) := (random.within 0 car.length call positive).2
  have six : ((List.range' 0 6).map (random.drawn car.length)).length = 6 := by simp
  rw [genIbbSid, randomIdentifier_eq positive (Nat.le_refl _) (by decide)]
  constructor
  · intro identifier call below terminator
    have nul : NUL ∈ (List.range' 0 6).map (random.drawn car.length) := by
      refine List.mem_map.mpr ⟨call, by simpa using below, ?_⟩
      rw [RandomSource.drawn, terminator, car_length]
      rcases car_cases (n := 62) (by decide) with ⟨less, _⟩ | ⟨_, nul⟩
      · exact absurd less (by decide)
      · exact nul
    have short : ¬IsIdentifier _ (some ((List.range' 0 6).map (random.drawn car.length)
        ++ List.replicate (7 - 6) NUL)) := not_isIdentifier_of_nul nul
    rw [six] at short
    exact short identifier
  · intro none
    have letters : ∀ c ∈ (List.range' 0 6).map (random.drawn car.length),
        c.isAlphanum = true := by
      intro c member
      obtain ⟨call, below, rfl⟩ := List.mem_map.mp member
      have inside := drawn call
      have other := none call (by simpa using below)
      rw [car_length] at inside other
      rcases car_cases inside with ⟨_, letter⟩ | ⟨terminator, _⟩
      · simpa [RandomSource.drawn, car_length] using letter
      · exact absurd (by rw [terminator]) other
    have ended : 0 < 7 - 6 := by decide
    have identifier := isIdentifier_of_letters ended letters
    rw [six] at identifier
    exact identifier

/-- The identifiers of sessions, in-band streams, SOCKS5 streams and candidates, whatever is drawn
for each.
-/
def AllIdentifiers (session stream transport candidate : RandomSource) : Prop :=
  IsIdentifier 10 (jingleGenerateSid session)
    ∧ IsIdentifier 6 (genIbbSid stream)
    ∧ IsIdentifier 7 (S5b.genRandomSid transport)
    ∧ IsIdentifier 7 (S5b.genRandomCid candidate)

theorem identifiers_complete (session stream transport candidate : RandomSource)
    : AllIdentifiers session stream transport candidate ↔ DrawsNoTerminator stream := by
  constructor
  · rintro ⟨_, identifier, _⟩
    exact (genIbbSid_isIdentifier_iff stream).mp identifier
  · intro none
    refine ⟨randomIdentifier_isIdentifier (by decide), ?_, ?_, ?_⟩
    · exact (genIbbSid_isIdentifier_iff stream).mpr none
    · exact randomIdentifier_isIdentifier (by decide)
    · exact randomIdentifier_isIdentifier (by decide)

/-- Always the highest number of the range. -/
def highest : RandomSource where
  intRange _ stop _ := stop - 1
  within first stop _ nonempty := by omega

/-- The highest number of every range is the terminator: the identifier of the stream is empty. -/
theorem empty_stream_identifier
    : genIbbSid highest = some (List.replicate 7 NUL)
      ∧ ¬AllIdentifiers highest highest highest highest := by
  refine ⟨by decide +kernel, fun identifiers => ?_⟩
  have none := (genIbbSid_isIdentifier_iff highest).mp identifiers.2.1
  exact none 0 (by decide) rfl

end McabberJingle
