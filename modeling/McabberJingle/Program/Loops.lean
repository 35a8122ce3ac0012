/-! While loops by their bodies: a round either goes on from a new state or leaves the loop with a
result. A loop that never leaves has no result.
-/

namespace Program

/-- What one round of a loop does. -/
inductive Round (σ ρ : Type) where
  | again (state : σ)
  | leave (result : ρ)

variable {σ ρ : Type} {body : σ → Round σ ρ}

/-- The loop, entered in a state, is left with a result. -/
inductive Loops (body : σ → Round σ ρ) : σ → ρ → Prop
  | leave {s r} (left : body s = .leave r) : Loops body s r
  | again {s s' r} (goesOn : body s = .again s') (rest : Loops body s' r) : Loops body s r

/-- The loop, cut off after so many rounds. -/
def loopFor (body : σ → Round σ ρ) : Nat → σ → Option ρ
  | 0, _ => none
  | rounds + 1, s =>
      match body s with
      | .again s' => loopFor body rounds s'
      | .leave result => some result

/-- A loop that was not cut off was left, by induction on the rounds. -/
theorem loops_of_loopFor {rounds : Nat} {s : σ} {r : ρ} (result : loopFor body rounds s = some r)
    : Loops body s r := by
  induction rounds generalizing s with
  | zero => cases result
  | succ rounds ih =>
      rw [loopFor] at result
      cases round : body s with
      | again s' =>
          rw [round] at result
          exact .again round (ih result)
      | leave left =>
          rw [round] at result
          cases result
          exact .leave round

/-- Rounds that lower a measure are not cut off, when there are more than it allows. -/
theorem loopFor_isSome (measure : σ → Nat) (inv : σ → Prop) {rounds : Nat} {s : σ} (holds : inv s)
    (kept : ∀ s s', inv s → body s = .again s' → inv s' ∧ measure s' < measure s)
    (enough : measure s < rounds)
    : (loopFor body rounds s).isSome = true := by
  induction rounds generalizing s with
  | zero => cases enough
  | succ rounds ih =>
      rw [loopFor]
      cases round : body s with
      | again s' =>
          obtain ⟨holds', less⟩ := kept s s' holds round
          exact ih holds' (Nat.lt_of_lt_of_le less (Nat.le_of_lt_succ enough))
      | leave left => rfl

/-- A loop has at most one result, by induction on its rounds. -/
theorem Loops.unique {s : σ} {r r' : ρ} (first : Loops body s r) (second : Loops body s r')
    : r = r' := by
  induction first with
  | leave left =>
      cases second with
      | leave left' => exact Round.leave.inj (left.symm.trans left')
      | again goesOn _ => cases left.symm.trans goesOn
  | again goesOn _ ih =>
      cases second with
      | leave left => cases goesOn.symm.trans left
      | again goesOn' rest =>
          cases goesOn.symm.trans goesOn'
          exact ih rest

/-- A result is what some round leaves with. -/
theorem Loops.left {s : σ} {r : ρ} (loops : Loops body s r) : ∃ s', body s' = .leave r := by
  induction loops with
  | leave left => exact ⟨_, left⟩
  | again goesOn _ ih => exact ih

/-- The state after a round, and the state that a loop without an error leaves, satisfy `inv`. -/
def Round.Holds {ε : Type} (inv : σ → Prop) : Round σ (Except ε σ) → Prop
  | .again s => inv s
  | .leave (.ok s) => inv s
  | .leave (.error _) => True

/-- What every round keeps holds of the result, by induction on the rounds. -/
theorem Loops.invariant {ε : Type} {body : σ → Round σ (Except ε σ)} (inv : σ → Prop) {s r : σ}
    (loops : Loops body s (.ok r)) (holds : inv s) (kept : ∀ s, inv s → (body s).Holds inv)
    : inv r := by
  generalize result : (Except.ok r : Except ε σ) = left at loops
  induction loops with
  | @leave s _ round =>
      have after := kept s holds
      rw [round, ← result] at after
      exact after
  | @again s s' _ round _ ih =>
      have after := kept s holds
      rw [round] at after
      exact ih after result

end Program
