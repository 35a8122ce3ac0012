/-! Runs of a labelled transition relation under a condition on every step taken.
An invariant is proved once at the start and once across a step that meets the condition.
-/

namespace Program

/-- States reached from `init` by steps that each satisfy `allowed` where they start. -/
inductive Reach {σ ι : Type} (init : σ → Prop) (step : σ → ι → σ → Prop)
    (allowed : σ → ι → Prop)
    : σ → Prop
  | start {s} (initial : init s) : Reach init step allowed s
  | step {s s' input} (run : Reach init step allowed s) (ok : allowed s input)
    (next : step s input s')
    : Reach init step allowed s'

/-- A run with its history: each state in which a step was taken, and the input, oldest first. -/
inductive Trace {σ ι : Type} (init : σ → Prop) (step : σ → ι → σ → Prop)
    : List (σ × ι) → σ → Prop
  | start {s} (initial : init s) : Trace init step [] s
  | step {history s s' input} (run : Trace init step history s) (next : step s input s')
    : Trace init step (history ++ [(s, input)]) s'

variable {σ ι : Type} {init : σ → Prop} {step : σ → ι → σ → Prop}
  {allowed : σ → ι → Prop}

/-- An invariant of the start that every allowed step keeps holds in every reached state. -/
theorem Reach.invariant {inv : σ → Prop} {s : σ} (run : Reach init step allowed s)
    (atStart : ∀ s, init s → inv s)
    (kept : ∀ s input s', inv s → allowed s input → step s input s' → inv s')
    : inv s := by
  induction run with
  | start initial => exact atStart _ initial
  | step _ ok next ih => exact kept _ _ _ ih ok next

/-- Fewer allowed steps reach fewer states. -/
theorem Reach.weaken {allowed' : σ → ι → Prop} {s : σ} (run : Reach init step allowed s)
    (weaker : ∀ s input, allowed s input → allowed' s input)
    : Reach init step allowed' s := by
  induction run with
  | start initial => exact .start initial
  | step _ ok next ih => exact .step ih (weaker _ _ ok) next

/-- A run from a reached state goes on with the run that reached it. -/
theorem Reach.trans {s s' : σ} (run : Reach init step allowed s)
    (onward : Reach (fun first => first = s) step allowed s')
    : Reach init step allowed s' := by
  induction onward with
  | start initial => exact initial ▸ run
  | step _ ok next ih => exact .step ih ok next

/-- Every reached state has a history. -/
theorem Reach.traced {s : σ} (run : Reach init step allowed s)
    : ∃ history, Trace init step history s := by
  induction run with
  | start initial => exact ⟨[], .start initial⟩
  | step _ _ next ih =>
      obtain ⟨history, traced⟩ := ih
      exact ⟨_, traced.step next⟩

end Program
