import Mathlib.Order.Defs.Unbundled
import McabberJingle.Program.Outcome

/-! Programs that only ever move a state along a preorder. A frame condition that is no
equation, such as "no file got shorter", is proved for a program part by part.
-/

namespace Program.Prog

variable {ε σ α β : Type} {R : σ → σ → Prop} {s s' : σ}

/-- A run of `m` from `s` that ends has moved the state along `R`. -/
def Follows (R : σ → σ → Prop) (s : σ) (m : Prog ε σ α) : Prop :=
  m.wp (fun _ s' => R s s') (fun _ _ => True) s

/-- Every run of `m` that ends has moved the state along `R`. -/
def Obeys (R : σ → σ → Prop) (m : Prog ε σ α) : Prop := ∀ s, Follows R s m

theorem Follows.done {m : Prog ε σ α} {value : α} (follows : Follows R s m)
    (ends : m s = .done value s')
    : R s s' := by
  have follows : m.wp (fun _ s' => R s s') (fun _ _ => True) s := follows
  have moved := wp_done follows ends
  exact moved

theorem obeys_fail (error : ε) : Obeys R (fail error : Prog ε σ α) :=
  fun _ => trivial

theorem obeys_modify {f : σ → σ} (moves : ∀ s, R s (f s))
    : Obeys R (modify f : Prog ε σ Unit) :=
  moves

theorem obeys_ite {c : Prop} [Decidable c] {m n : Prog ε σ α} (yes : Obeys R m) (no : Obeys R n)
    : Obeys R (if c then m else n) :=
  fun s => (wp_ite m n).mpr ⟨fun _ => yes s, fun _ => no s⟩

theorem follows_ite {c : Prop} [Decidable c] {m n : Prog ε σ α} (yes : c → Follows R s m)
    (no : ¬c → Follows R s n)
    : Follows R s (if c then m else n) :=
  (wp_ite m n).mpr ⟨yes, no⟩

/-- A part that only finds something out comes before what is done about it. -/
theorem follows_known {faults : ε → σ → Prop} {m : Prog ε σ α} {next : α → Prog ε σ β}
    {known : α → Prop} (finds : m.wp (fun value s' => s' = s ∧ known value) faults s)
    (rest : ∀ value, known value → Follows R s (next value))
    : Follows R s (m >>= next) := by
  have finds : m.wp (fun value s' => s' = s ∧ known value) (fun _ _ => True) s :=
    wp_mono finds (fun _ _ found => found) (fun _ _ _ => trivial)
  refine wp_seq finds ?_
  rintro value _ ⟨rfl, found⟩
  exact rest value found

section Steps

variable [Std.Refl R]

theorem obeys_pure (value : α) : Obeys R (pure value : Prog ε σ α) :=
  fun s => refl_of R s

theorem obeys_get : Obeys R (get : Prog ε σ σ) :=
  fun s => refl_of R s

theorem obeys_readOnly {faults : ε → Prop} {m : Prog ε σ α} (readOnly : ReadOnly faults m)
    : Obeys R m := by
  intro s
  refine wp_mono (readOnly s) ?_ (fun _ _ _ => trivial)
  rintro _ _ rfl
  exact refl_of R _

end Steps

section Sequences

variable [IsTrans σ R]

/-- Sequencing: the rest goes on from where the first part got to. -/
theorem follows_bind {m : Prog ε σ α} {next : α → Prog ε σ β} (first : Follows R s m)
    (rest : ∀ value s', R s s' → Follows R s' (next value))
    : Follows R s (m >>= next) :=
  wp_seq first (fun value s' moved =>
    wp_post (rest value s' moved) (fun _ _ onward => trans_of R moved onward))

theorem obeys_bind {m : Prog ε σ α} {next : α → Prog ε σ β} (first : Obeys R m)
    (rest : ∀ value, Obeys R (next value))
    : Obeys R (m >>= next) :=
  fun s => follows_bind (first s) (fun value s' _ => rest value s')

end Sequences

end Program.Prog
