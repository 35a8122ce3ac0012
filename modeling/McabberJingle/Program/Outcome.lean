/-! Programs over a mutable state that either finish with a value or stop at a fault.
Weakest preconditions split every claim about a composed program into claims about its
parts; the fault branch has a postcondition of its own, so partial and total claims share
one set of rules.
-/

namespace Program

/-- How a program ends: with a value, or at a fault. The state is kept in both cases. -/
inductive Outcome (ε σ α : Type) where
  | done (value : α) (state : σ)
  | fault (error : ε) (state : σ)

/-- The state a program leaves behind, however it ended. -/
def Outcome.state {ε σ α : Type} : Outcome ε σ α → σ
  | .done _ state => state
  | .fault _ state => state

/-- A stateful program that may stop at a fault. -/
def Prog (ε σ α : Type) : Type := σ → Outcome ε σ α

namespace Prog

variable {ε σ α β : Type}

/-- Finish at once. -/
def ret (value : α) : Prog ε σ α := fun s => .done value s

/-- Run `next` on the result of `first`; a fault of `first` is final. -/
def andThen (first : Prog ε σ α) (next : α → Prog ε σ β) : Prog ε σ β := fun s =>
  match first s with
  | .done value s' => next value s'
  | .fault error s' => .fault error s'

instance : Monad (Prog ε σ) where
  pure := ret
  bind := andThen

/-- Read the whole state. -/
def get : Prog ε σ σ := fun s => .done s s

/-- Replace the state. -/
def modify (f : σ → σ) : Prog ε σ Unit := fun s => .done () (f s)

/-- Stop here. -/
def fail (error : ε) : Prog ε σ α := fun s => .fault error s

/-- Every run of `m` from `s` ends in `post`, or stops at a fault satisfying `onFault`. -/
def wp (m : Prog ε σ α) (post : α → σ → Prop) (onFault : ε → σ → Prop) (s : σ) : Prop :=
  match m s with
  | .done value s' => post value s'
  | .fault error s' => onFault error s'

/-- A first part that finishes hands its result and state to the rest. -/
theorem bind_done {m : Prog ε σ α} {next : α → Prog ε σ β} {s s' : σ} {value : α}
    (first : m s = .done value s')
    : (m >>= next) s = next value s' := by
  change andThen m next s = next value s'
  rw [andThen, first]

/-- A first part that stops is all that runs. -/
theorem bind_fault {m : Prog ε σ α} {next : α → Prog ε σ β} {s s' : σ} {error : ε}
    (first : m s = .fault error s')
    : (m >>= next) s = .fault error s' := by
  change andThen m next s = .fault error s'
  rw [andThen, first]

/-- What comes after does not tell apart two programs that end alike. -/
theorem bind_congr_run {m m' : Prog ε σ α} {s s' : σ} (same : m s = m' s')
    (next : α → Prog ε σ β)
    : (m >>= next) s = (m' >>= next) s' := by
  change andThen m next s = andThen m' next s'
  rw [andThen, andThen, same]

/-- A sequence that finished did so part by part. -/
theorem of_bind_done {m : Prog ε σ α} {next : α → Prog ε σ β} {s s' : σ} {value : β}
    (ends : (m >>= next) s = .done value s')
    : ∃ first s₁, m s = .done first s₁ ∧ next first s₁ = .done value s' := by
  cases begins : m s with
  | done first s₁ => exact ⟨first, s₁, rfl, (bind_done begins).symm.trans ends⟩
  | fault error s₁ => cases (bind_fault begins).symm.trans ends

/-- Sequencing is associative. -/
theorem bind_bind {γ : Type} (m : Prog ε σ α) (next : α → Prog ε σ β) (rest : β → Prog ε σ γ)
    : (m >>= fun value => next value >>= rest) = ((m >>= next) >>= rest) := by
  funext s
  change andThen m (fun value => andThen (next value) rest) s = andThen (andThen m next) rest s
  unfold andThen
  cases m s <;> rfl

/-- Reading the state hands it to the rest. -/
theorem bind_get {next : σ → Prog ε σ β} {s : σ} : ((get : Prog ε σ σ) >>= next) s = next s s :=
  rfl

section Rules

variable {post : α → σ → Prop} {postB : β → σ → Prop} {onFault : ε → σ → Prop} {s : σ}

@[simp]
theorem wp_pure (value : α)
    : (pure value : Prog ε σ α).wp post onFault s ↔ post value s :=
  Iff.rfl

@[simp]
theorem wp_get {post : σ → σ → Prop}
    : (get : Prog ε σ σ).wp post onFault s ↔ post s s :=
  Iff.rfl

@[simp]
theorem wp_modify {post : Unit → σ → Prop} (f : σ → σ)
    : (modify f : Prog ε σ Unit).wp post onFault s ↔ post () (f s) :=
  Iff.rfl

@[simp]
theorem wp_fail (error : ε)
    : (fail error : Prog ε σ α).wp post onFault s ↔ onFault error s :=
  Iff.rfl

@[simp]
theorem wp_bind (m : Prog ε σ α) (next : α → Prog ε σ β)
    : (m >>= next).wp postB onFault s
      ↔ m.wp (fun value => (next value).wp postB onFault) onFault s := by
  change (andThen m next).wp postB onFault s ↔ _
  unfold wp andThen
  cases m s <;> rfl

@[simp]
theorem wp_ite {c : Prop} [Decidable c] (m n : Prog ε σ α)
    : (if c then m else n).wp post onFault s
      ↔ (c → m.wp post onFault s) ∧ (¬c → n.wp post onFault s) := by
  by_cases h : c <;> simp [h]

/-- A weaker postcondition is easier to reach, by cases on how the program ends. -/
theorem wp_mono {m : Prog ε σ α} {post' : α → σ → Prop} {onFault' : ε → σ → Prop}
    (h : m.wp post onFault s)
    (onDone : ∀ value s', post value s' → post' value s')
    (onStop : ∀ error s', onFault error s' → onFault' error s')
    : m.wp post' onFault' s := by
  unfold wp at h ⊢
  split <;> rename_i ends <;> rw [ends] at h
  · exact onDone _ _ h
  · exact onStop _ _ h

/-- Two postconditions of one run hold together. -/
theorem wp_and {m : Prog ε σ α} {post' : α → σ → Prop} {onFault' : ε → σ → Prop}
    (left : m.wp post onFault s) (right : m.wp post' onFault' s)
    : m.wp (fun value s' => post value s' ∧ post' value s')
        (fun error s' => onFault error s' ∧ onFault' error s') s := by
  unfold wp at left right ⊢
  split <;> rename_i ends <;> rw [ends] at left right <;> exact ⟨left, right⟩

/-- What a finished run returned satisfies the postcondition. -/
theorem wp_done {m : Prog ε σ α} {value : α} {s' : σ} (h : m.wp post onFault s)
    (ends : m s = .done value s')
    : post value s' := by
  unfold wp at h
  rwa [ends] at h

/-- What a stopped run left satisfies the fault postcondition. -/
theorem wp_fault {m : Prog ε σ α} {error : ε} {s' : σ} (h : m.wp post onFault s)
    (ends : m s = .fault error s')
    : onFault error s' := by
  unfold wp at h
  rwa [ends] at h

/-- Sequencing: what the first part establishes is what the rest may start from. -/
theorem wp_seq {m : Prog ε σ α} {next : α → Prog ε σ β} (first : m.wp post onFault s)
    (rest : ∀ value s', post value s' → (next value).wp postB onFault s')
    : (m >>= next).wp postB onFault s :=
  (wp_bind m next).mpr (wp_mono first rest (fun _ _ stopped => stopped))

/-- The postcondition alone is weakened. -/
theorem wp_post {m : Prog ε σ α} {post' : α → σ → Prop} (h : m.wp post onFault s)
    (onDone : ∀ value s', post value s' → post' value s')
    : m.wp post' onFault s :=
  wp_mono h onDone (fun _ _ stopped => stopped)

/-- Sequencing with the condition between the two parts spelled out. -/
theorem wp_cut {m : Prog ε σ α} {next : α → Prog ε σ β} (mid : α → σ → Prop)
    (first : m.wp mid onFault s)
    (rest : ∀ value s', mid value s' → (next value).wp postB onFault s')
    : (m >>= next).wp postB onFault s :=
  wp_seq first rest

/-- Sequencing after a first part whose outcome is known. -/
theorem wp_known {m : Prog ε σ α} {next : α → Prog ε σ β} {value : α} {s' : σ}
    (ends : m s = .done value s') (rest : (next value).wp postB onFault s')
    : (m >>= next).wp postB onFault s := by
  rw [wp_bind, wp, ends]
  exact rest

end Rules

-----------------------------------------------------------------------------------------
-- Invariants of a program
-----------------------------------------------------------------------------------------

/-- Every run of `m` from a state in `inv` finishes in `inv` or stops at one of `faults`. -/
def Keeps (inv : σ → Prop) (faults : ε → Prop) (m : Prog ε σ α) : Prop :=
  ∀ s, inv s → m.wp (fun _ => inv) (fun error _ => faults error) s

/-- Every run of `m` finishes where it started or stops at one of `faults`. -/
def ReadOnly (faults : ε → Prop) (m : Prog ε σ α) : Prop :=
  ∀ s, m.wp (fun _ s' => s' = s) (fun error _ => faults error) s

section Keeps

variable {inv : σ → Prop} {faults : ε → Prop}

theorem keeps_pure (value : α) : Keeps inv faults (pure value : Prog ε σ α) :=
  fun _ h => h

theorem keeps_fail {error : ε} (known : faults error)
    : Keeps inv faults (fail error : Prog ε σ α) :=
  fun _ _ => known

theorem keeps_modify {f : σ → σ} (step : ∀ s, inv s → inv (f s))
    : Keeps inv faults (modify f : Prog ε σ Unit) :=
  step

theorem keeps_bind {m : Prog ε σ α} {next : α → Prog ε σ β}
    (first : Keeps inv faults m) (rest : ∀ value, Keeps inv faults (next value))
    : Keeps inv faults (m >>= next) :=
  fun s h => wp_seq (first s h) (fun value s' h' => rest value s' h')

/-- More faults may be tolerated. -/
theorem Keeps.widen {faults' : ε → Prop} {m : Prog ε σ α} (keeps : Keeps inv faults m)
    (wider : ∀ error, faults error → faults' error)
    : Keeps inv faults' m :=
  fun s h => wp_mono (keeps s h) (fun _ _ done => done) (fun error _ stopped => wider error stopped)

theorem keeps_ite {c : Prop} [Decidable c] {m n : Prog ε σ α} (yes : Keeps inv faults m)
    (no : Keeps inv faults n)
    : Keeps inv faults (if c then m else n) := by
  split
  · exact yes
  · exact no

theorem readOnly_pure (value : α) : ReadOnly faults (pure value : Prog ε σ α) :=
  fun _ => rfl

theorem readOnly_get : ReadOnly faults (get : Prog ε σ σ) :=
  fun _ => rfl

theorem readOnly_fail {error : ε} (known : faults error)
    : ReadOnly faults (fail error : Prog ε σ α) :=
  fun _ => known

theorem readOnly_bind {m : Prog ε σ α} {next : α → Prog ε σ β}
    (first : ReadOnly faults m) (rest : ∀ value, ReadOnly faults (next value))
    : ReadOnly faults (m >>= next) := by
  intro s
  refine wp_seq (first s) ?_
  rintro value s' rfl
  exact rest value s'

/-- A program that changes nothing keeps every invariant. -/
theorem ReadOnly.keeps {m : Prog ε σ α} (readOnly : ReadOnly faults m)
    : Keeps inv faults m := by
  intro s h
  refine wp_post (readOnly s) ?_
  rintro value s' rfl
  exact h

end Keeps

end Prog

end Program
