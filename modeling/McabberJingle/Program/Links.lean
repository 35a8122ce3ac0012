import McabberJingle.Program.Runs

/-! Two parties that exchange messages over channels, one for each direction. What is sent on a
channel arrives once and in order, at any later time. What each party holds to while the other
does, both hold to in every interleaving.
-/

namespace Program

-----------------------------------------------------------------------------------------
-- Channels
-----------------------------------------------------------------------------------------

/-- All messages sent on a channel, oldest first, and how many of them have arrived. -/
@[ext]
structure Channel (α : Type) where
  log : List α
  taken : Nat
  bound : taken ≤ log.length

namespace Channel

variable {α : Type}

/-- A channel on which these messages were sent, and none has arrived. -/
def opened (first : List α) : Channel α := ⟨first, 0, Nat.zero_le _⟩

def arrived (channel : Channel α) : List α := channel.log.take channel.taken

def underWay (channel : Channel α) : List α := channel.log.drop channel.taken

/-- The message that arrives next. -/
def next? (channel : Channel α) : Option α := channel.log[channel.taken]?

def send (channel : Channel α) (messages : List α) : Channel α where
  log := channel.log ++ messages
  taken := channel.taken
  bound := by
    have bound := channel.bound
    rw [List.length_append]
    omega

/-- The next message arrives. -/
def pass (channel : Channel α) {message : α} (next : channel.next? = some message)
    : Channel α where
  log := channel.log
  taken := channel.taken + 1
  bound := (List.getElem?_eq_some_iff.mp next).1

@[simp]
theorem arrived_opened (first : List α) : (opened first).arrived = [] := rfl

@[simp]
theorem arrived_send (channel : Channel α) (messages : List α)
    : (channel.send messages).arrived = channel.arrived :=
  List.take_append_of_le_length channel.bound

/-- Messages arrive in the order in which they were sent. -/
@[simp]
theorem arrived_pass (channel : Channel α) {message : α} (next : channel.next? = some message)
    : (channel.pass next).arrived = channel.arrived ++ [message] := by
  obtain ⟨inside, rfl⟩ := List.getElem?_eq_some_iff.mp next
  exact List.take_succ_eq_append_getElem inside

/-- The message that arrives next was sent behind those that arrived. -/
theorem arrived_append_prefix (channel : Channel α) {message : α}
    (next : channel.next? = some message)
    : channel.arrived ++ [message] <+: channel.log := by
  rw [← channel.arrived_pass next]
  exact List.take_prefix _ _

theorem arrived_append_underWay (channel : Channel α)
    : channel.arrived ++ channel.underWay = channel.log :=
  List.take_append_drop _ _

theorem arrived_prefix (channel : Channel α) : channel.arrived <+: channel.log :=
  List.take_prefix _ _

theorem length_arrived (channel : Channel α) : channel.arrived.length = channel.taken :=
  List.length_take_of_le channel.bound

/-- Nothing is under way exactly when no message arrives next. -/
theorem underWay_eq_nil_iff (channel : Channel α)
    : channel.underWay = [] ↔ channel.next? = none := by
  rw [underWay, List.drop_eq_nil_iff, next?, List.getElem?_eq_none_iff]

theorem arrived_eq_log {channel : Channel α} (nothing : channel.underWay = [])
    : channel.arrived = channel.log := by
  rw [← channel.arrived_append_underWay, nothing, List.append_nil]

end Channel

-----------------------------------------------------------------------------------------
-- Two parties
-----------------------------------------------------------------------------------------

/-- Two parties, what the left one sends forth and what the right one sends back. -/
structure Link (σ ρ α β : Type) where
  left : σ
  right : ρ
  forth : Channel α
  back : Channel β

/-- Which party takes its next message, with what its surroundings answer. -/
inductive Side (ω : Type) where
  | left (w : ω)
  | right (w : ω)

namespace Link

variable {σ ρ α β ω : Type} {onLeft : σ → ω → β → σ → List α → Prop}
  {onRight : ρ → ω → α → ρ → List β → Prop}

/-- One party takes the message that arrives next, changes, and sends more. -/
inductive Step (onLeft : σ → ω → β → σ → List α → Prop) (onRight : ρ → ω → α → ρ → List β → Prop)
    : Link σ ρ α β → Side ω → Link σ ρ α β → Prop
  | left {link : Link σ ρ α β} {w : ω} {message : β} {left : σ} {out : List α}
    (next : link.back.next? = some message) (takes : onLeft link.left w message left out)
    : Step onLeft onRight link (.left w)
        { link with left, forth := link.forth.send out, back := link.back.pass next }
  | right {link : Link σ ρ α β} {w : ω} {message : α} {right : ρ} {out : List β}
    (next : link.forth.next? = some message) (takes : onRight link.right w message right out)
    : Step onLeft onRight link (.right w)
        { link with right, forth := link.forth.pass next, back := link.back.send out }

/-- All links reached from `init`, in any order of the steps. -/
abbrev Runs (init : Link σ ρ α β → Prop) (onLeft : σ → ω → β → σ → List α → Prop)
    (onRight : ρ → ω → α → ρ → List β → Prop)
    : Link σ ρ α β → Prop :=
  Reach init (Step onLeft onRight) (fun _ _ => True)

/-- How many messages have arrived. -/
def steps (link : Link σ ρ α β) : Nat := link.forth.taken + link.back.taken

/-- Nothing is under way. -/
def Quiet (link : Link σ ρ α β) : Prop := link.forth.underWay = [] ∧ link.back.underWay = []

theorem Step.steps {link next : Link σ ρ α β} {side : Side ω}
    (step : Step onLeft onRight link side next)
    : next.steps = link.steps + 1 := by
  cases step with
  | left next takes => exact (Nat.add_assoc _ _ _).symm
  | right next takes => exact Nat.add_right_comm _ _ _

/-- By induction on the steps that are left: a run that can go on while something is under way, and
not for ever, comes to an end.
-/
theorem settles {init : Link σ ρ α β → Prop} {bound : Nat}
    (bounded : ∀ link, Runs init onLeft onRight link → link.steps ≤ bound)
    (progress : ∀ link, Runs init onLeft onRight link → ¬link.Quiet →
      ∃ side next, Step onLeft onRight link side next)
    {link : Link σ ρ α β} (run : Runs init onLeft onRight link)
    : ∃ last, Runs (fun first => first = link) onLeft onRight last ∧ last.Quiet := by
  generalize more : bound - link.steps = n
  induction n generalizing link with
  | zero =>
      by_cases quiet : link.Quiet
      · exact ⟨link, .start rfl, quiet⟩
      · obtain ⟨side, next, step⟩ := progress link run quiet
        have few := bounded next (.step run trivial step)
        rw [step.steps] at few
        omega
  | succ n ih =>
      by_cases quiet : link.Quiet
      · exact ⟨link, .start rfl, quiet⟩
      · obtain ⟨side, next, step⟩ := progress link run quiet
        have steps := step.steps
        obtain ⟨last, onward, quiet'⟩ := ih (.step run trivial step) (by omega)
        exact ⟨last, Reach.trans (.step (.start rfl) trivial step) onward, quiet'⟩

/-- What either party holds to, given its state, all messages to and all messages from it, as
long as the other party holds to its part.
-/
structure Upholds (onLeft : σ → ω → β → σ → List α → Prop)
    (onRight : ρ → ω → α → ρ → List β → Prop) (L : σ → List α → List β → Prop)
    (R : ρ → List α → List β → Prop)
    : Prop where
  left : ∀ s r w message s' out sent got taken replies, L s sent got → R r taken replies →
    taken <+: sent → got ++ [message] <+: replies → onLeft s w message s' out →
      L s' (sent ++ out) (got ++ [message])
  right : ∀ s r w message r' out sent got taken replies, L s sent got → R r taken replies →
    got <+: replies → taken ++ [message] <+: sent → onRight r w message r' out →
      R r' (taken ++ [message]) (replies ++ out)

/-- By induction on the run: each step is one of one party, and the other one stays put. -/
theorem Upholds.both {L : σ → List α → List β → Prop} {R : ρ → List α → List β → Prop}
    {init : Link σ ρ α β → Prop} {link : Link σ ρ α β}
    (upholds : Upholds onLeft onRight L R)
    (starts : ∀ link, init link →
      L link.left link.forth.log link.back.arrived ∧ R link.right link.forth.arrived link.back.log)
    (run : Runs init onLeft onRight link)
    : L link.left link.forth.log link.back.arrived
      ∧ R link.right link.forth.arrived link.back.log := by
  refine run.invariant starts ?_
  rintro link side next ⟨holdsLeft, holdsRight⟩ _ step
  cases step with
  | @left w message s' out arrives takes =>
      refine ⟨?_, ?_⟩
      · rw [Channel.arrived_pass]
        exact upholds.left _ _ w message s' out _ _ _ _ holdsLeft holdsRight
          link.forth.arrived_prefix (link.back.arrived_append_prefix arrives) takes
      · rw [Channel.arrived_send]
        exact holdsRight
  | @right w message r' out arrives takes =>
      refine ⟨?_, ?_⟩
      · rw [Channel.arrived_send]
        exact holdsLeft
      · rw [Channel.arrived_pass]
        exact upholds.right _ _ w message r' out _ _ _ _ holdsLeft holdsRight
          link.back.arrived_prefix (link.forth.arrived_append_prefix arrives) takes

end Link

end Program
