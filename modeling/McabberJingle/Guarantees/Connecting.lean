import McabberJingle.S5b.Connecting

/-! Whether the candidates of a peer are tried in order until one is connected. -/

namespace McabberJingle.S5b

open Program Program.Prog

variable {s : Client} {args : ArgsPtr} {i : Nat} {candidates : List S5BCandidate}

-----------------------------------------------------------------------------------------
-- What trying the candidates is to do
-----------------------------------------------------------------------------------------

/-- What there is to see of the attempts: the candidates tried so far, the connection, and
whether another attempt is pending.
-/
structure Progress where
  attempts : List CandPtr
  connection : Option GSocketConnection
  pending : Bool

/-- How far the attempts are to get, of so many candidates and from one of them on, when they end
so: a connection ends them, and so does a failure of the last candidate.
-/
def Progress.expected (candidates : Nat) (cand : CandPtr) : List AttemptOutcome → Progress
  | [] => { attempts := List.range (cand + 1), connection := none, pending := true }
  | .connected conn :: _ =>
      { attempts := List.range (cand + 1), connection := some conn, pending := false }
  | .failed _ _ :: rest | .cancelled :: rest =>
      if cand + 1 < candidates then
        expected candidates (cand + 1) rest
      else
        { attempts := List.range (cand + 1), connection := none, pending := false }

/-- What the stream shows. -/
def Client.progress (s : Client) : Progress :=
  { attempts := s.attempts, connection := s.connection, pending := !s.connecting.isEmpty }

/-- The attempts get as far as they should, one at a time, and nothing stops the program. -/
def TriesInOrder (candidates : List S5BCandidate) (outcomes : List AttemptOutcome) : Prop :=
  ∃ s, connectAll outcomes (.new candidates) = .done () s
    ∧ s.progress = .expected candidates.length 0 outcomes
    ∧ s.connecting.length ≤ 1

/-- The attempt made a connection. -/
def AttemptOutcome.isConnected : AttemptOutcome → Bool
  | .connected _ => true
  | .failed _ _ | .cancelled => false

-----------------------------------------------------------------------------------------
-- Between two attempts
-----------------------------------------------------------------------------------------

/-- So many candidates were tried in order, none is connected, and nothing is pending. -/
structure Resting (candidates : List S5BCandidate) (tried : Nat) (s : Client) : Prop where
  candidates : s.candidates = candidates
  connection : s.connection = none
  attempts : s.attempts = List.range tried
  connecting : s.connecting = []
  sources : s.sources = []
  cancelled : ∀ cancellable ∈ s.cancelled, cancellable < s.nextCancellable

/-- The attempt for one candidate is pending, and so is its timeout; all before it are over. -/
structure Trying (candidates : List S5BCandidate) (cand : CandPtr) (args : ArgsPtr)
    (cancellable : GCancellable) (eventid : Nat) (s : Client)
    : Prop where
  here : cand < candidates.length
  candidates : s.candidates = candidates
  connection : s.connection = none
  attempts : s.attempts = List.range (cand + 1)
  connecting : s.connecting = [{ args, cancellable }]
  sources : s.sources = [(eventid, args)]
  array : s.args.get? args = some { refs := 2, cand, eventid := some eventid }
  cancelconnect : s.cancelconnect = some cancellable
  fresh : cancellable ∉ s.cancelled
  cancelled : ∀ cancellable ∈ s.cancelled, cancellable < s.nextCancellable
  below : cancellable < s.nextCancellable

theorem new_resting (candidates : List S5BCandidate) : Resting candidates 0 (.new candidates) where
  candidates := rfl
  connection := rfl
  attempts := rfl
  connecting := rfl
  sources := rfl
  cancelled _ member := by cases member

/-- The next attempt. -/
theorem connectCandidate_tries (resting : Resting candidates i s) (here : i < candidates.length)
    : ∃ s', connectCandidate i s = .done () s'
        ∧ Trying candidates i s.args.next s.nextCancellable s.nextSource s' := by
  refine ⟨_, rfl, ?_⟩
  exact {
    candidates := resting.candidates
    here := here
    connection := resting.connection
    attempts := by rw [List.range_succ]; exact congrArg (· ++ [i]) resting.attempts
    connecting := congrArg (· ++ _) resting.connecting
    sources := congrArg (· ++ _) resting.sources
    array := Pool.get?_alloc_self _ _
    cancelconnect := rfl
    fresh := fun member => Nat.lt_irrefl _ (resting.cancelled _ member)
    cancelled := fun c member => Nat.lt_succ_of_lt (resting.cancelled c member)
    below := Nat.lt_succ_self _
  }

/-- Behind the last candidate `link->next` is NULL. -/
theorem connectNextCandidate_next (resting : Resting candidates (i + 1) s)
    (there : i < candidates.length)
    : connectNextCandidate i s
      = if i + 1 < candidates.length then connectCandidate (i + 1) s else .fault .nullLink s := by
  rw [connectNextCandidate, bind_get, resting.candidates, List.drop_eq_getElem_cons there]
  cases more : candidates.drop (i + 1) with
  | nil =>
      have last : ¬i + 1 < candidates.length := by
        have length := congrArg List.length more
        simp only [List.length_drop, List.length_nil] at length
        omega
      rw [if_neg last]
      rfl
  | cons next rest =>
      have length := congrArg List.length more
      simp only [List.length_drop, List.length_cons] at length
      rw [if_pos (by omega)]

-----------------------------------------------------------------------------------------
-- The end of an attempt
-----------------------------------------------------------------------------------------

theorem readArgs_done {array : ConnectArgs} (listed : s.args.get? args = some array)
    : readArgs args s = .done array s := by
  rw [readArgs, bind_get, listed]
  rfl

/-- The array with one reference less. -/
def ConnectArgs.unref (array : ConnectArgs) : ConnectArgs := { array with refs := array.refs - 1 }

theorem unrefArgs_shared {array : ConnectArgs} (listed : s.args.get? args = some array)
    (shared : 1 < array.refs)
    : unrefArgs args s = .done () { s with args := s.args.modify args ConnectArgs.unref } := by
  rw [unrefArgs, bind_done (readArgs_done listed), if_neg (Nat.not_le.mpr shared)]
  rfl

theorem unrefArgs_last {array : ConnectArgs} (listed : s.args.get? args = some array)
    (last : array.refs ≤ 1)
    : unrefArgs args s = .done () { s with args := s.args.erase args } := by
  rw [unrefArgs, bind_done (readArgs_done listed), if_pos last]
  rfl

/-- The error that `g_socket_client_connect_finish` sets. -/
def errorOf (result : Except ConnectError GSocketConnection) : Option ConnectError :=
  match result with
  | .ok _ => none
  | .error err => some err

/-- Without CANCELLED the timeout is removed with its reference, and the next candidate is tried:
also when there is a connection.
-/
theorem handleClientConnect_in_time {cand : CandPtr} {eventid : Nat}
    (listed : s.args.get? args = some { refs := 2, cand, eventid := some eventid })
    {result : Except ConnectError GSocketConnection}
    (inTime : gErrorMatches (errorOf result) G_IO_ERROR G_IO_ERROR_CANCELLED = false)
    : handleClientConnect args result s
      = connectNextCandidate cand
          { s with
            args := (s.args.modify args ConnectArgs.unref).erase args
            sources := s.sources.filter (fun source => some source.1 != some eventid) } := by
  have shared := unrefArgs_shared listed (by decide : 1 < 2)
  have listed' : (s.args.modify args ConnectArgs.unref).get? args
      = some { refs := 1, cand, eventid := some eventid } := by
    rw [Pool.get?_modify_self, listed]
    rfl
  have last : ∀ sources, unrefArgs args
      { s with args := s.args.modify args ConnectArgs.unref, sources }
      = .done () { s with
          args := (s.args.modify args ConnectArgs.unref).erase args, sources } :=
    fun sources => unrefArgs_last (s := { s with
      args := s.args.modify args ConnectArgs.unref, sources }) listed' (Nat.le_refl _)
  unfold handleClientConnect
  rw [bind_done (readArgs_done listed), bind_done shared]
  cases result with
  | ok conn => exact (bind_done (readArgs_done listed')).trans (bind_done (last _))
  | error err =>
      have other : gErrorMatches (some err) G_IO_ERROR G_IO_ERROR_CANCELLED = false := inTime
      dsimp only
      rw [other]
      exact (bind_done (readArgs_done listed')).trans (bind_done (last _))

/-- After the time limit only the reference of the callback is left. -/
theorem handleClientConnect_too_late {cand : CandPtr} {eventid : Option Nat}
    (listed : s.args.get? args = some { refs := 1, cand, eventid })
    : handleClientConnect args (.error .cancelled) s
      = connectNextCandidate cand { s with args := s.args.erase args } := by
  unfold handleClientConnect
  rw [bind_done (readArgs_done listed), bind_done (unrefArgs_last listed (Nat.le_refl _))]
  rfl

/-- Only CANCELLED matches. -/
theorem gErrorMatches_other {err : ConnectError} (other : err ≠ .cancelled)
    : gErrorMatches (some err) G_IO_ERROR G_IO_ERROR_CANCELLED = false := by
  obtain ⟨domain, code⟩ := err
  simp only [ConnectError.cancelled, ne_eq, ConnectError.mk.injEq, not_and] at other
  simp only [gErrorMatches, Option.any_some, Bool.and_eq_false_iff, beq_eq_false_iff_ne]
  by_cases domains : domain = G_IO_ERROR
  · exact .inr (other domains)
  · exact .inl domains

variable {cancellable : GCancellable} {eventid : Nat}

/-- What is left of an attempt that ended is the list of candidates tried. -/
theorem Trying.rests (trying : Trying candidates i args cancellable eventid s)
    (pool : Pool ConnectArgs) {cancelled : List GCancellable}
    (known : ∀ c ∈ cancelled, c ∈ s.cancelled ∨ c = cancellable)
    : Resting candidates (i + 1)
        { s with args := pool, sources := [], connecting := [], cancelled } where
  candidates := trying.candidates
  connection := trying.connection
  attempts := trying.attempts
  connecting := rfl
  sources := rfl
  cancelled c member := by
    rcases known c member with earlier | rfl
    · exact trying.cancelled c earlier
    · exact trying.below

/-- An attempt that ends before its time limit leads to the next candidate, however it ends. -/
theorem finishConnecting_goes_on (trying : Trying candidates i args cancellable eventid s)
    {result : Except ConnectError GSocketConnection}
    (inTime : gErrorMatches (errorOf result) G_IO_ERROR G_IO_ERROR_CANCELLED = false)
    : ∃ s', Resting candidates (i + 1) s'
        ∧ finishConnecting result s = connectNextCandidate i s' := by
  refine ⟨_, trying.rests ((s.args.modify args ConnectArgs.unref).erase args)
    (fun c member => .inl member), ?_⟩
  have handled := handleClientConnect_in_time (s := { s with connecting := [] }) trying.array inTime
  have destroyed : s.sources.filter (fun source => some source.1 != some eventid) = [] := by
    simp [trying.sources]
  rw [finishConnecting, bind_get, trying.connecting]
  refine (bind_done rfl).trans ?_
  rw [if_neg trying.fresh]
  simp only [destroyed] at handled
  exact handled

/-- So does one that is cancelled. -/
theorem cancelled_goes_on (trying : Trying candidates i args cancellable eventid s)
    : ∃ s', Resting candidates (i + 1) s'
        ∧ AttemptOutcome.cancelled.play s = connectNextCandidate i s' := by
  let s₁ : Client :=
    { s with
      sources := []
      args := s.args.modify args ConnectArgs.unref
      cancelled := s.cancelled ++ s.cancelconnect.toList }
  have shared := unrefArgs_shared (s := { s with sources := [] }) trying.array
    (by decide : 1 < 2)
  have timed : connectCancelTimeout args { s with sources := [] } = .done () s₁ :=
    (bind_done (readArgs_done (s := { s with sources := [] }) trying.array)).trans
      (bind_done shared)
  have fired : fireTimeout s = .done () s₁ := by
    rw [fireTimeout, bind_get, trying.sources]
    exact timed
  have late : cancellable ∈ s₁.cancelled := by simp [s₁, trying.cancelconnect]
  have listed : s₁.args.get? args = some { refs := 1, cand := i, eventid := some eventid } := by
    simp only [s₁, Pool.get?_modify_self, trying.array]
    rfl
  have handled := handleClientConnect_too_late (s := { s₁ with connecting := [] }) listed
  refine ⟨{ s₁ with connecting := [], args := s₁.args.erase args },
    trying.rests (s₁.args.erase args) (fun c member => ?_), ?_⟩
  · rcases List.mem_append.mp member with earlier | last
    · exact .inl earlier
    · rw [trying.cancelconnect] at last
      exact .inr (by simpa using last)
  · have finished : finishConnecting (.error .cancelled) s₁
        = handleClientConnect args (.error .cancelled) { s₁ with connecting := [] } := by
      have pending : s₁.connecting = [{ args, cancellable }] := trying.connecting
      rw [finishConnecting, bind_get, pending]
      refine (bind_done rfl).trans ?_
      rw [if_pos late]
    exact (bind_done fired).trans (finished.trans handled)

/-- However an attempt ends, the next candidate is tried, and behind the last one the list is
followed too far.
-/
theorem play_eq (trying : Trying candidates i args cancellable eventid s)
    (outcome : AttemptOutcome)
    : if i + 1 < candidates.length then
        ∃ s' args' cancellable' eventid', outcome.play s = .done () s'
          ∧ Trying candidates (i + 1) args' cancellable' eventid' s'
      else
        ∃ s', outcome.play s = .fault .nullLink s' := by
  obtain ⟨s₁, resting, goes⟩ : ∃ s', Resting candidates (i + 1) s'
      ∧ outcome.play s = connectNextCandidate i s' := by
    cases outcome with
    | connected conn => exact finishConnecting_goes_on trying rfl
    | failed error other => exact finishConnecting_goes_on trying (gErrorMatches_other other)
    | cancelled => exact cancelled_goes_on trying
  have next := connectNextCandidate_next resting trying.here
  split
  · rename_i more
    rw [if_pos more] at next
    obtain ⟨s', connects, trying'⟩ := connectCandidate_tries resting more
    exact ⟨s', _, _, _, (goes.trans next).trans connects, trying'⟩
  · rename_i last
    rw [if_neg last] at next
    exact ⟨s₁, goes.trans next⟩

-----------------------------------------------------------------------------------------
-- Whole runs
-----------------------------------------------------------------------------------------

/-- By induction on the outcomes: every one of them uses up a candidate. -/
theorem playOutcomes_eq (trying : Trying candidates i args cancellable eventid s)
    (outcomes : List AttemptOutcome)
    : if i + outcomes.length < candidates.length then
        ∃ s' args' cancellable' eventid', playOutcomes outcomes s = .done () s'
          ∧ Trying candidates (i + outcomes.length) args' cancellable' eventid' s'
      else
        ∃ s', playOutcomes outcomes s = .fault .nullLink s' := by
  induction outcomes generalizing i args cancellable eventid s with
  | nil =>
      have here : i + ([] : List AttemptOutcome).length < candidates.length := trying.here
      rw [if_pos here]
      exact ⟨s, args, cancellable, eventid, rfl, trying⟩
  | cons outcome rest ih =>
      have played := play_eq trying outcome
      have count : i + (outcome :: rest).length = i + 1 + rest.length := by
        rw [List.length_cons]
        omega
      rw [count]
      by_cases more : i + 1 < candidates.length
      · rw [if_pos more] at played
        obtain ⟨s₁, args₁, cancellable₁, eventid₁, plays, trying₁⟩ := played
        have later := ih trying₁
        rw [playOutcomes, bind_done plays]
        exact later
      · rw [if_neg more] at played
        obtain ⟨s₁, plays⟩ := played
        rw [if_neg (by omega)]
        exact ⟨s₁, by rw [playOutcomes, bind_fault plays]⟩

/-- By induction on the outcomes: an attempt is to be pending as long as there are fewer failures
than candidates, and only failures.
-/
theorem expected_pending (n cand : Nat) (here : cand < n) (outcomes : List AttemptOutcome)
    : (Progress.expected n cand outcomes).pending = true
      ↔ (∀ outcome ∈ outcomes, outcome.isConnected = false)
        ∧ cand + outcomes.length < n := by
  induction outcomes generalizing cand with
  | nil => simp [Progress.expected, here]
  | cons outcome rest ih =>
      have failing (failed : outcome.isConnected = false)
          : (if cand + 1 < n then (Progress.expected n (cand + 1) rest).pending else false) = true
            ↔ (∀ o ∈ outcome :: rest, o.isConnected = false)
              ∧ cand + (outcome :: rest).length < n := by
        rw [List.forall_mem_cons, List.length_cons]
        by_cases more : cand + 1 < n
        · rw [if_pos more, ih (cand + 1) more]
          simp only [failed, true_and]
          rw [Nat.add_assoc, Nat.add_comm 1]
        · rw [if_neg more]
          simp only [Bool.false_eq_true, false_iff, not_and]
          intro _
          omega
      cases outcome with
      | connected conn => simp [Progress.expected, AttemptOutcome.isConnected]
      | failed error other =>
          rw [← failing rfl, Progress.expected]
          split <;> rfl
      | cancelled =>
          rw [← failing rfl, Progress.expected]
          split <;> rfl

/-- By induction on the outcomes: after failures alone, all candidates so far were tried. -/
theorem expected_failures (n cand : Nat) (outcomes : List AttemptOutcome)
    (failures : ∀ outcome ∈ outcomes, outcome.isConnected = false)
    (more : cand + outcomes.length < n)
    : Progress.expected n cand outcomes
      = { attempts := List.range (cand + outcomes.length + 1), connection := none
          pending := true } := by
  induction outcomes generalizing cand with
  | nil => rfl
  | cons outcome rest ih =>
      rw [List.length_cons] at more ⊢
      have next : cand + 1 < n := by omega
      have later := ih (cand + 1) (fun o member => failures o (List.mem_cons_of_mem _ member))
        (by omega)
      rw [show cand + 1 + rest.length = cand + (rest.length + 1) by omega] at later
      cases outcome with
      | connected conn => cases failures _ (List.mem_cons_self ..)
      | failed error other => rw [Progress.expected, if_pos next, later]
      | cancelled => rw [Progress.expected, if_pos next, later]

/-- The candidates are tried as they should be only as long as nothing but failures has come, and
fewer than there are candidates: a connection is passed over for the next candidate, and behind the
last one the list is followed too far.
-/
theorem candidates_tried_in_order (first : S5BCandidate) (others : List S5BCandidate)
    (outcomes : List AttemptOutcome)
    : TriesInOrder (first :: others) outcomes
      ↔ (∀ outcome ∈ outcomes, outcome.isConnected = false)
        ∧ outcomes.length < (first :: others).length := by
  let candidates := first :: others
  have here : 0 < candidates.length := Nat.succ_pos _
  obtain ⟨s₀, starts, trying⟩ := connectCandidate_tries (new_resting candidates) here
  have started : startConnecting (.new candidates) = .done () s₀ := starts
  have run : connectAll outcomes (.new candidates) = playOutcomes outcomes s₀ := bind_done started
  have played := playOutcomes_eq trying outcomes
  rw [Nat.zero_add] at played
  have pending := expected_pending candidates.length 0 here outcomes
  rw [Nat.zero_add] at pending
  constructor
  · rintro ⟨s, ends, progress, _⟩
    rw [run] at ends
    split at played
    · obtain ⟨s', args', cancellable', eventid', plays, trying'⟩ := played
      cases plays.symm.trans ends
      rw [← pending, ← progress]
      simp [Client.progress, trying'.connecting]
    · obtain ⟨s', stops⟩ := played
      cases stops.symm.trans ends
  · rintro ⟨failures, more⟩
    rw [if_pos more] at played
    obtain ⟨s, args', cancellable', eventid', plays, trying'⟩ := played
    refine ⟨s, run.trans plays, ?_, by simp [trying'.connecting]⟩
    have enough : 0 + outcomes.length < candidates.length := by
      rw [Nat.zero_add]
      exact more
    have expected := expected_failures candidates.length 0 outcomes failures enough
    rw [Nat.zero_add] at expected
    rw [expected, Client.progress, trying'.attempts, trying'.connection, trying'.connecting]
    rfl

/-- A candidate of a peer. -/
def peerCandidate : S5BCandidate where
  cid := "c1"
  host := "192.0.2.1"
  jid := "romeo@verona/a"
  port := 5086
  priority := 1
  type := .direct

/-- The only candidate is connected to, and the program goes through the NULL behind it. -/
theorem connection_passed_over
    : (∃ s, connectAll [.connected 7] (.new [peerCandidate]) = .fault .nullLink s
        ∧ s.connection = none)
      ∧ ¬TriesInOrder [peerCandidate] [.connected 7] := by
  have stops : ∃ s, connectAll [.connected 7] (.new [peerCandidate]) = .fault .nullLink s
      ∧ s.connection = none := ⟨_, rfl, rfl⟩
  refine ⟨stops, ?_⟩
  rintro ⟨s, ends, _⟩
  obtain ⟨s', stopped, _⟩ := stops
  cases stopped.symm.trans ends

end McabberJingle.S5b
