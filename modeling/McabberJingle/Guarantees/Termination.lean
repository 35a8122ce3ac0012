import McabberJingle.Effects.Machine
import McabberJingle.System.Execution

/-! Terminated sessions are gone: whoever sends or acknowledges a session-terminate deletes
the session. The answer `reject` to an invitation sends one and deletes nothing.
-/

namespace McabberJingle

open Program Program.Prog

-----------------------------------------------------------------------------------------
-- The invariant
-----------------------------------------------------------------------------------------

/-- The session that a sent stanza ends. -/
def Sent.ends : Sent → Option SessionPtr
  | .reply _ _ => none
  | .request ident iq => if iq.isSessionTerminate then some ident.ptr else none

/-- Sessions that were ended by a session-terminate of ours or of the peer. -/
def State.terminated (s : State) : List SessionPtr := s.sent.filterMap Sent.ends ++ s.closedByPeer

/-- Every terminated session is gone for good. -/
def TerminatedGone (s : State) : Prop := ∀ p ∈ s.terminated, Gone p s

/-- Everything is allowed but to end a session that stays listed. -/
def Rights.conclusive : Rights := { Rights.all with decline := fun _ => False }

theorem conclusive_generous : Generous .conclusive := by
  constructor <;> intros <;> trivial

/-- An IQ that does not end its session ends none. -/
theorem ends_of_request {p : SessionPtr} {js : JingleSession} {iq : LmMessage}
    {callback : Option AckCallback} (request : Request .conclusive p js iq callback)
    : (Sent.request (js.ident p) iq).ends = none := by
  cases request with
  | addressed address more await => simp [Sent.ends, more]
  | outward address allowed more await => simp [Sent.ends, more]
  | decline reason allowed decline => exact decline.elim

/-- What a change adds to the terminated sessions is gone afterwards. -/
theorem terminated_effect {s s' : State} (effect : Effect .conclusive s s') {p : SessionPtr}
    (member : p ∈ s'.terminated)
    : p ∈ s.terminated ∨ Gone p s' := by
  cases effect with
  | finish q js reason listed allowed outward =>
      simp only [State.terminated, State.requested, List.filterMap_append, List.mem_append,
        if_true] at member
      rcases member with (old | new) | closed
      · exact Or.inl (List.mem_append.mpr (Or.inl old))
      · have same : p = q := by simpa [Sent.ends, JingleSession.ident] using new
        subst same
        have known : p < s.sessions.next := Pool.lt_next listed
        exact Or.inr ⟨Pool.get?_erase_self _ _, known⟩
      · exact Or.inl (List.mem_append.mpr (Or.inr closed))
  | request q js iq callback timeout sendOk listed request timed =>
      have silent := ends_of_request request
      refine Or.inl ?_
      cases sendOk with
      | true => simpa [State.terminated, State.requested, silent] using member
      | false => exact member
  | packet q js t jibb sc env buf listed =>
      refine Or.inl ?_
      simpa [State.terminated, State.requested, Sent.ends] using member
  | reply query answer =>
      refine Or.inl ?_
      simpa [State.terminated, Sent.ends] using member
  | closedByPeer q gone known =>
      simp only [State.terminated, List.mem_append, List.mem_singleton] at member
      rcases member with old | closed | new
      · exact Or.inl (List.mem_append.mpr (Or.inl old))
      · exact Or.inl (List.mem_append.mpr (Or.inr closed))
      · exact Or.inr ⟨new ▸ gone, new ▸ known⟩
  | _ => exact Or.inl member

theorem terminatedGone_stable : Stable .conclusive TerminatedGone := by
  intro s s' holds effect p member
  rcases terminated_effect effect member with old | gone
  · exact gone_effect (holds p old) effect
  · exact gone

-----------------------------------------------------------------------------------------
-- Runs
-----------------------------------------------------------------------------------------

/-- The user does not answer `reject`. -/
def Undeclined (_ : State) (input : StepInput) : Prop := input.2.rejected = none

instance (s : State) (input : StepInput) : Decidable (Undeclined s input) := by
  unfold Undeclined
  infer_instance

theorem terminatedGone_reached {env : Env} {s : State} (run : ReachableBy env Undeclined s)
    : TerminatedGone s := by
  refine reached_invariant run ?_ ?_
  · intro s initial p member
    simp [State.terminated, initial.sent, initial.closedByPeer] at member
  · intro s w input holds _ undeclined _
    refine ⟨.conclusive, TerminatedGone, terminatedGone_stable, holds, fun _ h _ => h, ?_⟩
    refine conclusive_generous.mayHandle (fun _ => And.right) env ?_ ?_ ?_ ?_
    · exact fun _ _ _ _ => trivial
    · exact fun _ _ _ _ _ _ _ _ => trivial
    · intro id p js rejected
      subst rejected
      cases undeclined
    · exact Or.inr (fun _ => ⟨trivial, trivial⟩)

/-- In every run without a `reject` a session for which a session-terminate was sent or
acknowledged is gone: no request finds it, and a request that finds no session is answered
`unknown-session`, or opens a new session.
-/
theorem terminated_sessions_gone (env : Env) (s : State) (run : ReachableBy env Undeclined s)
    : ∀ p ∈ s.terminated,
        s.sessions.get? p = none
        ∧ ∀ w message jn, jingleRequest env message = some jn →
            (∀ js, sessionFind s jn ≠ some (p, js))
            ∧ (sessionFind s jn = none →
              (jn.action.needsSession = true →
                jingleHandleIq env w message s
                  = .done .removeMessage { s with sent := s.sent ++ [unknownSession message] })
              ∧ (jn.action = .sessionInitiate → acceptable env w jn = true →
                actionHandler env w jn.action = some (handleSessionInitiate env w)
                ∧ handleSessionInitiate env w jn s = openInvitation env w jn s)) := by
  intro p member
  have gone := (terminatedGone_reached run p member).1
  refine ⟨gone, fun w message jn valid => ⟨?_, fun absent => ⟨?_, ?_⟩⟩⟩
  · intro js found
    have listed := sessionFindBySid_listed found
    rw [gone] at listed
    cases listed
  · exact fun needs => jingleHandleIq_unknown w valid needs absent
  · exact fun action passes => ⟨by rw [action]; rfl, handleSessionInitiate_new passes absent⟩

/-- A peer offers a file, ends the session, and asks about it. -/
def endedByPeer : List StepInput := [
  (plainWorld, .jingleIq
    (jingleSet "romeo@verona/a" "session-initiate" "s1" [offeredContent "file" "b1"])),
  (plainWorld, .jingleIq (jingleSet "romeo@verona/a" "session-terminate" "s1" []))
]

theorem terminated_sessions_gone_endedByPeer
    : ∃ s, ReachableBy plainEnv Undeclined s ∧ 0 ∈ s.terminated ∧ s.sessions.get? 0 = none := by
  have passed : (execute plainEnv Undeclined loaded endedByPeer).any
      (fun s => s.terminated.contains 0) = true := by decide +kernel
  obtain ⟨s, run, ended⟩ := execute_any _ (loaded_reached plainEnv Undeclined) passed
  have member : 0 ∈ s.terminated := by simpa using ended
  exact ⟨s, run, member, (terminated_sessions_gone plainEnv s run 0 member).1⟩

/-- A `reject` ends the session it is about and leaves it listed. -/
theorem declined_session_listed {env : Env} {w : World} {s s' : State} {id : Nat}
    (step : Step env s (w, .event id .reject) s')
    : ∃ p ∈ s'.terminated, s'.sessions.get? p ≠ none := by
  obtain ⟨enabled, ends⟩ := step
  obtain ⟨p, pending⟩ := Option.isSome_iff_exists.mp enabled
  have asked : (alive .session (s.events.get? id) : Run SessionPtr) s = .done p s := by
    rw [pending]
    rfl
  cases listed : s.sessions.get? p with
  | none =>
      have gone : readSession p s = .fault (.useAfterFree .session) s := by
        change alive .session (s.sessions.get? p) s = _
        rw [listed]
        rfl
      have stops : evscallbackJingle env .reject p s = .fault (.useAfterFree .session) s :=
        bind_fault gone
      rw [handleInput, bind_get, bind_done asked, bind_fault stops] at ends
      cases ends
  | some js =>
      have found := readSession_done listed
      have sends : evscallbackJingle env .reject p s
          = .done () (s.requested (js.ident p) (sessionTerminateIq js "decline") none 0 true) := by
        rw [evscallbackJingle, bind_done found]
        exact bind_done found
      rw [handleInput, bind_get, bind_done asked, bind_done sends] at ends
      cases ends
      refine ⟨p, ?_, ?_⟩
      · simp [State.terminated, State.requested, Sent.ends, JingleSession.ident]
      · change s.sessions.get? p ≠ none
        simp [listed]

/-- A peer offers a file and the user rejects it. -/
def declinedInvitation : List StepInput := [
  (plainWorld, .jingleIq
    (jingleSet "romeo@verona/a" "session-initiate" "s1" [offeredContent "file" "b1"])),
  (plainWorld, .event 0 .reject)
]

theorem declined_invitation_stays
    : ¬∀ env s, Reachable env s → ∀ p ∈ s.terminated, s.sessions.get? p = none := by
  intro claimed
  have passed : (execute plainEnv (fun _ _ => True) loaded declinedInvitation).any
      (fun s => s.terminated.contains 0 && (s.sessions.get? 0).isSome) = true := by decide +kernel
  obtain ⟨s, run, listed⟩ := execute_any _ (loaded_reached plainEnv _) passed
  simp only [Bool.and_eq_true, List.contains_iff_mem] at listed
  have gone := claimed plainEnv s run 0 listed.1
  simp [gone] at listed

end McabberJingle
