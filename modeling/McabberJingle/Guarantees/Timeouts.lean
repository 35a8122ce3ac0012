import McabberJingle.Guarantees.AckHandlers
import McabberJingle.Jingle.Timeouts

/-! The timeout checker sweeps its list in one walk. That goes well unless the first handle has
expired and others follow it: the trailing pointer then leads through the freed head.
-/

namespace McabberJingle

open Program Program.Prog

-----------------------------------------------------------------------------------------
-- One walk
-----------------------------------------------------------------------------------------

/-- The walk ends without touching a freed node, has called the callbacks of the expired handles
once each, and leaves the other handles in their order.
-/
def TimesOut (handlers : Pool JingleAckHandle) (now : Nat) : Prop :=
  ∃ w, Loops (ackTimeoutRound now) (.start handlers) (.ok w)
    ∧ w.list.cells = handlers.cells.filter (fun cell => !cell.2.expired now)
    ∧ w.calls = timeoutCalls (handlers.cells.filter (fun cell => cell.2.expired now))

/-- The first handle has expired and is not the only one. -/
abbrev headExpired (handlers : Pool JingleAckHandle) (now : Nat) : Bool :=
  headMatches (expiredBy now) handlers

theorem expired_handles_swept (handlers : Pool JingleAckHandle) (now : Nat)
    : TimesOut handlers now ↔ headExpired handlers now = false := by
  constructor
  · rintro ⟨w, loops, _⟩
    cases head : headExpired handlers now with
    | false => rfl
    | true =>
        obtain ⟨error, fails⟩ := (ackTimeoutRound_sweeps now).fails (s := .start handlers) rfl head
        cases loops.unique fails
  · intro safe
    obtain ⟨w, loops, swept⟩ := (ackTimeoutRound_sweeps now).swept (s := .start handlers) rfl
      (fun _ _ _ => trivial) safe
    refine ⟨w, loops, swept.kept, ?_⟩
    rw [ackTimeoutRound_calls loops rfl, swept.removed]

/-- A session-initiate that expires after a minute, before a packet of data. -/
def initiateAndPacket : Pool JingleAckHandle :=
  ((Pool.empty 0).alloc
    { callback := some (.sessionInitiate 0), timeout := 60, inserted := 0 }).alloc
    { callback := some (.ibbSend { owner := 0, name := "file" }), timeout := 0, inserted := 0 }

theorem expired_head_dangles
    : Loops (ackTimeoutRound 60) (.start initiateAndPacket) (.error (.useAfterFree .listNode))
      ∧ ¬TimesOut initiateAndPacket 60 := by
  have fails : Loops (ackTimeoutRound 60) (.start initiateAndPacket)
      (.error (.useAfterFree .listNode)) := .leave (by rfl)
  refine ⟨fails, ?_⟩
  rintro ⟨w, loops, _⟩
  cases loops.unique fails

-----------------------------------------------------------------------------------------
-- The walk of the machine
-----------------------------------------------------------------------------------------

section Machine

variable (env : Env) (w : World) {now : Nat} {s : State} {calls : List (AckPtr × JingleAckType)}

/-- The machine's handles and the callbacks it called since `calls`, as the walk has them. -/
structure Follows (calls : List (AckPtr × JingleAckType)) (walk : AckSweep) (s : State) : Prop where
  list : s.ackHandlers = walk.list
  calls : s.fired = calls ++ walk.calls

/-- An expired handle is freed in the machine as it is in the walk. -/
theorem expireHandle_follows {walk : AckSweep} {ah : AckPtr} {handle : JingleAckHandle}
    (follows : Follows calls walk s) (live : s.ackHandlers.get? ah = some handle)
    (expired : handle.expired now = true) (timed : Timed s)
    : (expireHandle env w ah handle).wp (fun _ => Follows calls (walk.expire ah handle))
        (fun _ _ => True) s := by
  have waits : handle.timeout ≠ 0 := by
    simp only [JingleAckHandle.expired, Bool.and_eq_true, bne_iff_ne] at expired
    exact expired.1
  obtain ⟨sess, deletes⟩ := timed ah handle live waits
  have deleted : Keeps (fun s' => s'.ackHandlers = walk.list
      ∧ s'.fired = calls ++ (walk.calls ++ [(ah, .timeout)])) NotAckHandle
      (sessionDelete w sess) := by
    refine sessionDelete_frame w sess ?_ ?_
    · exact fun s' holds => holds
    · exact fun s' holds => holds
  have recorded (callback : AckCallback)
      (run : callback.run env w none = sessionDelete w sess)
      : (runCallback env w ah .timeout none (some callback)).wp
          (fun _ s' => s'.ackHandlers = walk.list
            ∧ s'.fired = calls ++ (walk.calls ++ [(ah, .timeout)])) (fun _ _ => True) s := by
    refine wp_cut (fun _ s' => s'.ackHandlers = walk.list
      ∧ s'.fired = calls ++ (walk.calls ++ [(ah, .timeout)])) ⟨follows.list, ?_⟩ ?_
    · dsimp only
      rw [follows.calls, List.append_assoc]
    · rw [run]
      exact fun _ s' holds =>
        wp_mono (deleted s' holds) (fun _ _ holds => holds) (fun _ _ _ => trivial)
  have called : handle.callback.isSome = true := by
    rcases deletes with initiate | accept
    · rw [initiate]; rfl
    · rw [accept]; rfl
  refine wp_cut (fun _ s' => s'.ackHandlers = walk.list
    ∧ s'.fired = calls ++ (walk.calls ++ [(ah, .timeout)])) ?_ ?_
  · rcases deletes with initiate | accept
    · rw [initiate]
      exact recorded _ rfl
    · rw [accept]
      exact recorded _ rfl
  · rintro _ s' ⟨list, fired⟩
    refine ⟨?_, ?_⟩
    · exact congrArg (fun handlers => handlers.erase ah) list
    · rw [AckSweep.expire, if_pos called]
      exact fired

/-- By induction on the handles before the walk: while the trailing pointer is on a handle that
waits, the machine does what the walk does.
-/
theorem timeoutLoop_follows (rest : List (AckPtr × JingleAckHandle))
    {visited : List (AckPtr × JingleAckHandle)} {walk : AckSweep}
    (stands : Sweep.At (expiredBy now) visited rest walk.toSweep)
    (trails : Sweep.Trails (expiredBy now) visited walk.toSweep)
    (follows : Follows calls walk s) (timed : Timed s)
    : (timeoutLoop env w now .live (rest.map Prod.fst)).wp
        (fun _ s' => ∃ r, Loops (ackTimeoutRound now) walk (.ok r) ∧ Follows calls r s')
        (fun _ _ => True) s := by
  induction rest generalizing visited walk s with
  | nil => exact ⟨walk, (ackTimeoutRound_sweeps now).ends walk stands.el, follows⟩
  | cons cell rest ih =>
      obtain ⟨ah, handle⟩ := cell
      have live : s.ackHandlers.get? ah = some handle := follows.list ▸ stands.found
      refine wp_known (readAck_done live) ?_
      rw [wp_ite]
      constructor
      · intro expired
        obtain ⟨front, last, kept, stays, prev⟩ := id trails
        have cells : (walk.list.erase ah).cells = front ++ last :: rest := by
          have left := stands.cells_unlink
          rw [kept] at left
          simpa [Sweep.unlink] using left
        have round := ackTimeoutRound_goesBack stands.el stands.found expired prev
          (Pool.get?_of_cells cells)
        have stands' := stands.unlink expired
        rw [← Pool.after_eq cells] at stands'
        let walk₁ : AckSweep :=
          { walk.expire ah handle with el := (walk.list.erase ah).after last.1 }
        have stands₁ : Sweep.At (expiredBy now) (visited ++ [(ah, handle)]) rest walk₁.toSweep :=
          stands'
        have trails₁ : Sweep.Trails (expiredBy now) (visited ++ [(ah, handle)]) walk₁.toSweep :=
          Sweep.Trails.append (w := walk₁.toSweep) trails expired
        refine wp_seq (expireHandle_follows env w follows live expired timed) ?_
        intro _ s₁ follows₁
        have handlers : s₁.ackHandlers = walk.list.erase ah := follows₁.list
        refine wp_known rfl ?_
        rw [wp_ite]
        constructor
        · intro empty
          rw [handlers, cells] at empty
          simp at empty
        · intro _
          have follows₂ : Follows calls walk₁ s₁ := ⟨follows₁.list, follows₁.calls⟩
          have timed₁ : Timed s₁ := timed.free (handlers.trans (by rw [follows.list]))
          refine wp_post (ih stands₁ trails₁ follows₂ timed₁) ?_
          rintro _ s' ⟨r, loops, follows'⟩
          exact ⟨r, .again round loops, follows'⟩
      · intro waits
        have waits : handle.expired now = false := by simpa using waits
        have round := ackTimeoutRound_keeps stands.el stands.found waits
        let walk₁ : AckSweep := { walk with toSweep := walk.toSweep.advance ah }
        have stands₁ : Sweep.At (expiredBy now) (visited ++ [(ah, handle)]) rest walk₁.toSweep :=
          stands.advance waits
        have trails₁ : Sweep.Trails (expiredBy now) (visited ++ [(ah, handle)]) walk₁.toSweep :=
          Sweep.trails_advance visited walk.toSweep waits
        have follows₁ : Follows calls walk₁ s := ⟨follows.list, follows.calls⟩
        refine wp_post (ih stands₁ trails₁ follows₁ timed) ?_
        rintro _ s' ⟨r, loops, follows'⟩
        exact ⟨r, .again round loops, follows'⟩

/-- In a tick that finds its first handle waiting or alone, the machine does what the walk does. -/
theorem jingleAckTimeoutChecker_follows (timed : Timed s)
    (safe : headExpired s.ackHandlers s.clock = false)
    : (jingleAckTimeoutChecker env w).wp
        (fun _ s' => ∃ r, Loops (ackTimeoutRound s.clock) (.start s.ackHandlers) (.ok r)
          ∧ Follows s.fired r s')
        (fun _ _ => True) s := by
  have follows : Follows s.fired (.start s.ackHandlers) s := ⟨rfl, (List.append_nil _).symm⟩
  have stands := Sweep.at_start (expiredBy s.clock) s.ackHandlers
  refine wp_known rfl ?_
  unfold headExpired headMatches at safe
  generalize s.ackHandlers.cells = cells at stands safe
  cases cells with
  | nil => exact ⟨_, (ackTimeoutRound_sweeps s.clock).ends _ stands.el, follows⟩
  | cons cell rest =>
      obtain ⟨ah, handle⟩ := cell
      have live := stands.found
      refine wp_known (readAck_done live) ?_
      rw [wp_ite]
      constructor
      · intro expired
        cases rest with
        | cons next more => cases safe.symm.trans expired
        | nil =>
            have empty : (s.ackHandlers.erase ah).cells = [] := stands.cells_unlink
            refine wp_seq (expireHandle_follows env w follows live expired timed) ?_
            intro _ s₁ follows₁
            have handlers : s₁.ackHandlers = s.ackHandlers.erase ah := follows₁.list
            refine wp_known rfl ?_
            rw [handlers, empty]
            refine ⟨_, .leave ?_, follows₁⟩
            rw [ackTimeoutRound_expires stands.el stands.found expired]
            exact if_pos (by rw [List.isEmpty_iff]; exact empty)
      · intro waits
        have waits : handle.expired s.clock = false := by simpa using waits
        have round := ackTimeoutRound_keeps (w := .start s.ackHandlers) stands.el stands.found waits
        let walk₁ : AckSweep :=
          { AckSweep.start s.ackHandlers with
            toSweep := (Sweep.start s.ackHandlers).advance ah }
        have stands₁ : Sweep.At (expiredBy s.clock) ([] ++ [(ah, handle)]) rest walk₁.toSweep :=
          stands.advance waits
        have trails₁ : Sweep.Trails (expiredBy s.clock) ([] ++ [(ah, handle)]) walk₁.toSweep :=
          Sweep.trails_advance [] (Sweep.start s.ackHandlers) waits
        have follows₁ : Follows s.fired walk₁ s := ⟨follows.list, follows.calls⟩
        refine wp_post (timeoutLoop_follows env w rest stands₁ trails₁ follows₁ timed) ?_
        rintro _ s' ⟨r, loops, follows'⟩
        exact ⟨r, .again round loops, follows'⟩

/-- In a tick that finds its first handle expired and followed by others, the walk dangles and the
machine stops, if freed memory cannot be read.
-/
theorem jingleAckTimeoutChecker_stops (timed : Timed s) (traps : w.freedLink = .traps)
    (head : headExpired s.ackHandlers s.clock = true)
    : (jingleAckTimeoutChecker env w).wp (fun _ _ => False) (fun _ _ => True) s := by
  have follows : Follows s.fired (.start s.ackHandlers) s := ⟨rfl, (List.append_nil _).symm⟩
  have stands := Sweep.at_start (expiredBy s.clock) s.ackHandlers
  refine wp_known rfl ?_
  unfold headExpired headMatches at head
  split at head
  · rename_i cell next more cells
    obtain ⟨ah, handle⟩ := cell
    rw [cells] at stands ⊢
    have live := stands.found
    refine wp_known (readAck_done live) ?_
    rw [if_pos head]
    refine wp_seq (expireHandle_follows env w follows live head timed) ?_
    intro _ s₁ follows₁
    have left : s₁.ackHandlers.cells = next :: more := by
      rw [follows₁.list]
      exact stands.cells_unlink
    have others : s₁.ackHandlers.cells.isEmpty = false := by
      rw [left]
      rfl
    refine wp_known rfl ?_
    rw [others]
    simp [readFreedLink, traps]
  · cases head

end Machine

end McabberJingle
