import McabberJingle.Program.Sweeps
import McabberJingle.Jingle.Dispatch

/-! jingle.c: the walk of the timeout checker over `ack_handlers`, pointer by pointer. Callbacks are
recorded only; those that a timeout can reach delete a session and leave the list alone.
-/

namespace McabberJingle

open Program

/-- `el` and `prev` with the list they walk over, and the callbacks called so far. -/
structure AckSweep extends Sweep JingleAckHandle where
  calls : List (AckPtr × JingleAckType)

namespace AckSweep

def start (ackHandlers : Pool JingleAckHandle) : AckSweep where
  toSweep := .start ackHandlers
  calls := []

/-- Call the callback if there is one, then `jingle_ack_handler_free`. -/
def expire (w : AckSweep) (el : AckPtr) (ah : JingleAckHandle) : AckSweep where
  toSweep := w.toSweep.unlink el ah
  calls := if ah.callback.isSome then w.calls ++ [(el, .timeout)] else w.calls

/-- `el = prev; prev = el; el = el->next`. -/
def goBack (w : AckSweep) : Round AckSweep (Except Fault AckSweep) :=
  match w.prev.bind w.list.link? with
  | none => .leave (.error (.useAfterFree .listNode))
  | some next => .again { w with el := next }

end AckSweep

/-- One round of the loop of `jingle_ack_timeout_checker`. -/
def ackTimeoutRound (now : Nat) (w : AckSweep) : Round AckSweep (Except Fault AckSweep) :=
  match w.el with
  | none => .leave (.ok w)
  | some el =>
      match w.list.get? el with
      | none => .leave (.error (.useAfterFree .listNode))
      | some ah =>
          if ah.expired now then
            if (w.expire el ah).list.cells.isEmpty then
              .leave (.ok (w.expire el ah))
            else
              (w.expire el ah).goBack
          else
            .again { w with toSweep := w.toSweep.advance el }

-----------------------------------------------------------------------------------------
-- The walk as a sweep
-----------------------------------------------------------------------------------------

/-- The test of the loop. -/
abbrev expiredBy (now : Nat) : JingleAckHandle → Bool := fun ah => ah.expired now

variable {now : Nat} {w : AckSweep} {el : AckPtr} {ah : JingleAckHandle}

theorem ackTimeoutRound_keeps (here : w.el = some el) (there : w.list.get? el = some ah)
    (waits : ah.expired now = false)
    : ackTimeoutRound now w = .again { w with toSweep := w.toSweep.advance el } := by
  simp [ackTimeoutRound, here, there, waits]

theorem ackTimeoutRound_expires (here : w.el = some el) (there : w.list.get? el = some ah)
    (expired : ah.expired now = true)
    : ackTimeoutRound now w
      = if (w.list.erase el).cells.isEmpty then .leave (.ok (w.expire el ah))
        else (w.expire el ah).goBack := by
  simp [ackTimeoutRound, here, there, expired, AckSweep.expire, Sweep.unlink]

/-- Behind an expired handle the walk goes on from the trailing one, which is still listed. -/
theorem ackTimeoutRound_goesBack {before : AckPtr} {kept : JingleAckHandle}
    (here : w.el = some el) (there : w.list.get? el = some ah) (expired : ah.expired now = true)
    (prev : w.prev = some before) (left : (w.list.erase el).get? before = some kept)
    : ackTimeoutRound now w
      = .again { w.expire el ah with el := (w.list.erase el).after before } := by
  rw [ackTimeoutRound_expires here there expired, Pool.isEmpty_of_found left]
  simp [AckSweep.goBack, AckSweep.expire, Sweep.unlink, prev, Pool.link?, left]

theorem ackTimeoutRound_sweeps (now : Nat)
    : Sweeps (expiredBy now) (fun _ => True) AckSweep.toSweep (ackTimeoutRound now) where
  ends w ended := .leave (by simp [ackTimeoutRound, ended])
  keeps w el ah here there waits :=
    ⟨_, fun _ rest => .again (ackTimeoutRound_keeps here there waits) rest, rfl⟩
  clears w el ah here there expired _ empty := by
    refine ⟨w.expire el ah, .leave ?_, rfl, rfl⟩
    rw [ackTimeoutRound_expires here there expired, empty]
    rfl
  goesBack w el ah before kept here there expired _ prev left _ :=
    ⟨_, fun _ rest => .again (ackTimeoutRound_goesBack here there expired prev left) rest, rfl⟩
  dangles w el ah here there expired others prev := by
    refine ⟨.useAfterFree .listNode, .leave ?_⟩
    have more : (w.list.erase el).cells.isEmpty = false := by
      simpa using others
    rw [ackTimeoutRound_expires here there expired, more]
    simp [AckSweep.goBack, AckSweep.expire, Sweep.unlink, prev, Pool.link?]

/-- The callbacks of the handles that were freed. -/
def timeoutCalls (removed : List (AckPtr × JingleAckHandle)) : List (AckPtr × JingleAckType) :=
  (removed.filter (fun cell => cell.2.callback.isSome)).map (fun cell => (cell.1, .timeout))

/-- Every handle that is freed has its callback called, and no other. -/
theorem ackTimeoutRound_calls {r : AckSweep}
    (loops : Loops (ackTimeoutRound now) w (.ok r)) (begins : w.calls = timeoutCalls w.removed)
    : r.calls = timeoutCalls r.removed := by
  have expires {w : AckSweep} (el : AckPtr) (ah : JingleAckHandle)
      (called : w.calls = timeoutCalls w.removed)
      : (w.expire el ah).calls = timeoutCalls (w.expire el ah).removed := by
    cases callback : ah.callback <;>
      simp [AckSweep.expire, Sweep.unlink, timeoutCalls, callback, called, List.filter_append]
  refine Loops.invariant (fun w => w.calls = timeoutCalls w.removed) loops begins ?_
  intro w called
  unfold ackTimeoutRound
  cases w.el with
  | none => exact called
  | some el =>
      dsimp only
      cases w.list.get? el with
      | none => trivial
      | some ah =>
          dsimp only
          by_cases expired : ah.expired now = true
          · rw [if_pos expired]
            by_cases empty : (w.expire el ah).list.cells.isEmpty = true
            · rw [if_pos empty]
              exact expires el ah called
            · rw [if_neg empty, AckSweep.goBack]
              cases (w.expire el ah).prev.bind (w.expire el ah).list.link? with
              | none => trivial
              | some next => exact expires el ah called
          · rw [if_neg expired]
            exact called

end McabberJingle
