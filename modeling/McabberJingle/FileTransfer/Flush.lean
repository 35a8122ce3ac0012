import McabberJingle.Program.Sweeps
import McabberJingle.FileTransfer.Offer

/-! filetransfer.c: `/jft flush`, pointer by pointer. An entry of `info_list` and its transfer are
one object here, as they are made together; the entry itself is never freed.
-/

namespace McabberJingle

open Program

/-- The states in which a transfer is over. -/
def JingleFTState.isOver : JingleFTState → Bool
  | .error => true
  | .reject => true
  | .ending => true
  | _ => false

namespace FileTransfer

/-- `_free`: only the checksum of an incoming transfer is freed with it. -/
def free (jft : JingleFT) : Except Fault Unit :=
  match jft.dir, jft.md5 with
  | .incoming, .freed => .error (.useAfterFree .checksum)
  | _, _ => .ok ()

/-- `el` and `el2`, which is `prev` here, with the list they walk over, and `count`. -/
structure Flush extends Sweep JingleFT where
  count : Nat

def Flush.start (infoList : Pool JingleFT) : Flush where
  toSweep := .start infoList
  count := 0

/-- `_free` and `g_slist_delete_link`. -/
def Flush.delete (f : Flush) (el : FtPtr) (jft : JingleFT) : Flush where
  toSweep := f.toSweep.unlink el jft
  count := f.count + 1

/-- One round of the loop of `_jft_flush`. -/
def flushRound (f : Flush) : Round Flush (Except Fault Flush) :=
  match f.el with
  | none => .leave (.ok f)
  | some el =>
      match f.list.get? el with
      | none => .leave (.error (.useAfterFree .listNode))
      | some jft =>
          if jft.state.isOver then
            match free jft with
            | .error fault => .leave (.error fault)
            | .ok () =>
                if (f.delete el jft).list.cells.isEmpty then
                  .leave (.ok (f.delete el jft))
                else
                  .again { f.delete el jft with el := f.prev }
          else
            .again { f with toSweep := f.toSweep.advance el }

/-- The walk stops at a freed entry or at a freed checksum only. -/
theorem flushRound_fails {f : Flush} {fault : Fault} (fails : flushRound f = .leave (.error fault))
    : fault = .useAfterFree .listNode ∨ fault = .useAfterFree .checksum := by
  unfold flushRound free at fails
  grind

/-- The line about a number of files. -/
def flushReport (count : Nat) : String :=
  "JFT: " ++ toString count ++ " file" ++ (if count > 1 then "s" else "") ++ " removed"

/-- What `_jft_flush` prints in the end. -/
def Flush.report (f : Flush) : String := flushReport f.count

-----------------------------------------------------------------------------------------
-- The walk as a sweep
-----------------------------------------------------------------------------------------

/-- The checksum that `_free` frees was not freed before. -/
def SumKept (jft : JingleFT) : Prop := jft.dir = .incoming → jft.md5 ≠ .freed

theorem free_ok_iff {jft : JingleFT} : free jft = .ok () ↔ SumKept jft := by
  unfold free SumKept
  split
  · rename_i incoming freed
    simp [incoming, freed]
  · rename_i other
    exact iff_of_true rfl (fun incoming freed => other incoming freed)

section Rounds

variable {f : Flush} {el : FtPtr} {jft : JingleFT}

theorem flushRound_keeps (here : f.el = some el) (there : f.list.get? el = some jft)
    (goesOn : jft.state.isOver = false)
    : flushRound f = .again { f with toSweep := f.toSweep.advance el } := by
  simp [flushRound, here, there, goesOn]

theorem flushRound_deletes (here : f.el = some el) (there : f.list.get? el = some jft)
    (finished : jft.state.isOver = true) (kept : SumKept jft)
    : flushRound f
      = if (f.list.erase el).cells.isEmpty then .leave (.ok (f.delete el jft))
        else .again { f.delete el jft with el := f.prev } := by
  simp [flushRound, here, there, finished, free_ok_iff.mpr kept, Flush.delete, Sweep.unlink]

theorem flushRound_sum_freed (here : f.el = some el) (there : f.list.get? el = some jft)
    (finished : jft.state.isOver = true) (gone : ¬SumKept jft)
    : flushRound f = .leave (.error (.useAfterFree .checksum)) := by
  have fails : free jft = .error (.useAfterFree .checksum) := by
    simp only [SumKept, Classical.not_imp, not_not] at gone
    simp [free, gone.1, gone.2]
  simp [flushRound, here, there, finished, fails]

theorem flushRound_dangles (here : f.el = some el) (gone : f.list.get? el = none)
    : flushRound f = .leave (.error (.useAfterFree .listNode)) := by
  simp [flushRound, here, gone]

end Rounds

/-- Behind a deleted entry the trailing one is tested again before the walk goes on from it. -/
theorem flushRound_sweeps
    : Sweeps (fun jft : JingleFT => jft.state.isOver) SumKept Flush.toSweep flushRound where
  ends f finished := .leave (by simp [flushRound, finished])
  keeps f el jft here there goesOn :=
    ⟨_, fun _ rest => .again (flushRound_keeps here there goesOn) rest, rfl⟩
  clears f el jft here there finished kept empty := by
    refine ⟨f.delete el jft, .leave ?_, rfl, rfl⟩
    rw [flushRound_deletes here there finished kept, empty]
    rfl
  goesBack f el jft before trailing here there finished kept prev left goesOn := by
    have back : flushRound f = .again { f.delete el jft with el := f.prev } := by
      rw [flushRound_deletes here there finished kept, Pool.isEmpty_of_found left]
      rfl
    have again := flushRound_keeps (f := { f.delete el jft with el := f.prev }) prev left goesOn
    refine ⟨_, fun _ rest => .again back (.again again rest), ?_⟩
    simp [Sweep.advance, Sweep.unlink, Flush.delete, prev]
  dangles f el jft here there finished others prev := by
    have more : (f.list.erase el).cells.isEmpty = false := by
      simpa using others
    by_cases kept : SumKept jft
    · have back : flushRound f = .again { f.delete el jft with el := f.prev } := by
        rw [flushRound_deletes here there finished kept, more]
        rfl
      have freed := flushRound_dangles (f := { f.delete el jft with el := f.prev }) prev
        (Pool.get?_erase_self f.list el)
      exact ⟨_, .again back (.leave freed)⟩
    · exact ⟨_, .leave (flushRound_sum_freed here there finished kept)⟩

-----------------------------------------------------------------------------------------
-- The walk comes to an end
-----------------------------------------------------------------------------------------

/-- The body of `_jft_flush` branches on the entry, on its state, on its checksum and on what is
left of the list; it goes on in two of these cases.
-/
theorem flushRound_again {f f' : Flush} (placed : f.toSweep.Placed)
    (goesOn : flushRound f = .again f')
    : f'.toSweep.Placed ∧ f'.toSweep.steps < f.toSweep.steps := by
  cases here : f.el with
  | none => simp [flushRound, here] at goesOn
  | some el =>
      cases there : f.list.get? el with
      | none =>
          rw [flushRound_dangles here there] at goesOn
          cases goesOn
      | some jft =>
          cases finished : jft.state.isOver with
          | false =>
              rw [flushRound_keeps here there finished] at goesOn
              cases goesOn
              exact ⟨Sweep.advance_placed there, Sweep.steps_advance here there⟩
          | true =>
              by_cases kept : SumKept jft
              · rw [flushRound_deletes here there finished kept] at goesOn
                by_cases empty : (f.list.erase el).cells.isEmpty = true
                · rw [if_pos empty] at goesOn
                  cases goesOn
                · rw [if_neg empty] at goesOn
                  cases goesOn
                  exact ⟨Sweep.back_placed, Sweep.steps_back placed here there⟩
              · rw [flushRound_sum_freed here there finished kept] at goesOn
                cases goesOn

/-- Two rounds for an entry and one to stop are enough. -/
theorem flush_loops (infoList : Pool JingleFT)
    : ∃ result, loopFor flushRound (2 * infoList.cells.length + 1) (.start infoList) = some result
        ∧ Loops flushRound (.start infoList) result := by
  have enough : (loopFor flushRound (2 * infoList.cells.length + 1) (.start infoList)).isSome
      = true := by
    refine loopFor_isSome (fun f => f.toSweep.steps) (fun f => f.toSweep.Placed)
      (Sweep.placed_start infoList) (fun f f' placed goesOn => flushRound_again placed goesOn) ?_
    have all : (Flush.start infoList).toSweep.steps = 2 * infoList.cells.length :=
      Sweep.steps_start infoList
    omega
  obtain ⟨result, rounds⟩ := Option.isSome_iff_exists.mp enough
  exact ⟨result, rounds, loops_of_loopFor rounds⟩

-----------------------------------------------------------------------------------------
-- What the walk counts
-----------------------------------------------------------------------------------------

/-- What was deleted was counted, and could be freed. -/
structure Tallied (f : Flush) : Prop where
  count : f.count = f.removed.length
  sums : ∀ cell ∈ f.removed, SumKept cell.2

theorem Tallied.delete {f : Flush} (tallied : Tallied f) (el : FtPtr) {jft : JingleFT}
    (kept : SumKept jft)
    : Tallied (f.delete el jft) := by
  refine ⟨?_, fun cell member => ?_⟩
  · simp [Flush.delete, Sweep.unlink, tallied.count]
  · rcases List.mem_append.mp member with before | last
    · exact tallied.sums cell before
    · rw [List.mem_singleton.mp last]
      exact kept

theorem flushRound_tallied {f r : Flush} (loops : Loops flushRound f (.ok r))
    (begins : Tallied f)
    : Tallied r := by
  refine Loops.invariant Tallied loops begins ?_
  intro f tallied
  unfold flushRound
  cases f.el with
  | none => exact tallied
  | some el =>
      dsimp only
      cases f.list.get? el with
      | none => trivial
      | some jft =>
          dsimp only
          by_cases finished : jft.state.isOver = true
          · rw [if_pos finished]
            cases freed : free jft with
            | error fault => trivial
            | ok _ =>
                have deleted := tallied.delete el (free_ok_iff.mp freed)
                dsimp only
                by_cases empty : (f.delete el jft).list.cells.isEmpty = true
                · rw [if_pos empty]
                  exact deleted
                · rw [if_neg empty]
                  exact ⟨deleted.count, deleted.sums⟩
          · rw [if_neg finished]
            exact ⟨tallied.count, tallied.sums⟩

end FileTransfer

end McabberJingle
