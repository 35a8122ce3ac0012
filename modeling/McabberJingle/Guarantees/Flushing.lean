import McabberJingle.FileTransfer.Flush
import McabberJingle.System.Machine

/-! `/jft flush` deletes the transfers that are over in one walk. That goes well unless the first
transfer of the list is over and others follow it: the walk then goes back to the entry it freed.
-/

namespace McabberJingle.FileTransfer

open Program

/-- The walk ends without touching a freed entry, has freed the transfers that are over once each,
leaves the others in their order, and reports how many it removed.
-/
def Flushes (infoList : Pool JingleFT) : Prop :=
  ∃ f, Loops flushRound (.start infoList) (.ok f)
    ∧ f.list.cells = infoList.cells.filter (fun cell => !cell.2.state.isOver)
    ∧ f.removed = infoList.cells.filter (fun cell => cell.2.state.isOver)
    ∧ f.count = (infoList.cells.filter (fun cell => cell.2.state.isOver)).length
    ∧ f.report = flushReport (infoList.cells.filter (fun cell => cell.2.state.isOver)).length

/-- The first transfer is over and is not the only one. -/
abbrev headOver (infoList : Pool JingleFT) : Bool :=
  headMatches (fun jft : JingleFT => jft.state.isOver) infoList

/-- The list is swept unless its first transfer is over and followed by others, or the checksum of a
transfer that is over was freed before.
-/
theorem finished_transfers_flushed (infoList : Pool JingleFT)
    : Flushes infoList ↔ headOver infoList = false
        ∧ ∀ cell ∈ infoList.cells, cell.2.state.isOver = true → SumKept cell.2 := by
  have begins : Tallied (.start infoList) := ⟨rfl, fun _ member => by cases member⟩
  constructor
  · rintro ⟨f, loops, _, removed, _⟩
    constructor
    · cases head : headOver infoList with
      | false => rfl
      | true =>
          obtain ⟨error, fails⟩ := flushRound_sweeps.fails (s := .start infoList) rfl head
          cases loops.unique fails
    · intro cell member finished
      refine (flushRound_tallied loops begins).sums cell ?_
      rw [removed]
      exact List.mem_filter.mpr ⟨member, finished⟩
  · rintro ⟨safe, sums⟩
    obtain ⟨f, loops, swept⟩ := flushRound_sweeps.swept (s := .start infoList) rfl sums safe
    have count := (flushRound_tallied loops begins).count
    have number := count.trans (congrArg List.length swept.removed)
    exact ⟨f, loops, swept.kept, swept.removed, number, congrArg flushReport number⟩

/-- What the user's command does is what the walk does. -/
theorem jftFlush_eq (s : State)
    : ∃ result, Loops flushRound (.start s.infoList) result
        ∧ jftFlush s = match result with
          | .ok f => .done () { s with infoList := f.list }
          | .error fault => .fault fault s := by
  obtain ⟨result, rounds, loops⟩ := flush_loops s.infoList
  refine ⟨result, loops, ?_⟩
  rw [jftFlush, Prog.bind_get, rounds]
  cases result <;> rfl

/-- When the walk goes well the command leaves the transfers that are not over, and nothing else of
the state.
-/
theorem jftFlush_flushes {s : State} (flushes : Flushes s.infoList)
    : ∃ infoList, jftFlush s = .done () { s with infoList }
        ∧ infoList.cells = s.infoList.cells.filter (fun cell => !cell.2.state.isOver) := by
  obtain ⟨f, swept, left, _⟩ := flushes
  obtain ⟨result, loops, ends⟩ := jftFlush_eq s
  cases loops.unique swept
  exact ⟨f.list, ends, left⟩

/-- A transfer that we offer, in some state. -/
def outgoingTransfer (state : JingleFTState) : JingleFT where
  date := 0
  hash := none
  name := "notes"
  size := 4
  transmit := 0
  outfile := none
  type := .offer
  dir := .outgoing
  state := state
  desc := none
  md5 := .null

/-- A file that could not be sent, and one that the peer has not accepted yet. -/
def errorAndPending : Pool JingleFT :=
  ((Pool.empty 1).alloc (outgoingTransfer .error)).alloc (outgoingTransfer .pending)

theorem flushed_head_dangles
    : Loops flushRound (.start errorAndPending) (.error (.useAfterFree .listNode))
      ∧ ¬Flushes errorAndPending := by
  have fails : Loops flushRound (.start errorAndPending) (.error (.useAfterFree .listNode)) :=
    .again rfl (.leave rfl)
  refine ⟨fails, ?_⟩
  rintro ⟨f, loops, _⟩
  cases loops.unique fails

end McabberJingle.FileTransfer
