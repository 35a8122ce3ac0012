import McabberJingle.Guarantees.Replies
import McabberJingle.Transfer.Receiver
import McabberJingle.Transfer.Turns

/-! When a transfer that is reported as verified was written as it was summed. The checksum
takes the bytes before the channel of the file does, and the channel may hold them back; a write
that fails is only left out of the count.
-/

namespace McabberJingle

open Program Program.Prog

variable {env : Env} {s : State} {d : FtPtr} {ft : JingleFT}

-----------------------------------------------------------------------------------------
-- Calls on one transfer
-----------------------------------------------------------------------------------------

/-- A call of the module for an incoming transfer: bytes arrive, or the payload of a
session-info.
-/
inductive TransferCall where
  | data (w : World) (bytes : List UInt8)
  | info (child : LmMessageNode)

/-- `handle_data` or `handle`. -/
def TransferCall.run (d : FtPtr) : TransferCall → Run Unit
  | .data w bytes => do
      let _ ← FileTransfer.handleData w d bytes
  | .info child => do
      let _ ← FileTransfer.handle .sessionInfo d child

/-- All calls in their order, and then `stop`. -/
def runCalls (env : Env) (w : World) (d : FtPtr) : List TransferCall → Run Unit
  | [] => FileTransfer.stop env w d
  | call :: rest => do
      call.run d
      runCalls env w d rest

/-- What one call does to the transfer and on disk. -/
def TransferCall.effect (d : FtPtr) (ft : JingleFT) : TransferCall → JingleFT × List DiskOp
  | .data w bytes => ((received w d bytes ft).ft, (received w d bytes ft).ops)
  | .info child => (if takesHash child then { ft with hash := child.value } else ft, [])

/-- What all calls do. -/
def callsEffect (d : FtPtr) (ft : JingleFT) : List TransferCall → JingleFT × List DiskOp
  | [] => (ft, [])
  | call :: rest =>
      ((callsEffect d (call.effect d ft).1 rest).1,
        (call.effect d ft).2 ++ (callsEffect d (call.effect d ft).1 rest).2)

/-- The bytes an operation adds to the file. -/
def DiskOp.bytes : DiskOp → List UInt8
  | .created _ _ => []
  | .wrote _ bytes => bytes

/-- A transfer from the peer that can still be summed. -/
structure Summable (ft : JingleFT) : Prop where
  incoming : ft.dir = .incoming
  alive : ft.md5 ≠ .freed

theorem TransferCall.effect_summable (summable : Summable ft) (call : TransferCall)
    : Summable (call.effect d ft).1 := by
  cases call with
  | data w bytes =>
      refine ⟨(received_dir w d bytes ft).trans summable.incoming, ?_⟩
      rw [TransferCall.effect, received_md5]
      simp
  | info child =>
      unfold TransferCall.effect
      dsimp only
      split
      · exact ⟨summable.incoming, summable.alive⟩
      · exact summable

theorem TransferCall.run_eq (there : s.infoList.get? d = some ft) (summable : Summable ft)
    (call : TransferCall)
    : call.run d s = .done () (s.storing d (call.effect d ft).1 (call.effect d ft).2) := by
  cases call with
  | data w bytes =>
      exact bind_done (handleData_done w there summable.incoming summable.alive bytes)
  | info child =>
      have runs : (TransferCall.info child).run d s = (do
          let _ ← FileTransfer.handle .sessionInfo d child : Run Unit) s := rfl
      have answers := handle_sessionInfo child (fun _ => Pool.live_of_get? there)
      rw [runs]
      by_cases takes : takesHash child = true
      · have effect : (TransferCall.info child).effect d ft
            = ({ ft with hash := child.value }, []) := by
          rw [TransferCall.effect, if_pos takes]
        rw [if_pos takes] at answers
        rw [bind_done answers, effect]
        exact modifyFt_done there (fun jft => { jft with hash := child.value })
      · have effect : (TransferCall.info child).effect d ft = (ft, []) := by
          rw [TransferCall.effect, if_neg takes]
        rw [if_neg takes] at answers
        rw [bind_done answers, effect, State.storing_same there]
        rfl

/-- By induction on the calls: the run is their effect, and `stop` at its end. -/
theorem runCalls_eq (env : Env) (w : World) (there : s.infoList.get? d = some ft)
    (summable : Summable ft) (calls : List TransferCall)
    : runCalls env w d calls s
      = .done () ((s.storing d (callsEffect d ft calls).1 (callsEffect d ft calls).2).stopFt env w d
          (callsEffect d ft calls).1) := by
  induction calls generalizing s ft with
  | nil =>
      rw [runCalls, stop_eq env w there summable.alive]
      simp only [callsEffect, State.storing_same there]
  | cons call rest ih =>
      rw [runCalls, bind_done (call.run_eq there summable),
        ih (State.storing_get? there _ _) (call.effect_summable summable),
        State.storing_storing]
      rfl

-----------------------------------------------------------------------------------------
-- The accumulators
-----------------------------------------------------------------------------------------

/-- The bytes that arrive, call by call. -/
def arrived : List TransferCall → List (List UInt8)
  | [] => []
  | .data _ bytes :: rest => bytes :: arrived rest
  | .info _ :: rest => arrived rest

/-- The bytes of one call that the channel takes, `opened` telling whether the file is open. -/
def taking (opened : Bool) (w : World) (bytes : List UInt8) : List UInt8 :=
  if opened || (w.write.opened && w.write.encoded) then bytes.take w.write.written else []

/-- The bytes that the channel takes, call by call. -/
def taken : Bool → List TransferCall → List (List UInt8)
  | _, [] => []
  | opened, .data w bytes :: rest =>
      taking opened w bytes :: taken (opened || w.write.opened) rest
  | opened, .info _ :: rest => taken opened rest

/-- What waits in the channel after one call: what a flush left, if there was one. -/
def holding (opened : Bool) (w : World) (waiting bytes : List UInt8) : List UInt8 :=
  if opened || (w.write.opened && w.write.encoded) then
    let waiting := waiting ++ bytes.take w.write.written
    waiting.drop (FileTransfer.reaching w waiting)
  else
    waiting

/-- What waits in the channel after all calls. -/
def held : Bool → List UInt8 → List TransferCall → List UInt8
  | _, waiting, [] => waiting
  | opened, waiting, .data w bytes :: rest =>
      held (opened || w.write.opened) (holding opened w waiting bytes) rest
  | opened, waiting, .info _ :: rest => held opened waiting rest

/-- How many bytes of one call are counted: all of them, if all were taken and flushed. -/
def counting (opened : Bool) (w : World) (bytes : List UInt8) : Nat :=
  if (opened || (w.write.opened && w.write.encoded)) && w.write.status && w.write.flushed
      && w.write.written == bytes.length then
    bytes.length
  else
    0

/-- How many bytes are counted. -/
def counted : Bool → List TransferCall → Nat
  | _, [] => 0
  | opened, .data w bytes :: rest =>
      counting opened w bytes + counted (opened || w.write.opened) rest
  | opened, .info _ :: rest => counted opened rest

/-- The hash that was announced last, starting from that of the offer. -/
def announced : Option String → List TransferCall → Option String
  | hash, [] => hash
  | hash, .data _ _ :: rest => announced hash rest
  | hash, .info child :: rest => announced (if takesHash child then child.value else hash) rest

theorem receivedWrite_accumulates (w : World) (d : FtPtr) (bytes : List UInt8) (ft : JingleFT)
    : (receivedWrite w d bytes ft).ops.flatMap DiskOp.bytes
        ++ (receivedWrite w d bytes ft).ft.waiting
        = ft.waiting ++ bytes.take w.write.written := by
  simp [receivedWrite, DiskOp.bytes, JingleFT.waiting]

/-- A file that is not open holds nothing back. -/
theorem waiting_of_closed (closed : ft.outfile = none) : ft.waiting = [] := by
  rw [JingleFT.waiting, closed]

/-- What one packet adds to the file, to what waits for it, and to the count. -/
theorem received_accumulates (w : World) (d : FtPtr) (bytes : List UInt8) (ft : JingleFT)
    : (received w d bytes ft).ops.flatMap DiskOp.bytes ++ (received w d bytes ft).ft.waiting
        = ft.waiting ++ taking ft.outfile.isSome w bytes
      ∧ (received w d bytes ft).ft.waiting = holding ft.outfile.isSome w ft.waiting bytes
      ∧ (received w d bytes ft).ft.transmit
        = ft.transmit + counting ft.outfile.isSome w bytes := by
  cases outfile : ft.outfile with
  | some channel =>
      refine ⟨?_, ?_, ?_⟩
      · have wrote := receivedWrite_accumulates w d bytes
          { ft with md5 := .running (ft.md5.seen ++ bytes) }
        simpa [received, outfile, taking, JingleFT.waiting] using wrote
      · simp [received, receivedWrite, outfile, holding, JingleFT.waiting]
      · simp only [received, receivedWrite, outfile, counting, Option.isSome_some, if_true]
        grind
  | none =>
      cases opened : w.write.opened with
      | false => simp [received, outfile, opened, taking, holding, counting, JingleFT.waiting]
      | true =>
      cases encoded : w.write.encoded with
      | false =>
          simp [received, outfile, opened, encoded, taking, holding, counting, JingleFT.waiting,
            DiskOp.bytes]
      | true =>
          refine ⟨?_, ?_, ?_⟩
          · have wrote := receivedWrite_accumulates w d bytes
              { ft with
                md5 := .running (ft.md5.seen ++ bytes)
                outfile := some (.writing [])
                state := .starting }
            simpa [received, outfile, opened, encoded, taking, DiskOp.bytes, JingleFT.waiting]
              using wrote
          · simp [received, receivedWrite, outfile, opened, encoded, holding, JingleFT.waiting]
          · simp only [received, receivedWrite, outfile, opened, encoded, counting,
              Option.isSome_none, if_true]
            grind

theorem received_hash (w : World) (d : FtPtr) (bytes : List UInt8) (ft : JingleFT)
    : (received w d bytes ft).ft.hash = ft.hash
      ∧ (received w d bytes ft).ft.size = ft.size := by
  unfold received receivedWrite
  grind

/-- What the calls do to the transfer, in terms of their inputs. -/
structure Accumulated (env : Env) (d : FtPtr) (ft : JingleFT) (calls : List TransferCall)
    (r : JingleFT × List DiskOp)
    : Prop where
  bytes : r.2.flatMap DiskOp.bytes ++ r.1.waiting
    = ft.waiting ++ (taken ft.outfile.isSome calls).flatten
  waiting : r.1.waiting = held ft.outfile.isSome ft.waiting calls
  transmit : r.1.transmit = ft.transmit + counted ft.outfile.isSome calls
  hash : r.1.hash = announced ft.hash calls
  size : r.1.size = ft.size
  md5 : r.1.md5 = if arrived calls = [] then ft.md5
    else .running (ft.md5.seen ++ (arrived calls).flatten)

/-- A session-info changes the announced hash only. -/
theorem effect_info_keeps {α : Type} (child : LmMessageNode) (field : JingleFT → α)
    (kept : field { ft with hash := child.value } = field ft)
    : field ((TransferCall.info child).effect d ft).1 = field ft := by
  change field (if takesHash child then { ft with hash := child.value } else ft) = field ft
  split
  · exact kept
  · rfl

theorem effect_info_hash (child : LmMessageNode)
    : ((TransferCall.info child).effect d ft).1.hash
      = if takesHash child then child.value else ft.hash := by
  change JingleFT.hash (if takesHash child then { ft with hash := child.value } else ft) = _
  split
  · rfl
  · rfl

/-- By induction on the calls. -/
theorem callsEffect_accumulates (env : Env) (d : FtPtr) (ft : JingleFT)
    (calls : List TransferCall)
    : Accumulated env d ft calls (callsEffect d ft calls) := by
  induction calls generalizing ft with
  | nil => exact ⟨by simp [callsEffect, taken], rfl, rfl, rfl, rfl, rfl⟩
  | cons call rest ih =>
      cases call with
      | data w bytes =>
          have next := ih (received w d bytes ft).ft
          obtain ⟨written, waits, progress⟩ := received_accumulates w d bytes ft
          obtain ⟨hash, size⟩ := received_hash w d bytes ft
          refine ⟨?_, ?_, ?_, next.hash.trans (by rw [hash]; rfl), next.size.trans size, ?_⟩
          · have rest := next.bytes
            rw [received_outfile] at rest
            simp only [callsEffect, TransferCall.effect, List.flatMap_append, taken,
              List.flatten_cons, List.append_assoc, rest]
            rw [← List.append_assoc, written, List.append_assoc]
          · have rest := next.waiting
            rw [received_outfile, waits] at rest
            exact rest
          · simp only [callsEffect, TransferCall.effect, next.transmit, progress,
              received_outfile, counted, Nat.add_assoc]
          · have summed := next.md5
            rw [received_md5] at summed
            simp only [callsEffect, TransferCall.effect, summed, arrived, reduceCtorEq, if_false,
              List.flatten_cons, GChecksum.seen, List.append_assoc]
            split
            · next none => rw [none, List.flatten_nil, List.append_nil]
            · rfl
      | info child =>
          have next := ih ((TransferCall.info child).effect d ft).1
          have same {α : Type} (field : JingleFT → α)
              (kept : field { ft with hash := child.value } = field ft)
              : field ((TransferCall.info child).effect d ft).1 = field ft :=
            effect_info_keeps child field kept
          obtain ⟨bytes, waiting, transmit, hash, size, md5⟩ := next
          rw [same JingleFT.outfile rfl] at bytes waiting transmit
          rw [same JingleFT.waiting rfl] at bytes waiting
          rw [same JingleFT.transmit rfl] at transmit
          rw [effect_info_hash] at hash
          rw [same JingleFT.size rfl] at size
          rw [same JingleFT.md5 rfl] at md5
          exact ⟨bytes, waiting, transmit, hash, size, md5⟩

theorem taking_front (opened : Bool) (w : World) (bytes : List UInt8)
    : taking opened w bytes <+: bytes := by
  unfold taking
  split
  · exact List.take_prefix _ _
  · exact List.nil_prefix

/-- No more is taken than arrives. -/
theorem taken_length_le (opened : Bool) (calls : List TransferCall)
    : (taken opened calls).flatten.length ≤ (arrived calls).flatten.length := by
  induction calls generalizing opened with
  | nil => exact Nat.le_refl _
  | cons call rest ih =>
      cases call with
      | data w bytes =>
          simp only [taken, arrived, List.flatten_cons, List.length_append]
          exact Nat.add_le_add (taking_front opened w bytes).length_le (ih _)
      | info child => exact ih opened

/-- What was taken is what arrived only if it is so for each call: of each call a front part is
taken, so one that falls short cannot be made up for by the others.
-/
theorem taken_flatten_eq_iff (opened : Bool) (calls : List TransferCall)
    : (taken opened calls).flatten = (arrived calls).flatten
      ↔ taken opened calls = arrived calls := by
  refine ⟨fun same => ?_, congrArg List.flatten⟩
  induction calls generalizing opened with
  | nil => rfl
  | cons call rest ih =>
      cases call with
      | data w bytes =>
          simp only [taken, arrived, List.flatten_cons] at same ⊢
          have front := taking_front opened w bytes
          have lengths := congrArg List.length same
          simp only [List.length_append] at lengths
          have shorter := taken_length_le (opened || w.write.opened) rest
          have whole : taking opened w bytes = bytes :=
            front.eq_of_length (by have := front.length_le; omega)
          rw [whole] at same ⊢
          exact congrArg _ (ih _ (List.append_cancel_left same))
      | info child => exact ih opened same

/-- All that arrives is taken, and what waits in the end gets into the file at the shutdown. -/
structure WritesAll (w : World) (d : FtPtr) (calls : List TransferCall) : Prop where
  taken : taken false calls = arrived calls
  flushed : (held false [] calls).length ≤ w.shutdown d

instance (w : World) (d : FtPtr) (calls : List TransferCall) : Decidable (WritesAll w d calls) :=
  decidable_of_iff (McabberJingle.taken false calls = arrived calls
      ∧ (held false [] calls).length ≤ w.shutdown d)
    ⟨fun both => ⟨both.1, both.2⟩, fun all => ⟨all.taken, all.flushed⟩⟩

/-- The bytes that the shutdown of the channel gets into the file. -/
theorem shutdownOps_bytes (w : World) (d : FtPtr) (ft : JingleFT)
    : (shutdownOps w d ft).flatMap DiskOp.bytes = ft.waiting.take (w.shutdown d) := by
  unfold shutdownOps
  cases ft.waiting with
  | nil => simp
  | cons byte rest => simp [DiskOp.bytes]

-----------------------------------------------------------------------------------------
-- What the report says
-----------------------------------------------------------------------------------------

/-- An incoming transfer before its first call, as an offer leaves it. -/
structure Untouched (ft : JingleFT) : Prop where
  incoming : ft.dir = .incoming
  transmit : ft.transmit = 0
  outfile : ft.outfile = none
  md5 : ft.md5 = .null

theorem Untouched.summable (untouched : Untouched ft) : Summable ft := by
  refine ⟨untouched.incoming, ?_⟩
  rw [untouched.md5]
  exact GChecksum.noConfusion

/-- The calls run to their end, and if the transfer is then reported as verified, its
checksum covers the bytes that were written.
-/
def VerifiedMeansWritten (env : Env) (w : World) (s : State) (d : FtPtr)
    (calls : List TransferCall)
    : Prop :=
  ∃ s' ops, runCalls env w d calls s = .done () s' ∧ s'.disk = s.disk ++ ops
    ∧ (s'.stopReports = s.stopReports ++ [(d, .verified)] →
      ∃ jft, s'.infoList.get? d = some jft
        ∧ jft.md5 = .running (ops.flatMap DiskOp.bytes))

/-- As many bytes are counted as were offered, and the announced hash is that of the bytes
that arrived.
-/
structure Passes (env : Env) (ft : JingleFT) (calls : List TransferCall) : Prop where
  fed : arrived calls ≠ []
  enough : ft.size ≤ counted false calls
  hash : ∃ hash, announced ft.hash calls = some hash
    ∧ gAsciiStrncaseeq hash (env.md5 (arrived calls).flatten) 32 = true

/-- The file holds what arrived exactly if everything was taken and flushed in the end. -/
theorem Accumulated.writes_iff {calls : List TransferCall} {r : JingleFT × List DiskOp}
    (accumulated : Accumulated env d ft calls r) (untouched : Untouched ft) (w : World)
    : (r.2 ++ shutdownOps w d r.1).flatMap DiskOp.bytes = (arrived calls).flatten
      ↔ WritesAll w d calls := by
  have idle := waiting_of_closed untouched.outfile
  have bytes := accumulated.bytes
  have waiting := accumulated.waiting
  rw [untouched.outfile, idle] at bytes waiting
  have waiting : r.1.waiting = held false [] calls := waiting
  have all : r.2.flatMap DiskOp.bytes ++ held false [] calls = (taken false calls).flatten := by
    rw [← waiting]
    exact bytes
  rw [List.flatMap_append, shutdownOps_bytes, waiting]
  constructor
  · intro same
    have lengths := congrArg List.length same
    have shorter := taken_length_le false calls
    rw [← all] at shorter
    simp only [List.length_append, List.length_take] at lengths shorter
    have flushed : (held false [] calls).length ≤ w.shutdown d := by omega
    rw [List.take_of_length_le flushed, all] at same
    exact ⟨(taken_flatten_eq_iff false calls).mp same, flushed⟩
  · intro writes
    rw [List.take_of_length_le writes.flushed, all, writes.taken]

theorem Accumulated.summed {calls : List TransferCall} {r : JingleFT × List DiskOp}
    (accumulated : Accumulated env d ft calls r) (untouched : Untouched ft)
    (fed : arrived calls ≠ [])
    : r.1.md5 = .running (arrived calls).flatten := by
  have md5 := accumulated.md5
  rw [if_neg fed, untouched.md5] at md5
  exact md5

theorem Accumulated.verified_iff {calls : List TransferCall} {r : JingleFT × List DiskOp}
    (accumulated : Accumulated env d ft calls r) (untouched : Untouched ft)
    : r.1.report env = .verified ↔ Passes env ft calls := by
  have transmit : r.1.transmit = counted false calls := by
    rw [accumulated.transmit, untouched.transmit, untouched.outfile, Nat.zero_add]
    rfl
  unfold JingleFT.report
  rw [transmit, accumulated.size, accumulated.hash]
  by_cases early : counted false calls < ft.size
  · rw [if_pos early]
    exact ⟨fun same => StopReport.noConfusion same,
      fun passes => absurd passes.enough (Nat.not_le.mpr early)⟩
  rw [if_neg early]
  by_cases empty : arrived calls = []
  · have md5 := accumulated.md5
    rw [if_pos empty, untouched.md5] at md5
    rw [md5]
    refine ⟨fun same => ?_, fun passes => absurd empty passes.fed⟩
    cases announced' : announced ft.hash calls with
    | none =>
        rw [announced'] at same
        cases same
    | some hash =>
        rw [announced'] at same
        cases same
  rw [accumulated.summed untouched empty]
  cases announced' : announced ft.hash calls with
  | none =>
      refine ⟨fun same => StopReport.noConfusion same, fun passes => ?_⟩
      obtain ⟨hash, found, _⟩ := passes.hash
      cases announced'.symm.trans found
  | some hash =>
      dsimp only
      refine ⟨fun same => ?_, fun passes => ?_⟩
      · refine ⟨empty, Nat.not_lt.mp early, hash, announced', ?_⟩
        by_contra differs
        rw [if_neg differs] at same
        cases same
      · obtain ⟨hash', found, equal⟩ := passes.hash
        cases announced'.symm.trans found
        rw [if_pos equal]

/-- What `stop` leaves of the transfer. -/
theorem State.stopFt_get? (there : s.infoList.get? d = some ft) (w : World) (jft : JingleFT)
    (ops : List DiskOp)
    : ((s.storing d jft ops).stopFt env w d jft).infoList.get? d = some jft.shutDown.stopped := by
  simp [State.stopFt, State.storing, there]

/-- What calls and `stop` write. -/
theorem State.stopFt_disk (w : World) (jft : JingleFT) (ops : List DiskOp)
    : ((s.storing d jft ops).stopFt env w d jft).disk
      = s.disk ++ (ops ++ shutdownOps w d jft) := by
  simp [State.stopFt, State.storing]

/-- A transfer that passes was written as it was summed only if every byte that arrived got
into the file.
-/
theorem VerifiedMeansWritten.whole {w : World} {calls : List TransferCall}
    (there : s.infoList.get? d = some ft) (untouched : Untouched ft)
    (holds : VerifiedMeansWritten env w s d calls) (passes : Passes env ft calls)
    : WritesAll w d calls := by
  have accumulated := callsEffect_accumulates env d ft calls
  have runs := runCalls_eq env w there untouched.summable calls
  generalize callsEffect d ft calls = r at accumulated runs
  obtain ⟨s', ops, ends, disk, meant⟩ := holds
  obtain ⟨-, rfl⟩ := Outcome.done.inj (runs.symm.trans ends)
  rw [State.stopFt_disk] at disk
  cases List.append_cancel_left disk
  have report := (accumulated.verified_iff untouched).mpr passes
  obtain ⟨jft, found, md5⟩ :=
    meant (congrArg (fun report => s.stopReports ++ [(d, report)]) report)
  cases (State.stopFt_get? there w r.1 r.2).symm.trans found
  have summed := accumulated.summed untouched passes.fed
  rw [← accumulated.writes_iff untouched]
  exact (GChecksum.running.inj (summed.symm.trans md5)).symm

/-- A verified transfer was written as it was summed exactly if all that arrived got into the file,
or the transfer is not found verified: too little was counted, nothing arrived, or no announced
hash is that of the bytes that arrived.
-/
theorem verified_means_written (env : Env) (w : World) {s : State} {d : FtPtr} {ft : JingleFT}
    (there : s.infoList.get? d = some ft) (untouched : Untouched ft) (calls : List TransferCall)
    : VerifiedMeansWritten env w s d calls
      ↔ WritesAll w d calls ∨ ¬ Passes env ft calls := by
  constructor
  · intro holds
    by_cases passes : Passes env ft calls
    · exact .inl (holds.whole there untouched passes)
    · exact .inr passes
  · intro condition
    have accumulated := callsEffect_accumulates env d ft calls
    refine ⟨_, _, runCalls_eq env w there untouched.summable calls, State.stopFt_disk w _ _,
      fun reported => ⟨_, State.stopFt_get? there w _ _, ?_⟩⟩
    have report : (callsEffect d ft calls).1.report env = .verified := by
      simpa using List.append_cancel_left reported
    have passes := (accumulated.verified_iff untouched).mp report
    have writes := condition.resolve_right (not_not.mpr passes)
    rw [(accumulated.writes_iff untouched w).mpr writes]
    exact accumulated.summed untouched passes.fed

/-- A file of `size` bytes offered to us. -/
def offeredFile (size : Nat) : JingleFT where
  date := 0
  hash := none
  name := "/home/me/notes"
  size := size
  transmit := 0
  outfile := none
  type := .offer
  dir := .incoming
  state := .pending
  desc := none
  md5 := .null

theorem offeredFile_untouched (size : Nat) : Untouched (offeredFile size) :=
  ⟨rfl, rfl, rfl, rfl⟩

/-- The only transfer is that file. -/
def oneFile (size : Nat) : State :=
  { loaded with infoList := (Pool.empty 1).alloc (offeredFile size) }

/-- A world in which the channel takes these bytes, and a flush succeeds or gets none of them into
the file.
-/
def writing (written : Nat) (flushed : Bool) : World :=
  { plainWorld with
    write := { opened := true, encoded := true, status := true, written, flushed, reached := 0 }
    shutdown := fun _ => 0 }

/-- Four bytes in two packets, both written, and their hash. -/
def wholeFile : List TransferCall :=
  [.data (writing 2 true) [1, 2], .data (writing 2 true) [3, 4], .info hashElement]

/-- The same, but the second flush fails. -/
def halfFile : List TransferCall :=
  [.data (writing 2 true) [1, 2], .data (writing 2 false) [3, 4], .info hashElement]

theorem verified_means_written_whole
    : VerifiedMeansWritten fileEnv (writing 2 true) (oneFile 4) 1 wholeFile :=
  (verified_means_written fileEnv _ rfl (offeredFile_untouched 4) wholeFile).mpr
    (.inl (by decide +kernel))

/-- Of a file of two bytes four arrive: the first two are written and counted, all four are
summed, and the announced hash is that of the four.
-/
theorem verified_without_writing
    : ¬ ∀ (env : Env) (w : World) (s : State) (d : FtPtr) (ft : JingleFT),
        s.infoList.get? d = some ft → Untouched ft →
        ∀ calls : List TransferCall, VerifiedMeansWritten env w s d calls := by
  intro claim
  have holds :=
    claim fileEnv (writing 2 false) (oneFile 2) 1 (offeredFile 2) rfl (offeredFile_untouched 2)
      halfFile
  have writes := holds.whole rfl (offeredFile_untouched 2)
    ⟨by decide, by decide +kernel, _, rfl, by decide +kernel⟩
  exact absurd writes (by decide +kernel)

end McabberJingle
