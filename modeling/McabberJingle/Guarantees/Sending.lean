import McabberJingle.System.Execution
import McabberJingle.Transfer.Course

/-! A file is sent in order and in full: one data packet at a time, then its hash and the end
of the session.
-/

namespace McabberJingle

open Program Program.Prog

variable {env : Env} {x : ReadyTransfer}

-----------------------------------------------------------------------------------------
-- Runs with a willing peer
-----------------------------------------------------------------------------------------

/-- The peer replies, or accepts the session with a block size that is not 0. -/
def Willing (env : Env) (x : ReadyTransfer) (course : Course) (input : World × Turn) : Prop :=
  match input.2 with
  | .reply _ _ => True
  | .accept message => ∀ s,
      handleInput env input.1 (.jingleIq message) course.state = .done () s → 0 < s.blockSize x.t
  | .terminate _ => False

/-- Nobody asks to end the session. -/
theorem Willing.unasked {course : Course} (run : x.Runs env (Willing env x) course)
    : ¬∃ message, .terminate message ∈ course.turns := by
  induction run with
  | start starts =>
      rw [starts.turns]
      simp
  | @step course next input run willing takes ih =>
      intro asked
      obtain ⟨message, member⟩ := asked
      rw [takes.turns] at member
      rcases List.mem_append.mp member with old | new
      · exact ih ⟨message, old⟩
      · have same : Turn.terminate message = input.2 := List.mem_singleton.mp new
        rw [Willing, ← same] at willing
        exact willing

/-- A request for data leaves the block size as it is. -/
theorem Went.blockSize {sc : SessionContent} {ft : JingleFT} {jibb : JingleIBB}
    {reads : List ReadResult} {blocks : List (List UInt8)} {ahs : List AckPtr} {s' : State}
    (went : Went env x sc ft jibb reads blocks ahs s')
    : s'.blockSize x.t = jibb.blocksize := by
  cases went with
  | sent holding length blocksize state waiting fresh onward =>
      rw [holding.blockSize, blocksize]
  | ended closed blocksize short waiting fresh same => exact blocksize
  | failed holding blocksize unsteady state waiting => rw [holding.blockSize, blocksize]

/-- A reply leaves the block size as it is. -/
theorem Phase.reply_blockSize {course next : Course} {w : World} {ah : AckPtr}
    {message : LmMessage} (phase : Phase env x course)
    (takes : x.Takes env course (w, .reply ah message) next)
    : next.state.blockSize x.t = course.state.blockSize x.t := by
  have member : ah ∈ course.state.unanswered x.p := takes.fits
  have ran : jingleHandleAckIq env w ah message course.state = .done () next.state :=
    takes.step.2
  cases phase with
  | running holding waiting one going cut answered steady =>
      have only := only_handle one (waiting.callback member).1
      subst only
      obtain ⟨s', runs, went⟩ := holding.reply_went waiting w message
      cases runs.symm.trans ran
      rw [went.blockSize, holding.blockSize]
  | finished closed short waiting one cut answered =>
      rw [waiting.reply_gone closed.gone member ran]
      rfl
  | stopped gone transfer sent waiting one asked =>
      rw [waiting.reply_gone gone member ran]
      rfl

/-- All block sizes so far, and the one in force. -/
structure Positive (x : ReadyTransfer) (course : Course) : Prop where
  sizes : ∀ size ∈ course.sizes, 0 < size
  inForce : 0 < course.state.blockSize x.t

theorem Positive.start {course : Course} (positive : 0 < x.jibb.blocksize)
    (starts : x.Starts env course)
    : Positive x course := by
  have before : x.state.blockSize x.t = x.jibb.blocksize := State.blockSize_of x.stream
  obtain ⟨w, run⟩ := starts.run
  obtain ⟨s', runs, went⟩ := x.start_went env w
  cases runs.symm.trans run
  refine ⟨?_, ?_⟩
  · rw [starts.sizes, before]
    intro size member
    rwa [List.mem_singleton.mp member]
  · rwa [went.blockSize]

theorem Positive.takes {course next : Course} {input : World × Turn}
    (positive : Positive x course) (phase : Phase env x course)
    (willing : Willing env x course input) (takes : x.Takes env course input next)
    : Positive x next := by
  obtain ⟨w, turn⟩ := input
  have sizes := takes.sizes
  cases turn with
  | terminate message => exact willing.elim
  | accept message =>
      have same : next.sizes = course.sizes := sizes.trans (List.append_nil _)
      exact ⟨same ▸ positive.sizes, willing _ takes.step.2⟩
  | reply ah message =>
      refine ⟨?_, ?_⟩
      · intro size member
        rw [sizes] at member
        rcases List.mem_append.mp member with old | new
        · exact positive.sizes size old
        · rw [List.mem_singleton.mp new]
          exact positive.inForce
      · rw [phase.reply_blockSize takes]
        exact positive.inForce

theorem Willing.positive {course : Course} (positive : 0 < x.jibb.blocksize)
    (run : x.Runs env (Willing env x) course)
    : Positive x course := by
  induction run with
  | start starts => exact .start positive starts
  | step run willing takes ih => exact ih.takes (ReadyTransfer.Runs.phase run) willing takes

-----------------------------------------------------------------------------------------
-- What a willing peer gets
-----------------------------------------------------------------------------------------

/-- Every block has bytes and fits the size in force when it was cut, and only the last one may
be shorter than that.
-/
def CutBy (sizes : List Nat) (blocks : List (List UInt8)) : Prop :=
  blocks.length ≤ sizes.length
  ∧ ∀ k size block, sizes[k]? = some size → blocks[k]? = some block →
      block ≠ [] ∧ block.length ≤ size ∧ (k + 1 < blocks.length → block.length = size)

/-- Blocks as long as the sizes say, and then perhaps a shorter one. -/
theorem cutBy_append {sizes : List Nat} {blocks last : List (List UInt8)} {size : Nat}
    (positive : ∀ size ∈ sizes, 0 < size) (cut : blocks.map List.length ++ [size] <+: sizes)
    (short : ShortBlock size last)
    : CutBy sizes (blocks ++ last) := by
  obtain ⟨later, rfl⟩ := cut
  have few : last.length ≤ 1 := by
    rcases short with rfl | ⟨block, _, _, rfl⟩
    · exact Nat.zero_le _
    · exact Nat.le_refl _
  refine ⟨by simp; omega, ?_⟩
  intro k wanted block sized placed
  rcases Nat.lt_or_ge k blocks.length with early | late
  · have whole : block.length = wanted := by
      rw [List.getElem?_append_left early] at placed
      rw [List.append_assoc, List.getElem?_append_left (by simpa using early),
        List.getElem?_map, placed] at sized
      exact Option.some.inj sized
    have some : 0 < block.length := by
      rw [whole]
      exact positive wanted (List.mem_of_getElem? sized)
    exact ⟨List.ne_nil_of_length_pos some, Nat.le_of_eq whole, fun _ => whole⟩
  · rw [List.getElem?_append_right late] at placed
    rcases short with rfl | ⟨final, some, fits, rfl⟩
    · simp at placed
    · have here : k - blocks.length = 0 := by
        have bound := (List.getElem?_eq_some_iff.mp placed).1
        simpa using bound
      rw [here, List.getElem?_cons_zero] at placed
      cases placed
      have same : wanted = size := by
        rw [List.append_assoc, List.getElem?_append_right (by simpa using late),
          List.length_map, here] at sized
        exact (Option.some.inj sized).symm
      refine ⟨some, same ▸ fits, fun more => ?_⟩
      simp only [List.length_append, List.length_singleton] at more
      omega

theorem cutBy_map {sizes : List Nat} {blocks : List (List UInt8)}
    (positive : ∀ size ∈ sizes, 0 < size) (cut : sizes = blocks.map List.length)
    : CutBy sizes blocks := by
  subst cut
  refine ⟨by simp, ?_⟩
  intro k size block sized placed
  rw [List.getElem?_map, placed] at sized
  cases sized
  have some := positive block.length (List.mem_map.mpr ⟨block, List.mem_of_getElem? placed, rfl⟩)
  exact ⟨List.ne_nil_of_length_pos some, Nat.le_refl _, fun _ => rfl⟩

/-- The blocks are not more than their bytes. -/
theorem CutBy.length_le {sizes : List Nat} {blocks : List (List UInt8)} (cut : CutBy sizes blocks)
    : blocks.length ≤ blocks.flatten.length := by
  have nonempty : ∀ block ∈ blocks, 1 ≤ block.length := by
    intro block member
    obtain ⟨k, inside, rfl⟩ := List.getElem_of_mem member
    have bound : k < sizes.length := Nat.lt_of_lt_of_le inside cut.1
    have some := (cut.2 k sizes[k] blocks[k] (List.getElem?_eq_getElem bound)
      (List.getElem?_eq_getElem inside)).1
    exact List.length_pos_of_ne_nil some
  clear cut
  induction blocks with
  | nil => exact Nat.zero_le _
  | cons block rest ih =>
      have first := nonempty block List.mem_cons_self
      have later := ih (fun block member => nonempty block (List.mem_cons_of_mem _ member))
      rw [List.flatten_cons, List.length_append, List.length_cons]
      omega

/-- The transfer is under way: its blocks went out in full, and one of them waits for a reply,
which will be handled.
-/
structure Underway (env : Env) (x : ReadyTransfer) (course : Course)
    (blocks : List (List UInt8))
    : Prop where
  listed : course.state.sessions.get? x.p ≠ none
  sent : course.state.requests x.p = x.state.requests x.p ++ x.packets env blocks
  begun : blocks.flatten <+: x.file
  whole : course.sizes = blocks.map List.length
  waits : ∃ ah, course.state.unanswered x.p = [ah]
    ∧ ∀ w message, ∃ next, x.Takes env course (w, .reply ah message) next

/-- The transfer is complete: all bytes went out, then the hash and the end, and the reply to
the last block will be handled if no session is left.
-/
structure Fulfilled (env : Env) (x : ReadyTransfer) (course : Course)
    (blocks : List (List UInt8))
    : Prop where
  gone : course.state.sessions.get? x.p = none
  sent : course.state.requests x.p = x.state.requests x.p ++ x.packets env blocks
    ++ [hashIq x.js.toJid x.js.sid (some (env.md5 x.file)), sessionTerminateIq x.js "success"]
  whole : blocks.flatten = x.file
  counted : (course.state.infoList.get? x.d).map (fun ft => ft.transmit) = some x.file.length
  waits : ∀ ah ∈ course.state.unanswered x.p, course.state.sessions.cells = [] →
    ∀ w message, ∃ next, x.Takes env course (w, .reply ah message) next

/-- A reply whose handling ends is a turn the run can take. -/
theorem ReadyTransfer.takes_reply {course : Course} {w : World} {ah : AckPtr}
    {message : LmMessage} {s' : State} (member : ah ∈ course.state.unanswered x.p)
    (id : ah ∈ course.state.idHandlers)
    (runs : jingleHandleAckIq env w ah message course.state = .done () s')
    : ∃ next, x.Takes env course (w, .reply ah message) next := by
  refine ⟨⟨s', course.sizes ++ [course.state.blockSize x.t],
    course.turns ++ [.reply ah message]⟩, ?_⟩
  exact { fits := member, step := ⟨id, runs⟩, sizes := rfl, turns := rfl }

/-- Every run with a willing peer sends the file in order and in full. -/
theorem file_sent_in_order (env : Env) (x : ReadyTransfer) (steady : Steady x.reads)
    (positive : 0 < x.jibb.blocksize)
    : (∀ w, ∃ s, ftStart env w x.ref x.state = .done () s)
      ∧ ∀ course, x.Runs env (Willing env x) course →
          (course.state.unanswered x.p).length ≤ 1
          ∧ course.replies.length ≤ x.file.length
          ∧ ∃ blocks, CutBy course.sizes blocks
            ∧ (Underway env x course blocks ∨ Fulfilled env x course blocks) := by
  refine ⟨fun w => ?_, fun course run => ?_⟩
  · obtain ⟨s, runs, _⟩ := x.start_went env w
    exact ⟨s, runs⟩
  have sized := Willing.positive positive run
  cases ReadyTransfer.Runs.phase run with
  | @running sc ft jibb reads blocks ahs holding waiting one going cut answered onward =>
      obtain ⟨_, some⟩ := onward steady
      obtain ⟨ah, only⟩ : ∃ ah, ahs = [ah] := by
        cases ahs with
        | nil => exact absurd rfl some
        | cons ah rest => exact ⟨ah, only_handle one List.mem_cons_self⟩
      subst only
      have cutBy := cutBy_map sized.sizes (cut some)
      have begun : blocks.flatten <+: x.file := by
        rw [← holding.bytes, List.append_assoc]
        exact List.prefix_append _ _
      refine ⟨waiting.unanswered ▸ one, ?_, blocks, cutBy, Or.inl ?_⟩
      · have bound := begun.length_le
        have few := cutBy.length_le
        omega
      · have listed := holding.pumps.conveys.listed
        refine ⟨by simp [listed], holding.sent, begun, cut some, ah, waiting.unanswered, ?_⟩
        intro w message
        obtain ⟨s', runs, _⟩ := holding.reply_went waiting w message
        have id := (waiting.known ah List.mem_cons_self).1
        exact x.takes_reply (waiting.unanswered ▸ List.mem_cons_self) id runs
  | @finished blocks last size ahs closed short waiting one cut answered =>
      have cutBy := cutBy_append sized.sizes cut short
      refine ⟨waiting.unanswered ▸ one, ?_, blocks ++ last, cutBy, Or.inr ?_⟩
      · have few := cutBy.length_le
        rw [closed.bytes] at few
        omega
      · obtain ⟨ft, transfer, counted, _⟩ := closed.transfer
        refine ⟨closed.gone, closed.sent, closed.bytes, by simp [transfer, counted], ?_⟩
        intro ah member empty w message
        obtain ⟨_, id, handle, there, callback⟩ := waiting.callback member
        have empty' : (course.state.fire ah).sessions.cells = [] := empty
        exact x.takes_reply member id (reply_runs there callback (ibbReply_empty empty' w x.ref))
  | stopped gone transfer sent waiting one asked => exact absurd asked (Willing.unasked run)

theorem file_sent_in_order_fourBytes
    : ∃ x : ReadyTransfer, Reachable fileEnv x.state ∧ x.file = [1, 2, 3, 4]
        ∧ x.jibb.blocksize = 2
        ∧ (∀ w, ∃ s, ftStart fileEnv w x.ref x.state = .done () s)
        ∧ ∀ course, x.Runs fileEnv (Willing fileEnv x) course →
            (course.state.unanswered x.p).length ≤ 1
            ∧ course.replies.length ≤ x.file.length
            ∧ ∃ blocks, CutBy course.sizes blocks
              ∧ (Underway fileEnv x course blocks ∨ Fulfilled fileEnv x course blocks) := by
  have passed : (execute fileEnv (fun _ _ => True) loaded (acceptedOffer fourBytes)).any (fun s =>
      conveysAt s { owner := 0, name := "file" } 1 0 && opensAt s 1 [1, 2, 3, 4] && freshAt s 0 2
        && (s.unanswered 0).isEmpty) = true := by
    decide +kernel
  obtain ⟨s, run, ready⟩ := execute_any _ (loaded_reached fileEnv _) passed
  obtain ⟨x, rfl, _, _, _, file, steady, size⟩ := exists_readyTransfer ready
  exact ⟨x, run, file, size, file_sent_in_order fileEnv x steady (by omega)⟩

end McabberJingle
