import McabberJingle.System.Execution
import McabberJingle.Transfer.Course

/-! When an outgoing transfer is reported finished. The bytes are counted as they are read, and
a reply is not looked at.
-/

namespace McabberJingle

open Program Program.Prog

variable {env : Env} {x : ReadyTransfer} {course next : Course}

-----------------------------------------------------------------------------------------
-- The report and what should be true of it
-----------------------------------------------------------------------------------------

/-- The transfer is marked as finished. -/
def Course.Ending (course : Course) (d : FtPtr) : Prop :=
  ∃ ft, course.state.infoList.get? d = some ft ∧ ft.state = .ending

/-- Every byte of the file is in a data packet that was sent, and no reply so far was an error. -/
structure Delivered (env : Env) (x : ReadyTransfer) (course : Course) : Prop where
  sent : ∃ blocks rest, blocks.flatten = x.file
    ∧ course.state.requests x.p = x.state.requests x.p ++ x.packets env blocks ++ rest
  undisturbed : ∀ message ∈ course.replies, message.subType ≠ .error

/-- Nothing of the file is left to be sent. -/
def Emptied (s : State) (t : TransportPtr) (ft : JingleFT) : Prop :=
  ∀ jibb reads, s.transports.get? t = some (.ibb jibb) →
    ft.outfile = some (.reading reads) → jibb.buf = [] ∧ fileBytes reads = []

/-- An error is only replied once the transfer is finished. The session is only ended by the
peer as it is spelled in the session while bytes of the offered size are still to be read, or
after all bytes went out.
-/
def Considerate (x : ReadyTransfer) (course : Course) (input : World × Turn) : Prop :=
  match input.2 with
  | .reply _ message => message.subType = .error → course.Ending x.d
  | .accept _ => True
  | .terminate message => message.getFrom = some x.js.recipient →
      ∀ ft, course.state.infoList.get? x.d = some ft → ft.size ≤ ft.transmit →
        Emptied course.state x.t ft

-----------------------------------------------------------------------------------------
-- Runs
-----------------------------------------------------------------------------------------

/-- A transfer that is running is not finished. -/
theorem Holding.not_ending {sc : SessionContent} {ft : JingleFT} {jibb : JingleIBB}
    {reads : List ReadResult} {blocks : List (List UInt8)}
    (holding : Holding env x course.state sc ft jibb reads blocks) (going : ft.state ≠ .ending)
    : ¬course.Ending x.d := by
  intro ending
  obtain ⟨ft', there, state⟩ := ending
  cases there.symm.trans holding.pumps.transfer
  exact going state

/-- Once the session is gone a transfer stays as it is. -/
theorem Waiting.takes_gone {ahs : List AckPtr} {input : World × Turn}
    (waiting : Waiting x.ref course.state ahs) (gone : course.state.sessions.get? x.p = none)
    (takes : x.Takes env course input next)
    : next.state.infoList = course.state.infoList := by
  obtain ⟨w, turn⟩ := input
  cases turn with
  | reply ah message =>
      have ran : jingleHandleAckIq env w ah message course.state = .done () next.state :=
        takes.step.2
      rw [waiting.reply_gone gone takes.fits ran]
      rfl
  | accept message => exact absurd gone (AsksFor.listed takes.fits)
  | terminate message => exact absurd gone (AsksFor.listed takes.fits)

/-- A finished transfer stays so. -/
theorem Phase.ending_stays {input : World × Turn} (phase : Phase env x course)
    (takes : x.Takes env course input next) (ending : course.Ending x.d)
    : next.Ending x.d := by
  cases phase with
  | running holding waiting one going cut answered steady =>
      exact absurd ending (holding.not_ending going)
  | finished closed short waiting one cut answered =>
      rw [Course.Ending, waiting.takes_gone closed.gone takes]
      exact ending
  | stopped gone transfer sent waiting one asked =>
      rw [Course.Ending, waiting.takes_gone gone takes]
      exact ending

/-- A reply that comes before the transfer is finished is no error. -/
theorem Considerate.takes {input : World × Turn} (considerate : Considerate x course input)
    (takes : x.Takes env course input next) (unfinished : ¬course.Ending x.d)
    (before : ∀ message ∈ course.replies, message.subType ≠ .error)
    : ∀ message ∈ next.replies, message.subType ≠ .error := by
  intro message member
  rw [takes.replies] at member
  rcases List.mem_append.mp member with old | new
  · exact before message old
  · obtain ⟨w, turn⟩ := input
    cases turn with
    | reply ah answer =>
        have same : message = answer := by simpa [Turn.reply?] using new
        intro error
        exact unfinished (considerate (same ▸ error))
    | accept answer => simp [Turn.reply?] at new
    | terminate answer => simp [Turn.reply?] at new

/-- Until the transfer is finished no reply is an error. -/
theorem Considerate.undisturbed (run : x.Runs env (Considerate x) course)
    (unfinished : ¬course.Ending x.d)
    : ∀ message ∈ course.replies, message.subType ≠ .error := by
  induction run with
  | start starts =>
      rw [Course.replies, starts.turns]
      intro message member
      cases member
  | @step course next input run considerate takes ih =>
      have before : ¬course.Ending x.d := fun ending =>
        unfinished ((ReadyTransfer.Runs.phase run).ending_stays takes ending)
      exact considerate.takes takes before (ih before)

/-- What was sent when the turn of a considerate peer finishes the transfer. -/
theorem Holding.ends_sent {sc : SessionContent} {ft : JingleFT} {jibb : JingleIBB}
    {reads : List ReadResult} {blocks : List (List UInt8)} {ahs : List AckPtr}
    {input : World × Turn} (holding : Holding env x course.state sc ft jibb reads blocks)
    (waiting : Waiting x.ref course.state ahs) (one : ahs.length ≤ 1)
    (going : ft.state ≠ .ending) (considerate : Considerate x course input)
    (takes : x.Takes env course input next) (ending : next.Ending x.d)
    : ∃ blocks rest, blocks.flatten = x.file
        ∧ next.state.requests x.p = x.state.requests x.p ++ x.packets env blocks ++ rest := by
  obtain ⟨w, turn⟩ := input
  cases turn with
  | reply ah message =>
      have only := only_handle one (waiting.callback takes.fits).1
      subst only
      have ran : jingleHandleAckIq env w ah message course.state = .done () next.state :=
        takes.step.2
      obtain ⟨s', runs, went⟩ := holding.reply_went waiting w message
      cases runs.symm.trans ran
      cases went with
      | sent holding' length blocksize state waiting' fresh onward =>
          exact absurd ending (holding'.not_ending (state ▸ going))
      | ended closed blocksize short waiting' fresh same =>
          exact ⟨_, _, closed.bytes, closed.sent⟩
      | failed holding' blocksize unsteady state waiting' =>
          refine absurd ending (holding'.not_ending ?_)
          rcases state with state | state
          · exact state ▸ going
          · simp [state]
  | accept message =>
      obtain ⟨sc', jibb', holding', _, _⟩ := holding.accept takes.fits takes.step.2
      exact absurd ending (holding'.not_ending going)
  | terminate message =>
      have pumps := holding.pumps
      have ends := holding.terminate takes.fits takes.step.2
      obtain ⟨ft', there, state⟩ := ending
      have after := there.symm.trans (ends.transfer pumps.transfer)
      cases after
      by_cases exactly : message.getFrom = some x.js.recipient
      · rw [if_pos exactly] at state
        have enough : ft.size ≤ ft.transmit := by
          by_cases early : ft.transmit < ft.size
          · rw [JingleFT.stopped, if_pos early] at state
            cases state
          · exact Nat.le_of_not_lt early
        obtain ⟨empty, spent⟩ := considerate exactly ft pumps.transfer enough jibb reads
          pumps.stream pumps.reading
        obtain ⟨answer, sent⟩ := ends.sent
        have same : next.state.requests x.p = course.state.requests x.p := by
          rw [State.requests, sent]
          exact State.requests_replied message answer
        refine ⟨blocks, [], ?_, ?_⟩
        · have bytes := holding.bytes
          rwa [empty, spent, List.append_nil, List.append_nil] at bytes
        · rw [List.append_nil, same]
          exact holding.sent
      · rw [if_neg exactly] at state
        exact absurd state going

/-- With a considerate peer a transfer is only reported finished when it is. -/
theorem ending_means_delivered (env : Env) (x : ReadyTransfer)
    : (∀ course, x.Starts env course → course.Ending x.d → Delivered env x course)
      ∧ ∀ course input next, x.Runs env (Considerate x) course → Considerate x course input →
          x.Takes env course input next → ¬course.Ending x.d → next.Ending x.d →
          Delivered env x next := by
  refine ⟨?_, ?_⟩
  · intro course starts ending
    refine ⟨?_, ?_⟩
    · obtain ⟨w, run⟩ := starts.run
      obtain ⟨s', runs, went⟩ := x.start_went env w
      cases runs.symm.trans run
      cases went with
      | sent holding length blocksize state waiting fresh onward =>
          exact absurd ending (holding.not_ending (by rw [state]; simp [ReadyTransfer.started]))
      | ended closed blocksize short waiting fresh same => exact ⟨_, _, closed.bytes, closed.sent⟩
      | failed holding blocksize unsteady state waiting =>
          refine absurd ending (holding.not_ending ?_)
          rcases state with state | state
          · rw [state]
            simp [ReadyTransfer.started]
          · simp [state]
    · rw [Course.replies, starts.turns]
      intro message member
      cases member
  · intro course input next run considerate takes unfinished ending
    refine ⟨?_, ?_⟩
    · cases ReadyTransfer.Runs.phase run with
      | running holding waiting one going cut answered steady =>
          exact holding.ends_sent waiting one going considerate takes ending
      | finished closed short waiting one cut answered =>
          obtain ⟨ft, there, _, state, _⟩ := closed.transfer
          exact absurd ⟨ft, there, state⟩ unfinished
      | stopped gone transfer sent waiting one asked =>
          rw [Course.Ending, waiting.takes_gone gone takes] at ending
          exact absurd ending unfinished
    · exact considerate.takes takes unfinished (Considerate.undisturbed run unfinished)

/-- Start the transfer of session 0, take a turn, and test the states before and after it. -/
def afterStart (s : State) (turn : State → Turn) (test : State → State → Bool) : Bool :=
  match ftStart fileEnv plainWorld { owner := 0, name := "file" } s with
  | .fault _ _ => false
  | .done _ s₁ =>
      decide ((turn s₁).Fits fileEnv s₁ 0) && decide (Enabled s₁ (turn s₁).input)
      && match handleInput fileEnv plainWorld (turn s₁).input s₁ with
        | .fault _ _ => false
        | .done _ s₂ => test s₁ s₂

theorem afterStart_found {s : State} {turn : State → Turn} {test : State → State → Bool}
    (found : afterStart s turn test = true)
    : ∃ s₁ s₂, ftStart fileEnv plainWorld { owner := 0, name := "file" } s = .done () s₁
        ∧ (turn s₁).Fits fileEnv s₁ 0
        ∧ Step fileEnv s₁ (plainWorld, (turn s₁).input) s₂ ∧ test s₁ s₂ = true := by
  unfold afterStart at found
  cases starts : ftStart fileEnv plainWorld { owner := 0, name := "file" } s with
  | fault error s₁ => simp [starts] at found
  | done value s₁ =>
  cases ends : handleInput fileEnv plainWorld (turn s₁).input s₁ with
  | fault error s₂ => simp [starts, ends] at found
  | done value' s₂ =>
  simp only [starts, ends, Bool.and_eq_true, decide_eq_true_eq] at found
  exact ⟨s₁, s₂, rfl, found.1.1, ⟨found.1.2, ends⟩, found.2⟩

/-- Whether the transfer 1 becomes finished. -/
def finishes (s₁ s₂ : State) : Bool :=
  (s₁.infoList.get? 1).all (fun ft => ft.state != .ending)
  && (s₂.infoList.get? 1).any (fun ft => ft.state == .ending)

/-- The run that starts a transfer and takes one turn, which finishes it. -/
theorem finishes_found {x : ReadyTransfer} {s₁ s₂ : State} {turn : Turn}
    (ref : x.ref = { owner := 0, name := "file" }) (description : x.d = 1)
    (starts : ftStart fileEnv plainWorld { owner := 0, name := "file" } x.state = .done () s₁)
    (fits : turn.Fits fileEnv s₁ 0) (step : Step fileEnv s₁ (plainWorld, turn.input) s₂)
    (finishes : finishes s₁ s₂ = true)
    : ∃ course next, x.Starts fileEnv course ∧ x.Takes fileEnv course (plainWorld, turn) next
        ∧ ¬course.Ending x.d ∧ next.Ending x.d ∧ course.state = s₁ ∧ next.state = s₂ := by
  have p : x.p = 0 := congrArg SessionContentRef.owner ref
  obtain ⟨before, after⟩ := (Bool.and_eq_true _ _).mp finishes
  refine ⟨⟨s₁, [x.state.blockSize x.t], []⟩, ⟨s₂, _, [turn]⟩,
    ⟨⟨plainWorld, ref ▸ starts⟩, rfl, rfl⟩, ⟨p ▸ fits, step, rfl, rfl⟩, ?_, ?_, rfl, rfl⟩
  · intro ending
    obtain ⟨ft, there, state⟩ := ending
    have there : s₁.infoList.get? 1 = some ft := description ▸ there
    simp [there, state] at before
  · obtain ⟨ft, there, state⟩ := (Option.any_eq_true _ _).mp after
    exact ⟨ft, description ▸ there, eq_of_beq state⟩

/-- The reply to the first data packet that waits. -/
def replyResult (s : State) : Turn := .reply ((s.unanswered 0).headD 0) (replyOf .result)

/-- After its two packets the file has ended. -/
theorem ending_means_delivered_fourBytes
    : ∃ (x : ReadyTransfer) (next : Course), Reachable fileEnv x.state ∧ x.file = [1, 2, 3, 4]
        ∧ next.Ending x.d ∧ Delivered fileEnv x next := by
  have passed : (execute fileEnv (fun _ _ => True) loaded (acceptedOffer fourBytes)).any (fun s =>
      (conveysAt s { owner := 0, name := "file" } 1 0 && opensAt s 1 [1, 2, 3, 4] && freshAt s 0 2
        && (s.unanswered 0).isEmpty) && afterStart s replyResult finishes) = true := by
    decide +kernel
  obtain ⟨s, run, both⟩ := execute_any _ (loaded_reached fileEnv _) passed
  obtain ⟨ready, short⟩ := (Bool.and_eq_true _ _).mp both
  obtain ⟨x, rfl, ref, description, _, file, _, _⟩ := exists_readyTransfer ready
  obtain ⟨s₁, s₂, starts, fits, step, finishes⟩ := afterStart_found short
  obtain ⟨course, next, begins, takes, unfinished, ending, _, _⟩ :=
    finishes_found ref description starts fits step finishes
  have considerate : Considerate x course (plainWorld, replyResult s₁) :=
    fun error => by cases error
  exact ⟨x, next, run, file, ending, (ending_means_delivered fileEnv x).2 course _ next
    (.start begins) considerate takes unfinished ending⟩

/-- The text in a data packet. -/
def dataText (iq : LmMessage) : Option String :=
  (iq.node.getChild "data").bind (fun node => node.value)

/-- The peer ends the session. -/
def terminateSet : LmMessage := jingleSet "romeo@verona/a" "session-terminate" "our-sid" []

/-- Whether one packet was sent, and conveys this text. -/
def sentOnly (s s₂ : State) (text : String) : Bool :=
  (s₂.requests 0).length == (s.requests 0).length + 1
  && (s₂.requests 0).getLast?.bind dataText == some text

/-- Two of four bytes were sent when the peer ends the session. -/
theorem finished_with_bytes_unsent
    : ¬∀ (env : Env) (x : ReadyTransfer), 0 < x.jibb.blocksize →
        ∀ course input next, x.Runs env (fun _ _ => True) course →
          x.Takes env course input next → ¬course.Ending x.d → next.Ending x.d →
          Delivered env x next := by
  intro claimed
  have passed : (execute fileEnv (fun _ _ => True) loaded (acceptedOffer fourBytes)).any (fun s =>
      (conveysAt s { owner := 0, name := "file" } 1 0 && opensAt s 1 [1, 2, 3, 4] && freshAt s 0 2
        && (s.unanswered 0).isEmpty)
      && afterStart s (fun _ => .terminate terminateSet) (fun s₁ s₂ =>
        finishes s₁ s₂ && sentOnly s s₂ "AQI=")) = true := by
    decide +kernel
  obtain ⟨s, _, both⟩ := execute_any _ (loaded_reached fileEnv _) passed
  obtain ⟨ready, short⟩ := (Bool.and_eq_true _ _).mp both
  obtain ⟨x, rfl, ref, description, _, file, _, size⟩ := exists_readyTransfer ready
  obtain ⟨s₁, s₂, starts, fits, step, tested⟩ := afterStart_found short
  obtain ⟨finishes, only⟩ := (Bool.and_eq_true _ _).mp tested
  obtain ⟨course, next, begins, takes, unfinished, ending, _, same⟩ :=
    finishes_found ref description starts fits step finishes
  have delivered := claimed fileEnv x (by omega) course _ next (.start begins) takes unfinished
    ending
  have p : x.p = 0 := congrArg SessionContentRef.owner ref
  obtain ⟨blocks, rest, whole, sent⟩ := delivered.sent
  rw [p, same] at sent
  rw [file] at whole
  obtain ⟨one, last⟩ := (Bool.and_eq_true _ _).mp only
  have one := eq_of_beq one
  rw [sent] at one
  cases blocks with
  | nil => cases whole
  | cons block more =>
      have single : more = [] ∧ rest = [] := by
        simp only [ReadyTransfer.packets, dataPackets, List.append_assoc, List.length_append,
          List.length_cons] at one
        refine ⟨?_, List.eq_nil_of_length_eq_zero (by omega)⟩
        cases more with
        | nil => rfl
        | cons second more =>
            simp only [dataPackets, List.length_cons] at one
            omega
      obtain ⟨rfl, rfl⟩ := single
      have all : block = [1, 2, 3, 4] := by simpa using whole
      have last := eq_of_beq last
      rw [sent, all] at last
      simp only [ReadyTransfer.packets, dataPackets, List.append_nil, List.getLast?_concat,
        Option.bind_some] at last
      have text : dataText (ibbDataIq fileEnv x.js.toJid [1, 2, 3, 4] x.jibb.sid 0)
          = some "AQIDBA==" := by
        rw [dataText, ibbDataIq]
        rfl
      have apart : some "AQIDBA==" ≠ some "AQI=" := by decide
      exact apart (text.symm.trans last)

end McabberJingle
