import McabberJingle.Effects.Aside
import McabberJingle.System.Execution

/-! The file at the path of a transfer is what the packets addressed to it make of it: in every run,
whatever else happens in between and whoever else sends, as long as no other transfer opens a path
that leads there.
-/

namespace McabberJingle

open Program Program.Prog

-----------------------------------------------------------------------------------------
-- The files on the disk
-----------------------------------------------------------------------------------------

/-- What was done on the disk, oldest first. -/
def State.steps (s : State) : List (FileOp FtPtr String UInt8) := s.disk.map DiskOp.step

/-- The files that a run made, where `leads` tells to which file a path leads. -/
def State.files {ι : Type} [DecidableEq ι] (leads : String → ι) (s : State) : Files FtPtr ι UInt8 :=
  replay 0 (s.steps.map (FileOp.mapPath leads))

/-- The path that a step opens. -/
def DiskOp.opens : DiskOp → Option String
  | .created _ path => some path
  | .wrote _ _ => none

/-- No other transfer opened a path that leads to the same file. -/
def State.Alone {ι : Type} (leads : String → ι) (s : State) (d : FtPtr) (name : String) : Prop :=
  ∀ op ∈ s.disk, op.opens.map leads = some (leads name) → op.ft = d

instance {ι : Type} [DecidableEq ι] (leads : String → ι) (s : State) (d : FtPtr) (name : String)
    : Decidable (s.Alone leads d name) :=
  inferInstanceAs (Decidable (∀ op ∈ s.disk, op.opens.map leads = some (leads name) → op.ft = d))

/-- A file after these events, of which there was nothing before. -/
def receipt (events : List FileEvent) : Receipt :=
  events.foldl Receipt.take { channel := none, content := none }

theorem receipt_append (events : List FileEvent) (event : FileEvent)
    : receipt (events ++ [event]) = (receipt events).take event := by
  simp [receipt]

-----------------------------------------------------------------------------------------
-- The events of a run
-----------------------------------------------------------------------------------------

/-- What an input in `s` is for the files that are being received. -/
def turnEvents (env : Env) (s : State) : StepInput → List (FtPtr × FileEvent)
  | (w, .ibbIq message) =>
      ((ibbTarget s message).bind (fun d =>
        (packetData env message).map (fun data => (d, .packet w.write data)))).toList
  | (w, .jingleIq message) => stoppages w (stopped env w s message)
  | (_, .jftRetry (some _)) => (s.infoList.cells.head?.map (fun cell => (cell.1, .retried))).toList
  | _ => []

/-- The events for one transfer. -/
def eventsOf (d : FtPtr) (events : List (FtPtr × FileEvent)) : List FileEvent :=
  (events.filter (fun event => event.1 = d)).map Prod.snd

/-- What a run did to the file of `d`. -/
def fileEvents (env : Env) (d : FtPtr) (history : List (State × StepInput)) : List FileEvent :=
  eventsOf d (history.flatMap (fun (s, input) => turnEvents env s input))

theorem eventsOf_append (d : FtPtr) (events more : List (FtPtr × FileEvent))
    : eventsOf d (events ++ more) = eventsOf d events ++ eventsOf d more := by
  simp [eventsOf]

section Turns

variable {env : Env} {w : World} {s s' : State}

theorem packet_happens {message : LmMessage} {result : LmHandlerResult}
    (handled : jingleIbbHandleIq env w message s = .done result s')
    : Happens (turnEvents env s (w, .ibbIq message)) s s' := by
  rcases packet_goes handled with ⟨nowhere, infoList, disk⟩ | ⟨d, data, taken, s₁, goes, carried,
    infoList, disk, written⟩
  · rw [turnEvents, nowhere]
    exact .nothing (shelved_of_same infoList disk)
  · rw [turnEvents, goes, carried]
    exact (FileTransfer.handleData_happens w written).before (shelved_of_same infoList disk)

/-- The first transfer is reset, and offered once more. -/
theorem retry_happens {arg : Option String} (handled : jftRetry env w arg s = .done () s')
    : Happens (turnEvents env s (w, .jftRetry arg)) s s' := by
  unfold jftRetry at handled
  rw [bind_get] at handled
  cases arg with
  | none =>
      cases handled
      exact .nothing (refl_of Shelved _)
  | some arg =>
  unfold turnEvents
  cases cells : s.infoList.cells with
  | nil =>
      rw [cells] at handled
      cases handled
      exact .nothing (refl_of Shelved _)
  | cons cell rest =>
  obtain ⟨d, ft⟩ := cell
  rw [cells] at handled
  obtain ⟨_, s₁, reset, offered⟩ := of_bind_done handled
  have there : s.infoList.get? d = some ft :=
    Pool.get?_eq_some_iff.mpr (cells ▸ List.mem_cons_self)
  rw [modifyFt_done there] at reset
  cases reset
  refine Happens.after (Touches.happens ?_) ((jftSendTransfer_shelves env w d _).done offered)
  refine FileTransfer.touches_storing there rfl rfl (fun _ member => by cases member) (fun _ => ?_)
  refine ⟨fun _ member => ?_, fun _ member => ?_, fun _ => rfl⟩ <;> cases member

/-- Whatever a turn does to files are its events. One case for each input. -/
theorem Step.happens {input : StepInput} (next : Step env s input s')
    : Happens (turnEvents env s input) s s' := by
  obtain ⟨w, input⟩ := input
  cases input with
  | ibbIq message =>
      obtain ⟨result, s₁, handled, ends⟩ := of_bind_done next.2
      cases ends
      exact packet_happens handled
  | jingleIq message =>
      obtain ⟨result, s₁, handled, ends⟩ := of_bind_done next.2
      cases ends
      exact jingleHandleIq_happens env w handled
  | jftRetry arg => exact retry_happens next.2
  | reply ah message => exact .nothing (next.shelved rfl)
  | tick => exact .nothing (next.shelved rfl)
  | wait seconds => exact .nothing (next.shelved rfl)
  | event id context => exact .nothing (next.shelved rfl)
  | transportInitialize correct ref => exact .nothing (next.shelved rfl)
  | jftSend arg => exact .nothing (next.shelved rfl)
  | jftFlush => exact .nothing (next.shelved rfl)

end Turns

-----------------------------------------------------------------------------------------
-- What the steps of a transfer make of its file
-----------------------------------------------------------------------------------------

/-- The steps of `d` make of its file what these events do, and open no other. -/
structure FiledAs (d : FtPtr) (events : List FileEvent) (s : State) : Prop where
  fresh : s.infoList.next ≤ d → events = [] ∧ ∀ op ∈ s.disk, op.ft ≠ d
  filed : ∀ name channel, s.shelf d = some (.receiving name channel) →
    receipt events = { channel, content := grown (stepsOf d s.steps) }
    ∧ ∀ path, .created d path ∈ s.disk → path = name

section Filed

variable {d : FtPtr} {events : List FileEvent} {s s' : State}

theorem DiskOp.channel_step (op : DiskOp) : op.step.channel = op.ft := by
  cases op <;> rfl

theorem stepsOf_ours {ops : List DiskOp} (ours : ∀ op ∈ ops, op.ft = d)
    : stepsOf d (ops.map DiskOp.step) = ops.map DiskOp.step := by
  refine List.filter_eq_self.mpr (fun op member => ?_)
  obtain ⟨op, listed, rfl⟩ := List.mem_map.mp member
  simp [DiskOp.channel_step, ours op listed]

theorem stepsOf_others {ops : List DiskOp} (others : ∀ op ∈ ops, op.ft ≠ d)
    : stepsOf d (ops.map DiskOp.step) = [] := by
  refine List.filter_eq_nil_iff.mpr (fun op member => ?_)
  obtain ⟨op, listed, rfl⟩ := List.mem_map.mp member
  simp [DiskOp.channel_step, others op listed]

theorem State.steps_append {ops : List DiskOp} (grown : s'.disk = s.disk ++ ops)
    : s'.steps = s.steps ++ ops.map DiskOp.step := by
  rw [State.steps, grown, List.map_append]
  rfl

/-- Code that writes no file. -/
theorem FiledAs.shelved (filed : FiledAs d events s) (shelved : Shelved s s')
    : FiledAs d events s' where
  fresh := by
    rw [shelved.disk]
    exact fun new => filed.fresh (Nat.le_trans shelved.next new)
  filed name channel there := by
    rw [State.steps, shelved.disk]
    rcases shelved.kept d _ there with before | ⟨new, closed⟩
    · exact filed.filed name channel before
    · obtain ⟨rfl, others⟩ := filed.fresh new
      cases closed name channel rfl
      rw [stepsOf_others others]
      exact ⟨rfl, fun path opened => absurd rfl (others _ opened)⟩

/-- Another transfer is written to. -/
theorem FiledAs.other (filed : FiledAs d events s) {d' : FtPtr} {event : FileEvent}
    (touches : Touches d' event s s') (other : d' ≠ d)
    : FiledAs d events s' := by
  obtain ⟨ops, grown, ours, _⟩ := touches.grown
  have others : ∀ op ∈ ops, op.ft ≠ d :=
    fun op member same => other ((ours op member).symm.trans same)
  constructor
  · rw [touches.next]
    intro new
    obtain ⟨nothing, before⟩ := filed.fresh new
    refine ⟨nothing, fun op member => ?_⟩
    rw [grown, List.mem_append] at member
    exact member.elim (before op) (others op)
  · intro name channel there
    rw [touches.others d other.symm] at there
    obtain ⟨made, only⟩ := filed.filed name channel there
    rw [State.steps_append grown, stepsOf_append, stepsOf_others others, List.append_nil]
    refine ⟨made, fun path opened => ?_⟩
    rw [grown, List.mem_append] at opened
    rcases opened with before | new
    · exact only path before
    · exact absurd rfl (others _ new)

/-- The transfer itself is written to. -/
theorem FiledAs.touched (filed : FiledAs d events s) {event : FileEvent}
    (touches : Touches d event s s')
    : FiledAs d (events ++ [event]) s' := by
  obtain ⟨ops, grows, ours, does⟩ := touches.grown
  have listed : ∃ shelf, s.shelf d = some shelf := by
    rcases does with ⟨sending, _⟩ | ⟨_, _, _, receiving, _⟩
    · exact ⟨_, sending⟩
    · exact ⟨_, receiving⟩
  constructor
  · rw [touches.next]
    intro new
    obtain ⟨shelf, there⟩ := listed
    obtain ⟨ft, known, _⟩ := Option.map_eq_some_iff.mp there
    exact absurd (Pool.lt_next known) (Nat.not_lt.mpr new)
  · intro name channel there
    rcases does with ⟨_, sending⟩ | ⟨name', before, channel', receiving, after, makes⟩
    · cases there.symm.trans sending
    · cases there.symm.trans after
      obtain ⟨made, only⟩ := filed.filed name before receiving
      rw [receipt_append, made, makes.made, State.steps_append grows, stepsOf_append,
        stepsOf_ours ours, grown_append]
      refine ⟨rfl, fun path opened => ?_⟩
      rw [grows, List.mem_append] at opened
      exact opened.elim (only path) (makes.path path)

/-- By induction on the events. -/
theorem FiledAs.happens {more : List (FtPtr × FileEvent)} (happens : Happens more s s')
    (filed : FiledAs d events s)
    : FiledAs d (events ++ eventsOf d more) s' := by
  induction happens generalizing events with
  | nothing shelved =>
      rw [eventsOf, List.filter_nil, List.map_nil, List.append_nil]
      exact filed.shelved shelved
  | @event d' event more s s₁ s₂ s' shelved touches rest ih =>
      by_cases here : d' = d
      · subst here
        have ours : eventsOf d' ((d', event) :: more) = event :: eventsOf d' more := by
          simp [eventsOf]
        rw [ours, List.append_cons]
        exact ih ((filed.shelved shelved).touched touches)
      · have others : eventsOf d ((d', event) :: more) = eventsOf d more := by
          simp [eventsOf, here]
        rw [others]
        exact ih ((filed.shelved shelved).other touches here)

/-- Turn by turn. -/
theorem filedAs_run (env : Env) (d : FtPtr) {history : List (State × StepInput)}
    (run : Trace Initial (Step env) history s)
    : FiledAs d (fileEvents env d history) s := by
  induction run with
  | start initial =>
      refine ⟨fun _ => ⟨rfl, ?_⟩, fun name channel there => ?_⟩
      · rw [initial.disk]
        exact fun op member => by cases member
      · rw [State.shelf, initial.infoList] at there
        cases there
  | step run next filed =>
      rw [fileEvents, List.flatMap_append, eventsOf_append, List.flatMap_singleton]
      exact filed.happens next.happens

end Filed

-----------------------------------------------------------------------------------------
-- Runs
-----------------------------------------------------------------------------------------

/-- A file that only one transfer opened holds what the steps of that transfer made of it. -/
theorem FiledAs.file {ι : Type} [DecidableEq ι] (leads : String → ι) {d : FtPtr} {name : String}
    {channel : Option (List UInt8)} {events : List FileEvent} {s : State}
    (filed : FiledAs d events s) (known : s.shelf d = some (.receiving name channel))
    (alone : s.Alone leads d name)
    : (receipt events).channel = channel
      ∧ (s.files leads).file (leads name) = (receipt events).content := by
  obtain ⟨made, only⟩ := filed.filed name channel known
  have steps {d' : FtPtr} {file : ι} (opened : .opened d' file ∈ s.steps.map (FileOp.mapPath leads))
      : ∃ path, .created d' path ∈ s.disk ∧ leads path = file := by
    obtain ⟨step, member, same⟩ := List.mem_map.mp opened
    obtain ⟨op, listed, rfl⟩ := List.mem_map.mp member
    cases op with
    | created d'' path =>
        cases same
        exact ⟨path, listed, rfl⟩
    | wrote d'' bytes => cases same
  have owns : Owns d (leads name) (s.steps.map (FileOp.mapPath leads)) := by
    intro d' opened
    obtain ⟨path, listed, same⟩ := steps opened
    exact alone _ listed (congrArg some same)
  have own : ∀ file, .opened d file ∈ s.steps.map (FileOp.mapPath leads) → file = leads name := by
    intro file opened
    obtain ⟨path, listed, rfl⟩ := steps opened
    rw [only path listed]
  have ends : AtEnd (s.files leads) d (leads name) _ := replay_file owns own
  rw [made]
  refine ⟨rfl, ends.file.trans ?_⟩
  rw [stepsOf_mapPath, grown_mapPath]

/-- Whatever else two runs did, they made the same of the same packets. -/
theorem files_independent (env : Env) {ι : Type} [DecidableEq ι] (leads : String → ι) {d : FtPtr}
    {history history' : List (State × StepInput)} {s s' : State} {name name' : String}
    {channel channel' : Option (List UInt8)}
    (run : Trace Initial (Step env) history s) (run' : Trace Initial (Step env) history' s')
    (known : s.shelf d = some (.receiving name channel)) (alone : s.Alone leads d name)
    (known' : s'.shelf d = some (.receiving name' channel')) (alone' : s'.Alone leads d name')
    (same : fileEvents env d history = fileEvents env d history')
    : channel = channel'
      ∧ (s.files leads).file (leads name) = (s'.files leads).file (leads name') := by
  obtain ⟨channels, content⟩ := (filedAs_run env d run).file leads known alone
  obtain ⟨channels', content'⟩ := (filedAs_run env d run').file leads known' alone'
  rw [same] at channels content
  exact ⟨channels.symm.trans channels', content.trans content'.symm⟩

end McabberJingle
