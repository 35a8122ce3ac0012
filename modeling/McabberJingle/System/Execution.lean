import McabberJingle.Program.Base64
import McabberJingle.System.Machine

/-! Running the machine on a list of inputs, and the surroundings that concrete runs use. -/

namespace McabberJingle

open Program

-----------------------------------------------------------------------------------------
-- Executing a list of inputs
-----------------------------------------------------------------------------------------

/-- The state after handling all inputs, if each is allowed, can be handed over, and is
handled to its end.
-/
def execute (env : Env) (allowed : State → StepInput → Prop)
    [∀ s input, Decidable (allowed s input)]
    : State → List StepInput → Option State
  | s, [] => some s
  | s, input :: rest =>
      if allowed s input ∧ Enabled s input.2 then
        match handleInput env input.1 input.2 s with
        | .done () s' => execute env allowed s' rest
        | .fault _ _ => none
      else
        none

variable {env : Env} {allowed : State → StepInput → Prop}
  [∀ s input, Decidable (allowed s input)]

/-- By induction on the inputs: what every allowed step keeps, an execution keeps. -/
theorem execute_keeps {inv : State → Prop} {s s' : State} {inputs : List StepInput}
    (kept : ∀ s input s', inv s → allowed s input → Step env s input s' → inv s')
    (holds : inv s) (ends : execute env allowed s inputs = some s')
    : inv s' := by
  induction inputs generalizing s with
  | nil =>
      cases ends
      exact holds
  | cons input rest ih =>
      simp only [execute] at ends
      split at ends
      · rename_i ready
        split at ends
        · rename_i next handled
          exact ih (kept s input next holds ready.1 ⟨ready.2, handled⟩) ends
        · cases ends
      · cases ends

/-- Executing one input is one step. -/
theorem execute_singleton {s s' : State} {input : StepInput}
    (ends : execute env allowed s [input] = some s')
    : allowed s input ∧ Step env s input s' := by
  simp only [execute] at ends
  split at ends
  · rename_i ready
    split at ends
    · rename_i next handled
      cases ends
      exact ⟨ready.1, ready.2, handled⟩
    · cases ends
  · cases ends

/-- An execution is a run. -/
theorem execute_reaches {s s' : State} {inputs : List StepInput}
    (run : ReachableBy env allowed s) (ends : execute env allowed s inputs = some s')
    : ReachableBy env allowed s' :=
  execute_keeps (fun _ _ _ run ok step => .step run ok step) run ends

/-- An execution whose result passes a test reaches a state that does. -/
theorem execute_any {s : State} {inputs : List StepInput} (test : State → Bool)
    (run : ReachableBy env allowed s) (passed : (execute env allowed s inputs).any test = true)
    : ∃ s', ReachableBy env allowed s' ∧ test s' = true := by
  obtain ⟨s', ends, passes⟩ := (Option.any_eq_true _ _).mp passed
  exact ⟨s', execute_reaches run ends, passes⟩

/-- Whether an input can be handed over and stops at the fault. -/
def stopsAt (env : Env) (input : StepInput) (error : Fault) (s : State) : Bool :=
  decide (Enabled s input.2)
    && match handleInput env input.1 input.2 s with
      | .done _ _ => false
      | .fault error' _ => error' == error

theorem fault_of_stopsAt {env : Env} {input : StepInput} {error : Fault} {s : State}
    (stops : stopsAt env input error s = true)
    : Enabled s input.2 ∧ ∃ s', handleInput env input.1 input.2 s = .fault error s' := by
  unfold stopsAt at stops
  rw [Bool.and_eq_true, decide_eq_true_iff] at stops
  refine ⟨stops.1, ?_⟩
  cases ends : handleInput env input.1 input.2 s with
  | done value s' =>
      rw [ends] at stops
      cases stops.2
  | fault error' s' =>
      rw [ends] at stops
      exact ⟨s', by rw [eq_of_beq stops.2]⟩

-----------------------------------------------------------------------------------------
-- Concrete surroundings
-----------------------------------------------------------------------------------------

/-- The modules just loaded: file transfer over in-band bytestreams. -/
def loaded : State where
  sessions := .empty 0
  infoList := .empty 1
  transports := .empty 0
  jingleIBBs := []
  ackHandlers := .empty 0
  idHandlers := []
  events := .empty 0
  appHandlers := [{
    xmlns := NS_JINGLE_APP_FT, funcs := .fileTransfer, transtype := .streaming
  }]
  transportHandlers := [{
    xmlns := NS_JINGLE_TRANSPORT_IBB, funcs := .ibb, transtype := .streaming
    priority := JINGLE_TRANSPORT_PRIO_LOW
  }]
  localIps := []
  clock := 0
  sent := []
  disk := []
  stopReports := []
  accepted := []
  closedByPeer := []
  fired := []
  inits := []
  starts := []
  handles := []
  packets := []
  staleReads := 0

theorem loaded_initial : Initial loaded where
  sessions := rfl
  infoList := rfl
  transports := rfl
  jingleIBBs := rfl
  ackHandlers := rfl
  idHandlers := rfl
  events := rfl
  sent := rfl
  disk := rfl
  accepted := rfl
  closedByPeer := rfl
  fired := rfl
  packets := rfl

theorem loaded_reached (env : Env) (allowed : State → StepInput → Prop)
    : ReachableBy env allowed loaded :=
  .start loaded_initial

/-- Library functions on the few values that concrete runs use. -/
def plainEnv : Env where
  checkJidSyntax _ := false
  jidtodisp jid := jid
  pathGetBasename path := path
  buildFilename dir name := dir ++ "/" ++ name
  expandFilename name := name
  fromIso8601 _ := 0
  toIso8601 _ := none
  md5 _ := "d41d8cd98f00b204e9800998ecf8427e"
  base64Encode _ := ""
  base64Decode _ := []
  inetAddressFromString _ := none

/-- Library functions for runs that transfer no file or the bytes 1 to 4. -/
def fileEnv : Env :=
  { plainEnv with
    md5 := fun bytes =>
      if bytes = [1, 2, 3, 4] then "08d6c05a21512a79a1dfeb9d2a8f262f"
      else "d41d8cd98f00b204e9800998ecf8427e"
    base64Encode := Base64.encode
    base64Decode := Base64.decode }

/-- A quiet world: every call succeeds and freed memory is left as it was. -/
def plainWorld : World where
  rosterFind _ := true
  jingleFtDir := none
  freedLink := .null
  evsNew := true
  myJid := "me@here/mcabber"
  generateSid := "our-sid"
  generateTransportSid := "our-stream"
  generateCid _ := "cid"
  port := 0
  sendOk := true
  write :=
    { opened := true, encoded := true, status := true, written := 0, flushed := true, reached := 0 }
  shutdown _ := 4096
  file := none
  currentJid := none
  compatibleRes := none

/-- A world in which `/jft send` finds a file and a buddy to send it to. -/
def offeringWorld (reads : List ReadResult) : World :=
  { plainWorld with
    file := some { regular := true, mtime := 0, size := 4, opened := some reads, encoded := true }
    currentJid := some "romeo@verona"
    compatibleRes := some "a" }

/-- A `<jingle/>` request from a peer to us. -/
def jingleSet (fromJid action sid : String) (contents : List LmMessageNode) : LmMessage where
  subType := .set
  node := element "iq" [("from", fromJid), ("to", "me@here/mcabber"), ("id", "q1")]
    [element "jingle" [("xmlns", NS_JINGLE), ("action", action), ("sid", sid)] contents]

/-- A `<jingle/>` request about a session, as it is checked. -/
def requestNode (action : JingleAction) (sid : String) (children : List LmMessageNode)
    : JingleNode where
  message := jingleSet "romeo@verona/a" action.name sid children
  node := element "jingle" [("xmlns", NS_JINGLE), ("action", action.name), ("sid", sid)] children
  action := action
  initiator := none
  responder := none
  sid := sid
  content := []
  contentFreed := false

/-- The session "s1" of a peer, without contents. -/
def bareSession : JingleSession where
  sid := "s1"
  origin := .incoming
  fromJid := "romeo@verona/a"
  toJid := "me@here/mcabber"
  content := []

/-- Only that session is listed. -/
def oneSession : State := { loaded with sessions := (Pool.empty 0).alloc bareSession }

/-- A reply to an IQ of ours. -/
def replyOf (subType : LmMessageSubType) : LmMessage where
  subType := subType
  node := element "iq" [] []

/-- A file of four bytes offered over an in-band bytestream. -/
def offeredContent (name stream : String) : LmMessageNode :=
  element "content" [("name", name), ("creator", "initiator")]
    [element "description" [("xmlns", NS_JINGLE_APP_FT)]
      [element "offer" [] [element "file"
        [("xmlns", NS_SI_FT), ("name", "notes"), ("size", "4")] []]],
     element "transport"
      [("xmlns", NS_JINGLE_TRANSPORT_IBB), ("sid", stream), ("block-size", "4096")] []]

/-- A file offered to us. -/
def fileOffer : LmMessage :=
  jingleSet "romeo@verona/a" "session-initiate" "s1" [offeredContent "file" "b1"]

/-- A file of four bytes, read at once. -/
def fourBytes : List ReadResult :=
  [.chunk { bytes := [1, 2, 3, 4], nonempty := by decide, bounded := by decide }]

/-- The peer accepts our offer with this block size. -/
def acceptSet (blocksize : String) : LmMessage :=
  jingleSet "romeo@verona/a" "session-accept" "our-sid"
    [element "content" [("name", "file"), ("creator", "initiator")]
      [element "description" [("xmlns", NS_JINGLE_APP_FT)]
        [element "offer" [] [element "file"
          [("xmlns", NS_SI_FT), ("name", "notes"), ("size", "4")] []]],
       element "transport" [("xmlns", NS_JINGLE_TRANSPORT_IBB), ("sid", "our-stream"),
          ("block-size", blocksize)] []]]

/-- An offer of these reads that was accepted with a block size of two bytes. -/
def acceptedOffer (reads : List ReadResult) : List StepInput := [
  (offeringWorld reads, .jftSend (some "notes")),
  (plainWorld, .jingleIq (acceptSet "2"))
]

/-- The peer announces the hash of its file. -/
def hashElement : LmMessageNode :=
  textElement "hash" [("xmlns", NS_JINGLE_APP_FT_INFO)] (some "08d6c05a21512a79a1dfeb9d2a8f262f")

/-- A data packet of a stream. -/
def dataSet (stream seq : String) : LmMessage where
  subType := .set
  node := element "iq" [("from", "romeo@verona/a"), ("to", "me@here/mcabber"), ("id", "d1")]
    [textElement "data" [("xmlns", NS_TRANSPORT_IBB), ("sid", stream), ("seq", seq)] (some "AA==")]

end McabberJingle
