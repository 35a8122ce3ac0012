import McabberJingle.Effects.Dialogue
import McabberJingle.Guarantees.Consent
import McabberJingle.Transfer.Arrival

/-! Data is only sent to who asked for it: a transport is heard for ACTIVE contents only, contents
become ACTIVE by a session-accept, and an instance of these modules sends none without its user.
-/

namespace McabberJingle

open Program Program.Prog

variable {env : Env} {s s' : State} {allowed : State → StepInput → Prop}

-----------------------------------------------------------------------------------------
-- What data is sent for
-----------------------------------------------------------------------------------------

/-- Data goes out for sessions that are served, anything else may be said. -/
def Speech.onlyFor (serves : SessionIdent → Prop) : Speech where
  utters ident iq := iq.isData = true → serves ident
  serves := serves

theorem onlyFor_maySay {serves : SessionIdent → Prop}
    (same : ∀ ident ident', serves ident → ident'.sid = ident.sid →
      asciiLower ident'.recipient = asciiLower ident.recipient → serves ident')
    {input : Input}
    (reported : ∀ correct ref, input = .transportInitialize correct ref → Refers serves s ref)
    : MaySay env (.onlyFor serves) s input := by
  have other {ident : SessionIdent} {iq : LmMessage} (plain : iq.isData = false)
      : (Speech.onlyFor serves).utters ident iq := by
    intro data
    rw [plain] at data
    cases data
  have speak : MaySpeak env (.onlyFor serves) := {
    same
    data := fun _ _ _ _ _ served _ => served
    hash := fun _ _ _ _ => other (by simp)
    success := fun _ _ _ => other (by simp) }
  have invite : MayInvite (.onlyFor serves) := fun _ _ _ _ => other (by simp)
  cases input with
  | jingleIq message => exact fun _ _ => other (by simp)
  | ibbIq message => trivial
  | reply ah message => exact speak
  | tick => exact speak
  | wait seconds => trivial
  | event id context =>
      exact fun _ _ => ⟨fun _ _ _ _ _ => other (by simp), fun _ _ _ => other (by simp)⟩
  | transportInitialize correct ref => exact ⟨speak, reported correct ref rfl⟩
  | jftSend arg => exact invite
  | jftRetry arg => exact invite
  | jftFlush => trivial

/-- If transports only report on sessions that are served, data is only sent for these. -/
theorem data_served (serves : SessionIdent → Prop)
    (same : ∀ ident ident', serves ident → ident'.sid = ident.sid →
      asciiLower ident'.recipient = asciiLower ident.recipient → serves ident')
    (run : ReachableBy env allowed s)
    (reported : ∀ s w correct ref, ReachableBy env allowed s →
      allowed s (w, .transportInitialize correct ref) →
      Enabled s (.transportInitialize correct ref) → Refers serves s ref)
    : ∀ ident iq, .request ident iq ∈ s.sent → iq.isData = true → serves ident := by
  refine (spoken_reached (v := .onlyFor serves) run ?_).1
  rintro s ⟨w, input⟩ run ok enabled
  refine onlyFor_maySay same ?_
  rintro correct ref rfl
  exact reported s w correct ref run ok enabled

/-- The `session_content` that a transport reports on. -/
def Input.reported : Input → Option SessionContentRef
  | .transportInitialize _ ref => some ref
  | _ => none

/-- Whether a transport reports on sessions with these sids and peers only. -/
def ReportsOnly (mayStart : String → List Char → Prop) (s : State) (input : StepInput) : Prop :=
  ∀ ref ∈ input.2.reported, ∀ js ∈ s.sessions.get? ref.owner,
    mayStart js.sid (asciiLower js.recipient)

/-- Data is only sent for sessions that a transport has reported on, or that are named like one of
them; without a report none is ever sent.
-/
theorem data_only_after_report (env : Env) (mayStart : String → List Char → Prop) (s : State)
    (run : ReachableBy env (ReportsOnly mayStart) s)
    : ∀ ident iq, .request ident iq ∈ s.sent → iq.isData = true →
        mayStart ident.sid (asciiLower ident.recipient) := by
  refine data_served (fun ident => mayStart ident.sid (asciiLower ident.recipient)) ?_ run ?_
  · intro ident ident' started sid peer
    rwa [sid, peer]
  · intro s w correct ref _ ok enabled
    obtain ⟨content, found, _⟩ := (Option.any_eq_true _ _).mp enabled
    obtain ⟨js, listed, _⟩ := Option.bind_eq_some_iff.mp found
    exact refers_of_listed ref.name listed (ok ref rfl js listed)

instance (mayStart : String → List Char → Prop) [∀ sid peer, Decidable (mayStart sid peer)]
    (s : State) (input : StepInput)
    : Decidable (ReportsOnly mayStart s input) := by
  unfold ReportsOnly
  infer_instance

/-- Whether an IQ with data was sent. -/
def State.someData (s : State) : Bool :=
  s.sent.any (fun
    | .reply _ _ => false
    | .request _ iq => iq.isData)

/-- A file is offered and accepted, and its transport reports. -/
def reportedOffer : List StepInput :=
  acceptedOffer fourBytes ++
    [(plainWorld, .transportInitialize true { owner := 0, name := "file" })]

theorem data_only_after_report_reportedOffer
    : ∃ s, ReachableBy plainEnv (ReportsOnly (fun sid _ => sid = "our-sid")) s
        ∧ s.someData = true
        ∧ ∀ ident iq, .request ident iq ∈ s.sent → iq.isData = true → ident.sid = "our-sid" := by
  have passed : (execute plainEnv (ReportsOnly (fun sid _ => sid = "our-sid")) loaded
      reportedOffer).any State.someData = true := by decide +kernel
  obtain ⟨s, run, sent⟩ := execute_any _ (loaded_reached plainEnv _) passed
  exact ⟨s, run, sent, data_only_after_report plainEnv (fun sid _ => sid = "our-sid") s run⟩

-----------------------------------------------------------------------------------------
-- Who made a content ACTIVE
-----------------------------------------------------------------------------------------

/-- Every session with an ACTIVE content was granted that. -/
def ActiveGranted (granted : SessionIdent → Prop) (s : State) : Prop :=
  ∀ p js, s.sessions.get? p = some js → Active s p → granted (js.ident p)

/-- Everything is allowed, but only these sessions may become ACTIVE. -/
def Rights.activating (activate : SessionPtr → Prop) : Rights := { Rights.all with activate }

section Activating

variable {activate : SessionPtr → Prop} {inv : State → Prop}

theorem activating_maySend : MaySend (.activating activate) inv := by
  constructor <;> intros <;> trivial

theorem activating_mayServe {w : World} {jn : JingleNode} (layout : ∀ s, inv s → Layout s)
    (accept : jn.action = .sessionAccept → ∀ p js, sessionFind s jn = some (p, js) → activate p)
    : MayServe (.activating activate) inv env w s jn where
  initiate _ _ _ := {
    newFt := trivial
    create := fun _ _ _ _ _ _ => trivial
    build := fun _ _ => {
      layout
      grow := trivial
      build := trivial
      describe := fun _ _ => trivial
      carry := fun _ _ => trivial }
    bind := fun _ _ _ _ _ _ _ _ _ _ => ⟨trivial, trivial, fun _ _ => trivial⟩
    close := fun _ _ => trivial
    ask := fun _ _ => trivial
    unsupported := fun _ _ _ _ _ _ _ => trivial }
  info _ _ _ _ _ _ _ _ _ := trivial
  accept action _ p js found _ :=
    ⟨trivial, accept action p js found, fun _ _ _ => trivial, fun _ _ _ _ _ _ _ _ => trivial⟩
  terminate _ _ _ _ :=
    ⟨trivial, fun _ => trivial, trivial, .free (fun _ => trivial) (fun _ => trivial)⟩

theorem activating_mayOffer {w : World} (layout : ∀ s, inv s → Layout s)
    : MayOffer (.activating activate) inv w s where
  layout := layout
  newFt := trivial
  ft _ := trivial
  create _ _ _ _ _ _ _ := trivial
  grow _ _ := trivial
  build _ := trivial
  describe _ _ _ := trivial
  carry _ _ _ := trivial
  size := trivial
  await _ := trivial
  close _ _ := trivial

/-- Only a session-accept for a listed session makes contents ACTIVE. -/
theorem activating_mayHandle {w : World} {input : Input} (layout : ∀ s, inv s → Layout s)
    (accept : ∀ jn ∈ input.request env, jn.action = .sessionAccept → ∀ p js,
      sessionFind s jn = some (p, js) → activate p)
    : MayHandle (.activating activate) inv env w s input := by
  cases input with
  | jingleIq message =>
      exact fun jn valid => activating_mayServe layout (accept jn valid)
  | ibbIq message => exact fun _ _ => ⟨trivial, fun _ => trivial⟩
  | reply ah message => exact ⟨activating_maySend, trivial, trivial⟩
  | tick => exact ⟨activating_maySend, fun _ => trivial, fun _ => trivial⟩
  | wait seconds => trivial
  | event id context =>
      exact fun _ _ => ⟨fun _ => ⟨trivial, trivial⟩, fun _ _ _ => ⟨trivial, trivial⟩⟩
  | transportInitialize correct ref => exact activating_maySend
  | jftSend arg => exact activating_mayOffer layout
  | jftRetry arg => exact activating_mayOffer layout
  | jftFlush => exact fun _ => trivial

end Activating

/-- During a turn that starts in `s₀`: the sessions of then are still themselves. -/
structure GrantedFrom (granted : SessionIdent → Prop) (s₀ s : State) : Prop where
  active : ActiveGranted granted s
  known : ∀ ident, Identified ident s₀ → Identified ident s

/-- The sessions that a turn from `s₀` may make ACTIVE. -/
def MayBecomeActive (granted : SessionIdent → Prop) (s₀ : State) (p : SessionPtr) : Prop :=
  ∃ js, s₀.sessions.get? p = some js ∧ granted (js.ident p)

theorem grantedFrom_stable (granted : SessionIdent → Prop) (s₀ : State)
    : Stable (.activating (MayBecomeActive granted s₀)) (GrantedFrom granted s₀) := by
  intro s s' holds effect
  refine ⟨fun p js listed active => ?_,
    fun ident before => identified_effect (holds.known ident before) effect⟩
  rcases active_effect effect active with before | ⟨js₀, listed₀, granted₀⟩
  · obtain ⟨old, there, _⟩ := id before
    have same : js.ident p = old.ident p :=
      (identified_effect (identified_of_listed there) effect).2 js listed
    rw [same]
    exact holds.active p old there before
  · have known := identified_effect (holds.known _ (identified_of_listed listed₀)) effect
    have same : js.ident p = js₀.ident p := known.2 js listed
    rw [same]
    exact granted₀

/-- If every session-accept that is found a session for grants it, ACTIVE sessions were granted. -/
theorem activeGranted_reached {granted : SessionIdent → Prop} (run : ReachableBy env allowed s)
    (grants : ∀ s w input, allowed s (w, input) → ∀ jn ∈ input.request env,
      jn.action = .sessionAccept → ∀ p js, sessionFind s jn = some (p, js) → granted (js.ident p))
    : ActiveGranted granted s := by
  refine reached_invariant run ?_ ?_
  · intro s initial p js listed
    rw [initial.sessions] at listed
    cases listed
  · intro s w input active layout ok _
    refine ⟨_, _, grantedFrom_stable granted s, ⟨active, fun _ known => known⟩,
      fun _ holds _ => holds.active, ?_⟩
    refine activating_mayHandle (fun _ => And.right) (fun jn request accept p js found => ?_)
    exact ⟨js, sessionFindBySid_listed found, grants s w input ok jn request accept p js found⟩

-----------------------------------------------------------------------------------------
-- What the peer's instance accepts
-----------------------------------------------------------------------------------------

/-- Whether an IQ of ours accepts a session. -/
def LmMessage.isSessionAccept (iq : LmMessage) : Bool :=
  (iq.node.getChild "jingle").any (fun jingle =>
    jingle.getAttribute "action" == some "session-accept")

/-- The session that a `<jingle/>` is about. -/
def LmMessage.jingleSid (iq : LmMessage) : Option String :=
  (iq.node.getChild "jingle").bind (fun jingle => jingle.getAttribute "sid")

/-- With this input the user accepts the invitation of `js`, listed at `p`. -/
structure Accepts (s : State) (input : Input) (p : SessionPtr) (js : JingleSession) : Prop where
  answers : ∃ id, input = .event id .accept ∧ s.events.get? id = some p
  listed : s.sessions.get? p = some js

/-- At some turn of the run the user accepted a session with this sid and peer. -/
def UserAccepted (history : List (State × StepInput)) (sid peer : String) : Prop :=
  ∃ turn ∈ history, ∃ p js, Accepts turn.1 turn.2.2 p js ∧ js.sid = sid ∧ js.recipient = peer

/-- An acceptance is about a session that the user accepts at this turn, and goes to its peer. -/
def Speech.accepting (s : State) (input : Input) : Speech where
  utters _ iq := iq.isSessionAccept = true → ∃ p js, Accepts s input p js
    ∧ iq.jingleSid = some js.sid ∧ iq.getTo = some js.recipient
  serves _ := True

theorem accepting_maySay {input : Input} (enabled : Enabled s input)
    : MaySay env (.accepting s input) s input := by
  have other {ident : SessionIdent} {iq : LmMessage} (plain : iq.isSessionAccept = false)
      : (Speech.accepting s input).utters ident iq := by
    intro accept
    rw [plain] at accept
    cases accept
  have speak : MaySpeak env (.accepting s input) := {
    same := fun _ _ _ _ _ => trivial
    data := fun _ _ _ _ _ _ => other rfl
    hash := fun _ _ _ _ => other rfl
    success := fun _ _ _ => other rfl }
  have invite : MayInvite (.accepting s input) := fun _ _ _ _ => other rfl
  cases input with
  | jingleIq message => exact fun _ _ => other rfl
  | ibbIq message => trivial
  | reply ah message => exact speak
  | tick => exact speak
  | wait seconds => trivial
  | event id context =>
      refine fun p pending => ⟨?_, fun _ _ _ => other rfl⟩
      rintro rfl js listed contents _ _
      exact ⟨p, js, ⟨⟨id, rfl, pending⟩, listed⟩, rfl, jinglesessionIq_getTo js _ contents⟩
  | transportInitialize correct ref =>
      refine ⟨speak, ?_⟩
      obtain ⟨content, found, _⟩ := (Option.any_eq_true _ _).mp enabled
      obtain ⟨js, listed, _⟩ := Option.bind_eq_some_iff.mp found
      exact refers_of_listed ref.name listed trivial
  | jftSend arg => exact invite
  | jftRetry arg => exact invite
  | jftFlush => trivial

/-- By induction on the run: session-accepts are sent for the user only. -/
theorem accepted_by_user {history : List (State × StepInput)}
    (run : Trace Initial (Step env) history s)
    : (∀ ident iq, .request ident iq ∈ s.sent → iq.isSessionAccept = true →
        ∃ sid peer, iq.jingleSid = some sid ∧ iq.getTo = some peer
          ∧ UserAccepted history sid peer)
      ∧ Awaits (fun _ => True) s := by
  induction run with
  | start initial =>
      refine ⟨fun ident iq member => ?_, fun ah handle ref there _ => ?_⟩
      · rw [initial.sent] at member
        cases member
      · rw [initial.ackHandlers] at there
        cases there
  | @step history s s' input run next ih =>
      obtain ⟨w, input⟩ := input
      obtain ⟨sent, awaits⟩ := ih
      have spoke : Spoke (.accepting s input) s s' :=
        Step.spoke next awaits (accepting_maySay next.1)
      refine ⟨fun ident iq member accept => ?_,
        Awaits.spoken (v := .accepting s input) awaits spoke⟩
      rcases spoke.sent ident iq member with earlier | uttered
      · obtain ⟨sid, peer, about, address, turn, taken, accepted⟩ := sent ident iq earlier accept
        exact ⟨sid, peer, about, address, turn, List.mem_append_left _ taken, accepted⟩
      · obtain ⟨p, js, accepts, about, address⟩ := uttered accept
        exact ⟨js.sid, js.recipient, about, address, (s, w, input),
          List.mem_append_right _ List.mem_cons_self, p, js, accepts, rfl, rfl⟩

-----------------------------------------------------------------------------------------
-- Two instances
-----------------------------------------------------------------------------------------

/-- Every action but the unknown one is written with its name. -/
theorem jingleActionFromStr_name {str : String}
    (known : jingleActionFromStr str ≠ .unknownAction)
    : str = (jingleActionFromStr str).name := by
  have named : ∀ entry ∈ jingleActionList, entry.2 ≠ .unknownAction →
      entry.1 = some entry.2.name := by
    decide
  unfold jingleActionFromStr at known ⊢
  cases found : jingleActionList.find? (fun entry => entry.1 == some str) with
  | none => simp [found] at known
  | some entry =>
      rw [found] at known
      have written : entry.1 = some str := by simpa using List.find?_some found
      have name := named entry (List.mem_of_find?_eq_some found) known
      rw [written] at name
      exact Option.some.inj name

/-- A request reads its sid and its action from the `<jingle/>`. -/
theorem jingleRequest_reads {message : LmMessage} {jn : JingleNode}
    (valid : jingleRequest env message = some jn)
    : message.jingleSid = some jn.sid
      ∧ (jn.action = .sessionAccept → message.isSessionAccept = true) := by
  unfold jingleRequest at valid
  split at valid
  · cases valid
  split at valid
  · cases valid
  rename_i jnode child
  split at valid
  · cases valid
  rw [LmMessage.jingleSid, LmMessage.isSessionAccept, child]
  unfold checkJingle at valid
  split at valid
  · rename_i actionstr sid named numbered
    dsimp only at valid
    split at valid
    · cases valid
    split at valid
    · cases valid
    rename_i known
    cases valid
    refine ⟨numbered, fun accept => ?_⟩
    have accept : jingleActionFromStr actionstr = .sessionAccept := accept
    have written := jingleActionFromStr_name known
    rw [accept] at written
    change (jnode.getAttribute "action" == some "session-accept") = true
    rw [named, written]
    rfl
  · cases valid

/-- Session-accepts are stamped with their sender, and those of the peer are what its instance, now
in `r`, sent to `me`. An IQ without a sender would find the sessions of everybody.
-/
def Genuine (env : Env) (me peer : String) (r : State) (_ : State) (input : StepInput) : Prop :=
  ∀ jn ∈ input.2.request env, jn.action = .sessionAccept →
    ∃ sender, jn.message.getFrom = some sender
      ∧ (asciiLower sender = asciiLower peer →
        ∃ ident iq, .request ident iq ∈ r.sent ∧ iq.getTo = some me
          ∧ jn.message = iq.stamped sender)

section Peers

variable {env' : Env} {me peer : String} {r : State} {history : List (State × StepInput)}

/-- A session-accept that the peer's instance sent was asked for by its user. -/
theorem stamped_accept (peerRun : Trace Initial (Step env') history r) {jn : JingleNode}
    {message : LmMessage}
    (valid : jingleRequest env message = some jn) (accept : jn.action = .sessionAccept)
    {ident : SessionIdent} {iq : LmMessage} {sender : String}
    (sent : .request ident iq ∈ r.sent) (address : iq.getTo = some me)
    (stamped : message = iq.stamped sender)
    : UserAccepted history jn.sid me := by
  obtain ⟨about, isAccept⟩ := jingleRequest_reads valid
  rw [stamped] at about isAccept
  have asked : iq.isSessionAccept = true := by
    simpa [LmMessage.isSessionAccept] using isAccept accept
  obtain ⟨sid, addressee, named, recipient, accepted⟩ :=
    (accepted_by_user peerRun).1 ident iq sent asked
  have same : some sid = some jn.sid := by
    rw [← named, ← about]
    simp [LmMessage.jingleSid]
  cases same
  cases recipient.symm.trans address
  exact accepted

/-- In a genuine run a session-accept that finds a session with the peer was asked for by the
peer's user.
-/
theorem genuine_accept (peerRun : Trace Initial (Step env') history r) {input : StepInput}
    (genuine : Genuine env me peer r s input) {jn : JingleNode}
    (request : jn ∈ input.2.request env) (accept : jn.action = .sessionAccept) {p : SessionPtr}
    {js : JingleSession} (found : sessionFind s jn = some (p, js))
    (toPeer : asciiLower js.recipient = asciiLower peer)
    : UserAccepted history js.sid me := by
  obtain ⟨sender, known, fromPeer⟩ := genuine jn request accept
  obtain ⟨sid, key⟩ := sessionFindBySid_key found
  rw [known, gAsciiStrcaseeq, beq_iff_eq] at key
  obtain ⟨ident, iq, sent, address, stamped⟩ := fromPeer (key.symm.trans toPeer)
  obtain ⟨w, input⟩ := input
  cases input with
  | jingleIq message =>
      have valid : jingleRequest env message = some jn := request
      rw [(jingleRequest_node valid).1] at stamped
      rw [sid]
      exact stamped_accept peerRun valid accept sent address stamped
  | _ => cases request

end Peers

/-- Between two instances: data is only sent to the peer for the sid of a session with us that its
user accepted.
-/
theorem data_by_consent_of_peer (env env' : Env) (me peer : String)
    (history : List (State × StepInput)) (r : State)
    (peerRun : Trace Initial (Step env') history r) (s : State)
    (run : ReachableBy env (Genuine env me peer r) s)
    : ∀ ident iq, .request ident iq ∈ s.sent → iq.isData = true →
        asciiLower ident.recipient = asciiLower peer → UserAccepted history ident.sid me := by
  let consented (ident : SessionIdent) : Prop :=
    asciiLower ident.recipient = asciiLower peer → UserAccepted history ident.sid me
  refine data_served consented ?_ run ?_
  · intro ident ident' served sameSid samePeer toPeer
    rw [sameSid]
    exact served (samePeer.symm.trans toPeer)
  · intro s w correct ref run ok enabled
    obtain ⟨content, found, active⟩ := (Option.any_eq_true _ _).mp enabled
    obtain ⟨js, listed, named⟩ := Option.bind_eq_some_iff.mp found
    have granted : ActiveGranted consented s := by
      refine activeGranted_reached run ?_
      intro s w input genuine jn request accept p js found toPeer
      exact genuine_accept peerRun genuine request accept found toPeer
    refine refers_of_listed ref.name listed (granted ref.owner js listed ?_)
    exact ⟨js, listed, content, List.mem_of_find?_eq_some named, by simpa using active⟩

/-- An execution is a run of any kind that its inputs are allowed in. -/
theorem execute_allowed {inputs : List StepInput} (run : ReachableBy env allowed s)
    (all : ∀ input ∈ inputs, ∀ s, allowed s input)
    (ends : execute env (fun _ _ => True) s inputs = some s')
    : ReachableBy env allowed s' := by
  induction inputs generalizing s with
  | nil =>
      cases ends
      exact run
  | cons input rest ih =>
      simp only [execute, true_and] at ends
      split at ends
      · rename_i enabled
        split at ends
        · rename_i next handled
          refine ih ?_ (fun other member => all other (List.mem_cons_of_mem _ member)) ends
          exact .step run (all input List.mem_cons_self s) ⟨enabled, handled⟩
        · cases ends
      · cases ends

/-- The peer is invited, and its user accepts. -/
def peerAccepts : List StepInput := [
  (plainWorld, .jingleIq
    (jingleSet "me@here/mcabber" "session-initiate" "our-sid"
      [offeredContent "file" "our-stream"])),
  (plainWorld, .event 0 .accept)
]

/-- A file is offered to a peer, who answers with this, and a transport reports. -/
def offerAnswered (answer : LmMessage) : List StepInput := [
  (offeringWorld fourBytes, .jftSend (some "notes")),
  (plainWorld, .jingleIq answer),
  (plainWorld, .transportInitialize true { owner := 0, name := "file" })
]

/-- Whether what was sent makes an offer of ours send data. -/
def Sent.opens : Sent → Bool
  | .reply _ _ => false
  | .request _ iq =>
      iq.getTo == some "me@here/mcabber"
        && (execute plainEnv (fun _ _ => True) loaded
          (offerAnswered (iq.stamped "romeo@verona/a"))).any State.someData

theorem data_by_consent_of_peer_offerAnswered
    : ∃ history r s, Trace Initial (Step plainEnv) history r
        ∧ ReachableBy plainEnv (Genuine plainEnv "me@here/mcabber" "romeo@verona/a" r) s
        ∧ s.someData = true
        ∧ ∀ ident iq, .request ident iq ∈ s.sent → iq.isData = true →
            asciiLower ident.recipient = asciiLower "romeo@verona/a" →
            UserAccepted history ident.sid "me@here/mcabber" := by
  have passed : (execute plainEnv (fun _ _ => True) loaded peerAccepts).any
      (fun r => r.sent.any Sent.opens) = true := by decide +kernel
  obtain ⟨r, reached, opens⟩ := execute_any _ (loaded_reached plainEnv _) passed
  obtain ⟨history, peerRun⟩ := reached.traced
  obtain ⟨sent, member, opens⟩ := List.any_eq_true.mp opens
  cases sent with
  | reply query answer => cases opens
  | request ident iq =>
      simp only [Sent.opens, Bool.and_eq_true, beq_iff_eq] at opens
      obtain ⟨address, ours⟩ := opens
      obtain ⟨s, ends, data⟩ := (Option.any_eq_true _ _).mp ours
      have run
          : ReachableBy plainEnv (Genuine plainEnv "me@here/mcabber" "romeo@verona/a" r) s := by
        refine execute_allowed (loaded_reached plainEnv _) ?_ ends
        intro input listed s jn request accept
        simp only [offerAnswered, List.mem_cons, List.not_mem_nil, or_false] at listed
        rcases listed with rfl | rfl | rfl
        · cases request
        · have valid : jingleRequest plainEnv (iq.stamped "romeo@verona/a") = some jn := request
          have message := (jingleRequest_node valid).1
          exact ⟨"romeo@verona/a", message ▸ LmMessage.getFrom_stamped iq _, fun _ =>
            ⟨ident, iq, member, address, message⟩⟩
        · cases request
      exact ⟨history, r, s, peerRun, run, data, data_by_consent_of_peer plainEnv plainEnv
        "me@here/mcabber" "romeo@verona/a" history r peerRun s run⟩

end McabberJingle
