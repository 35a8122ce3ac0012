import McabberJingle.Effects.Machine
import McabberJingle.System.Execution

/-! Every IQ for a session goes to its peer. Two of the six places that choose an addressee
always write to `to`, which is our own address when the session is incoming: ending a
declined invitation, and ending one of which no content was kept.
-/

namespace McabberJingle

open Program Program.Prog

-----------------------------------------------------------------------------------------
-- The invariant
-----------------------------------------------------------------------------------------

/-- Writing to `to` reaches the peer. -/
def SessionIdent.outgoing (ident : SessionIdent) : Prop :=
  ident.origin = .incoming → ident.fromJid = ident.toJid

/-- IQs went to the peers of their sessions. An incoming session receives its files and has
nothing waiting in its transports, so the sender never writes on its behalf.
-/
structure Addressed (s : State) : Prop where
  sent : ∀ ident iq, .request ident iq ∈ s.sent → iq.getTo = some ident.recipient
  receives : ∀ p js, s.sessions.get? p = some js → js.origin = .incoming →
    ∀ d ft, Describes s p d → s.infoList.get? d = some ft → ft.dir = .incoming
  quiet : ∀ p js, s.sessions.get? p = some js → js.origin = .incoming →
    ∀ t transport, Carries s p t → s.transports.get? t = some transport →
      transport.buffered = []

/-- During a turn that started in `s₀` and creates sessions of one origin only. -/
structure AddressedFrom (s₀ : State) (origin : SessionOrigin) (s : State) : Prop where
  addressed : Addressed s
  layout : Layout s
  since : Since s₀ s
  newSession : ∀ p js, s₀.sessions.next ≤ p → s.sessions.get? p = some js → js.origin = origin
  newFt : origin = .incoming → ∀ d ft, s₀.infoList.next ≤ d → s.infoList.get? d = some ft →
    ft.dir = .incoming
  newTransport : ∀ t transport, s₀.transports.next ≤ t → s.transports.get? t = some transport →
    transport.buffered = []
  oldSession : origin = .incoming → ∀ p t, Carries s p t → p < s₀.sessions.next →
    t < s₀.transports.next

/-- During that turn new sessions have that origin, and only an incoming one gets the new
transfer; transports of others are left alone while a file is offered.
-/
def Rights.toPeer (s₀ : State) (origin : SessionOrigin) : Rights :=
  { Rights.all with
    openSession := fun _ js => js.origin = origin
    newFt := fun dir => origin = .incoming → dir = .incoming
    describe := fun p d => s₀.sessions.next ≤ p ∧ (origin = .incoming → s₀.infoList.next ≤ d)
    carry := fun p t => s₀.transports.next ≤ t ∧ (origin = .incoming → s₀.sessions.next ≤ p)
    transport := fun _ => origin = .incoming
    outward := SessionIdent.outgoing }

section Turn

variable {s₀ s s' : State} {origin : SessionOrigin}

theorem SessionIdent.outgoing.recipient {ident : SessionIdent} (out : ident.outgoing)
    : ident.toJid = ident.recipient := by
  unfold SessionIdent.recipient
  cases known : ident.origin with
  | incoming => exact (out known).symm
  | outgoing => rfl

/-- The IQ of a request goes to the peer. -/
theorem request_addressed {p : SessionPtr} {js : JingleSession} {iq : LmMessage}
    {callback : Option AckCallback} (request : Request (.toPeer s₀ origin) p js iq callback)
    : iq.getTo = some (js.ident p).recipient := by
  cases request with
  | addressed address more await => exact address
  | outward address allowed more await => exact address.trans (congrArg some allowed.recipient)
  | decline reason allowed decline =>
      exact (sessionTerminateIq_getTo js reason).trans (congrArg some allowed.recipient)

theorem sent_effect (addressed : Addressed s) (effect : Effect (.toPeer s₀ origin) s s')
    : ∀ ident iq, .request ident iq ∈ s'.sent → iq.getTo = some ident.recipient := by
  intro ident iq member
  cases effect with
  | finish p js reason listed allowed outward =>
      rcases List.mem_append.mp member with old | new
      · exact addressed.sent ident iq old
      · cases List.mem_singleton.mp new
        exact (sessionTerminateIq_getTo js reason).trans (congrArg some outward.recipient)
  | request p js iq' callback timeout sendOk listed request timed =>
      cases sendOk with
      | false => exact addressed.sent ident iq member
      | true =>
          rcases List.mem_append.mp member with old | new
          · exact addressed.sent ident iq old
          · cases List.mem_singleton.mp new
            exact request_addressed request
  | packet p js t jibb sc env buf listed carries found allowed outward =>
      rcases List.mem_append.mp member with old | new
      · exact addressed.sent ident iq old
      · cases List.mem_singleton.mp new
        exact (ibbDataIq_getTo env js.toJid buf jibb.sid jibb.seq).trans
          (congrArg some outward.recipient)
  | reply query answer =>
      rcases List.mem_append.mp member with old | new
      · exact addressed.sent ident iq old
      · cases List.mem_singleton.mp new
  | _ => exact addressed.sent ident iq member

/-- Nothing waits in a transport of an incoming session that nobody feeds. -/
theorem AddressedFrom.unfed (holds : AddressedFrom s₀ origin s) {p : SessionPtr}
    {js : JingleSession} (listed : s.sessions.get? p = some js) (incoming : js.origin = .incoming)
    {t : TransportPtr} (carried : Carries s p t)
    : ¬Feeding s t := by
  intro feeding
  obtain ⟨q, js', d, ft, _, carriedQ, described, there, direction⟩ := feeding.session
  have same : q = p := holds.layout.apart q p t carriedQ carried
  subst same
  have received := holds.addressed.receives q js listed incoming d ft described there
  rw [direction] at received
  cases received

/-- A new transport is not fed in this turn. -/
theorem AddressedFrom.newUnfed (holds : AddressedFrom s₀ origin s)
    (serving : origin = .incoming) {t : TransportPtr} (new : s₀.transports.next ≤ t)
    : ¬Feeding s t := by
  intro feeding
  obtain ⟨q, js, d, ft, listed, carried, described, there, direction⟩ := feeding.session
  by_cases old : q < s₀.sessions.next
  · have below := holds.oldSession serving q t carried old
    exact absurd new (Nat.not_le.mpr below)
  · have incoming := holds.newSession q js (Nat.le_of_not_lt old) listed
    have received := holds.addressed.receives q js listed (incoming.trans serving) d ft
      described there
    rw [direction] at received
    cases received

theorem addressedFrom_stable : Stable (.toPeer s₀ origin) (AddressedFrom s₀ origin) := by
  intro s s' holds effect
  have newSession (p : SessionPtr) (js : JingleSession) (new : s₀.sessions.next ≤ p)
      (listed : s'.sessions.get? p = some js)
      : js.origin = origin := by
    rcases origin_effect effect listed with ⟨old, there, same⟩ | ⟨_, opened⟩
    · exact same.symm.trans (holds.newSession p old new there)
    · exact opened
  have newFt (serving : origin = .incoming) (d : FtPtr) (ft : JingleFT)
      (new : s₀.infoList.next ≤ d) (there : s'.infoList.get? d = some ft)
      : ft.dir = .incoming := by
    rcases ft_effect effect there with ⟨old, before, same⟩ | ⟨_, allowed⟩
    · exact same.symm.trans (holds.newFt serving d old new before)
    · exact allowed serving
  have newTransport (t : TransportPtr) (transport : Transport) (new : s₀.transports.next ≤ t)
      (there : s'.transports.get? t = some transport)
      : transport.buffered = [] := by
    by_cases full : transport.buffered = []
    · exact full
    · rcases buffered_effect effect there full with ⟨old, before, waiting⟩ | ⟨serving, feeding⟩
      · exact absurd (holds.newTransport t old new before) waiting
      · exact absurd feeding (holds.newUnfed serving new)
  have sameOrigin {p : SessionPtr} {js old : JingleSession} (listed : s'.sessions.get? p = some js)
      (before : s.sessions.get? p = some old)
      : old.origin = js.origin := by
    have same := (identified_effect (identified_of_listed before) effect).2 js listed
    exact (congrArg SessionIdent.origin same).symm
  refine ⟨⟨sent_effect holds.addressed effect, ?receives, ?quiet⟩,
    layout_effect holds.layout effect, holds.since.trans (since_effect effect), newSession, newFt,
    newTransport, ?oldSession⟩
  case receives =>
    intro p js listed incoming d ft described there
    rcases describes_effect effect described with earlier | ⟨⟨new, newFile⟩, _⟩
    · obtain ⟨old, listed', _⟩ := id earlier
      have known := holds.layout.described p d earlier
      rcases ft_effect effect there with ⟨ft', before, same⟩ | ⟨fresh, _⟩
      · rw [← same]
        exact holds.addressed.receives p old listed' ((sameOrigin listed listed').trans incoming)
          d ft' earlier before
      · exact absurd known (Nat.not_lt.mpr (Nat.le_of_eq fresh.symm))
    · have opened := newSession p js new listed
      have serving : origin = .incoming := opened.symm.trans incoming
      exact newFt serving d ft (newFile serving) there
  case quiet =>
    intro p js listed incoming t transport carried there
    rcases carries_effect effect carried with earlier | ⟨⟨new, _⟩, _⟩
    · obtain ⟨old, listed', _⟩ := id earlier
      have incoming' : old.origin = .incoming := (sameOrigin listed listed').trans incoming
      by_cases full : transport.buffered = []
      · exact full
      · rcases buffered_effect effect there full with ⟨before, found, waiting⟩ | ⟨_, feeding⟩
        · have empty := holds.addressed.quiet p old listed' incoming' t before earlier found
          exact absurd empty waiting
        · exact absurd feeding (holds.unfed listed' incoming' earlier)
    · exact newTransport t transport new there
  case oldSession =>
    intro serving p t carried old
    rcases carries_effect effect carried with earlier | ⟨⟨_, new⟩, _⟩
    · exact holds.oldSession serving p t earlier old
    · exact absurd (new serving) (Nat.not_le.mpr old)

end Turn

-----------------------------------------------------------------------------------------
-- Runs
-----------------------------------------------------------------------------------------

/-- No `reject` answers the invitation of an incoming session, and no session-initiate opens
a session of which no content is kept, unless `from` and `to` are equal.
-/
def Addressable (env : Env) (s : State) (input : StepInput) : Prop :=
  (∀ id ∈ input.2.rejected, ∀ p ∈ s.events.get? id, ∀ js ∈ s.sessions.get? p,
    (js.ident p).outgoing)
  ∧ ∀ jn ∈ input.2.request env, jn.action = .sessionInitiate →
    acceptable env input.1 jn = true → (sessionFind s jn).isNone = true →
    (∀ cn ∈ (checkContents jn).jn.content, contentKept env input.1 s cn = false) →
    ∀ fromJid ∈ jn.message.getFrom, ∀ toJid ∈ jn.message.getTo, fromJid = toJid

instance (ident : SessionIdent) : Decidable ident.outgoing := by
  unfold SessionIdent.outgoing
  infer_instance

instance (env : Env) (s : State) (input : StepInput) : Decidable (Addressable env s input) := by
  unfold Addressable
  infer_instance

theorem addressedFrom_start {s : State} (addressed : Addressed s) (layout : Layout s)
    (origin : SessionOrigin)
    : AddressedFrom s origin s where
  addressed := addressed
  layout := layout
  since := .refl s
  newSession p js new listed := by
    rw [Pool.get?_of_le new] at listed
    cases listed
  newFt _ d ft new there := by
    rw [Pool.get?_of_le new] at there
    cases there
  newTransport t transport new there := by
    rw [Pool.get?_of_le new] at there
    cases there
  oldSession _ p t carried _ := layout.carried p t carried

/-- A session with something to send is outgoing. -/
theorem Addressed.sends {s : State} (addressed : Addressed s) {p : SessionPtr}
    {js : JingleSession} (listed : s.sessions.get? p = some js) (sends : Sends s js)
    : (js.ident p).outgoing := by
  intro incoming
  obtain ⟨sc, member, reason⟩ := sends
  rcases reason with ⟨d, ft, described, there, direction⟩ | ⟨t, transport, carried, there, full⟩
  · have describes : Describes s p d := ⟨js, listed, sc, member, described⟩
    have received := addressed.receives p js listed incoming d ft describes there
    rw [direction] at received
    cases received
  · exact absurd (addressed.quiet p js listed incoming t transport
      ⟨js, listed, sc, member, carried⟩ there) full

section Turn

variable {s : State} {env : Env} {w : World}

/-- The invariant during a turn that starts in `s`. -/
abbrev DuringTurn (s : State) (origin : SessionOrigin) (s' : State) : Prop :=
  AddressedFrom s origin s' ∧ Layout s'

theorem toPeer_maySend : MaySend (.toPeer s .incoming) (DuringTurn s .incoming) where
  ft _ := trivial
  transport _ := rfl
  change _ := trivial
  drop _ _ := trivial
  close _ := trivial
  await _ := trivial
  outward _ holds _ _ listed sends := holds.1.addressed.sends listed sends

theorem toPeer_mayServe {message : LmMessage} {jn : JingleNode}
    (addressable : Addressable env s (w, .jingleIq message))
    (valid : jingleRequest env message = some jn)
    : MayServe (.toPeer s .incoming) (DuringTurn s .incoming) env w s jn where
  initiate action passes absent := {
    newFt := fun _ => rfl
    create := fun _ _ _ _ _ _ => rfl
    build := fun _ holds => {
      layout := fun _ => And.right
      grow := trivial
      build := trivial
      describe := fun _ holds' => ⟨holds.1.since.sessions, fun _ => holds'.1.since.infoList⟩
      carry := fun _ holds' => ⟨holds'.1.since.transports, fun _ => holds.1.since.sessions⟩ }
    bind := fun _ _ _ _ _ _ _ _ _ _ => ⟨trivial, trivial, fun _ _ => rfl⟩
    close := fun _ _ => trivial
    ask := fun _ _ => trivial
    unsupported := fun fromJid toJid fromKnown toKnown noneKept _ _ _ => by
      obtain ⟨message, _⟩ := checkContentsLoop_node jn none jn.node.children
      rw [checkContents, message] at fromKnown toKnown
      exact addressable.2 jn valid action passes (by rw [absent]; rfl) noneKept fromJid fromKnown
        toJid toKnown }
  info _ _ _ _ _ _ _ _ _ := trivial
  accept _ _ _ _ _ _ := ⟨trivial, trivial, fun _ _ _ => trivial, fun _ _ _ _ _ _ _ _ => rfl⟩
  terminate _ _ _ _ :=
    ⟨trivial, fun _ => trivial, trivial, .free (fun _ => trivial) (fun _ => trivial)⟩

theorem toPeer_mayOffer : MayOffer (.toPeer s .outgoing) (DuringTurn s .outgoing) w s where
  layout _ := And.right
  newFt serving := by cases serving
  ft _ := trivial
  create _ _ _ _ _ _ _ := rfl
  grow _ _ := trivial
  build _ := trivial
  describe _ holds _ := ⟨holds.1.since.sessions, fun serving => by cases serving⟩
  carry _ holds _ := ⟨holds.1.since.transports, fun serving => by cases serving⟩
  size := trivial
  await _ := trivial
  close _ _ := trivial

/-- An addressable input stays within these rights. -/
theorem toPeer_mayHandle {input : Input} (addressable : Addressable env s (w, input))
    : ∃ origin, MayHandle (.toPeer s origin) (DuringTurn s origin) env w s input := by
  cases input with
  | jingleIq message => exact ⟨.incoming, fun jn valid => toPeer_mayServe addressable valid⟩
  | ibbIq message => exact ⟨.incoming, fun _ _ => ⟨trivial, fun _ => trivial⟩⟩
  | reply ah message => exact ⟨.incoming, toPeer_maySend, trivial, trivial⟩
  | tick => exact ⟨.incoming, toPeer_maySend, fun _ => trivial, fun _ => trivial⟩
  | wait seconds => exact ⟨.incoming, trivial⟩
  | event id context =>
      refine ⟨.incoming, fun p pending => ⟨fun _ => ⟨trivial, trivial⟩, ?_⟩⟩
      intro rejected js listed
      subst rejected
      exact ⟨addressable.1 id rfl p pending js listed, trivial⟩
  | transportInitialize correct sc => exact ⟨.incoming, toPeer_maySend⟩
  | jftSend arg => exact ⟨.outgoing, toPeer_mayOffer⟩
  | jftRetry arg => exact ⟨.outgoing, toPeer_mayOffer⟩
  | jftFlush => exact ⟨.incoming, fun _ => trivial⟩

end Turn

theorem addressed_reached {env : Env} {s : State} (run : ReachableBy env (Addressable env) s)
    : Addressed s := by
  refine reached_invariant run ?_ ?_
  · intro s initial
    refine ⟨?_, ?_, ?_⟩
    · intro ident iq member
      rw [initial.sent] at member
      cases member
    · intro p js listed
      rw [initial.sessions] at listed
      cases listed
    · intro p js listed
      rw [initial.sessions] at listed
      cases listed
  · intro s w input addressed layout addressable _
    obtain ⟨origin, may⟩ := toPeer_mayHandle addressable
    exact ⟨.toPeer s origin, AddressedFrom s origin, addressedFrom_stable,
      addressedFrom_start addressed layout origin, fun _ holds _ => holds.addressed, may⟩

/-- In every run whose steps are addressable each IQ for a session is addressed to `from`
when the session is incoming and to `to` when it is outgoing.
-/
theorem requests_addressed_to_peer (env : Env) (s : State)
    (run : ReachableBy env (Addressable env) s)
    : ∀ ident iq, .request ident iq ∈ s.sent →
        iq.getTo = some (match ident.origin with
          | .incoming => ident.fromJid
          | .outgoing => ident.toJid) :=
  (addressed_reached run).sent

/-- A peer's invitation is accepted, and a file is offered to another peer. -/
def acceptAndOffer : List StepInput := [
  (plainWorld, .jingleIq
    (jingleSet "juliet@verona/b" "session-initiate" "s1" [offeredContent "file" "b1"])),
  (plainWorld, .event 0 .accept),
  (offeringWorld [], .jftSend (some "notes"))
]

theorem requests_addressed_to_peer_acceptAndOffer
    : ∃ s, ReachableBy plainEnv (Addressable plainEnv) s ∧ s.sent.length = 3
        ∧ ∀ ident iq, .request ident iq ∈ s.sent →
            iq.getTo = some (match ident.origin with
              | .incoming => ident.fromJid
              | .outgoing => ident.toJid) := by
  have passed : (execute plainEnv (Addressable plainEnv) loaded acceptAndOffer).any
      (fun s => s.sent.length == 3) = true := by decide +kernel
  obtain ⟨s, run, three⟩ := execute_any _ (loaded_reached plainEnv _) passed
  exact ⟨s, run, by simpa using three, requests_addressed_to_peer plainEnv s run⟩

/-- Whether a sent stanza is an IQ of ours that does not go to the peer. -/
def Sent.misaddressed : Sent → Bool
  | .reply _ _ => false
  | .request ident iq => iq.getTo != some ident.recipient

/-- A rejected invitation is answered to ourselves. -/
def rejectedInvitation : List StepInput := [
  (plainWorld, .jingleIq
    (jingleSet "romeo@verona/a" "session-initiate" "s1" [offeredContent "file" "b1"])),
  (plainWorld, .event 0 .reject)
]

theorem rejection_misaddressed
    : ¬∀ env s, Reachable env s → ∀ ident iq, .request ident iq ∈ s.sent →
        iq.getTo = some (match ident.origin with
          | .incoming => ident.fromJid
          | .outgoing => ident.toJid) := by
  intro claimed
  have passed : (execute plainEnv (fun _ _ => True) loaded rejectedInvitation).any
      (fun s => s.sent.any Sent.misaddressed) = true := by decide +kernel
  obtain ⟨s, run, wrong⟩ := execute_any _ (loaded_reached plainEnv _) passed
  obtain ⟨sent, member, wrong⟩ := List.any_eq_true.mp wrong
  cases sent with
  | reply query answer => cases wrong
  | request ident iq =>
      have address : iq.getTo = some ident.recipient := claimed plainEnv s run ident iq member
      simp [Sent.misaddressed, address] at wrong

end McabberJingle
