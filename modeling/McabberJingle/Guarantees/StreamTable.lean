import McabberJingle.Effects.Machine
import McabberJingle.Jingle.Opening
import McabberJingle.System.Execution
import McabberJingle.Transfer.Receiver

/-! The table of in-band streams and the sessions that own them. Serving an invitation enters
streams; nothing that removes a session or a content takes one out again.
-/

namespace McabberJingle

open Program Program.Prog

variable {env : Env} {w : World} {s₀ s s' : State}

-----------------------------------------------------------------------------------------
-- The invariant
-----------------------------------------------------------------------------------------

/-- The transport module of a content and its object. -/
def SessionContent.link (sc : SessionContent)
    : Option JingleTransportFuncs × Option TransportPtr :=
  (sc.transfuncs, sc.transport)

/-- The content `sc` of the listed INCOMING session `p` has the in-band stream `t` with this
sid.
-/
structure OwnsStream (s : State) (sid : String) (t : TransportPtr) (p : SessionPtr)
    (sc : SessionContent)
    : Prop where
  member : ∃ js, s.sessions.get? p = some js ∧ js.origin = .incoming ∧ sc ∈ js.content
  link : sc.link = (some .ibb, some t)
  stream : ∃ jibb, s.transports.get? t = some (.ibb jibb) ∧ jibb.sid = sid

/-- Some content owns the stream. -/
def Owned (s : State) (sid : String) (t : TransportPtr) : Prop := ∃ p sc, OwnsStream s sid t p sc

/-- The table has exactly the streams of listed incoming contents. -/
def Mirrors (s : State) : Prop := ∀ sid t, Ibb.lookup s sid = some t ↔ Owned s sid t

/-- Every content over an in-band stream has its stream. -/
def AllOwn (s : State) : Prop :=
  ∀ p js, s.sessions.get? p = some js → js.origin = .incoming →
    ∀ sc ∈ js.content, sc.transfuncs = some .ibb → ∃ sid t, OwnsStream s sid t p sc

-----------------------------------------------------------------------------------------
-- Inputs that open no session
-----------------------------------------------------------------------------------------

/-- Since `s₀` sessions were removed or lost contents, those in `gone` only, and the table and
the old transports were left alone.
-/
structure Trimmed (gone : SessionPtr → Prop) (s₀ s : State) : Prop where
  table : s.jingleIBBs = s₀.jingleIBBs
  since : s₀.transports.next ≤ s.transports.next
  transports : ∀ t, t < s₀.transports.next → s.transports.get? t = s₀.transports.get? t
  others : ∀ p, ¬gone p → s.sessions.get? p = s₀.sessions.get? p
  sessions : ∀ p js, s.sessions.get? p = some js →
    ∃ old, s₀.sessions.get? p = some old ∧ js.origin = old.origin
      ∧ (js.content.map SessionContent.link).Sublist (old.content.map SessionContent.link)

/-- Sessions in `gone` may lose contents and be removed. -/
def Rights.trimming (gone : SessionPtr → Prop) : Rights :=
  { Rights.all with
    build := fun _ => False
    change := gone
    openSession := fun _ _ => False
    close := gone
    transport := fun _ => False
    stream := fun _ => False }

theorem Trimmed.refl (gone : SessionPtr → Prop) (s : State) : Trimmed gone s s :=
  ⟨rfl, Nat.le_refl _, fun _ _ => rfl, fun _ _ => rfl, fun _ js listed =>
    ⟨js, listed, rfl, List.Sublist.refl _⟩⟩

/-- Changing a state or unlinking a content keeps the transports of the others. -/
theorem links_change {gone : SessionPtr → Prop} {p : SessionPtr}
    {old new : List SessionContent} (change : ContentChange (.trimming gone) s p old new)
    : gone p ∧ (new.map SessionContent.link).Sublist (old.map SessionContent.link) := by
  cases change with
  | changeState name state allowed active =>
      rw [map_updateFirst]
      · exact ⟨allowed, List.Sublist.refl _⟩
      · exact fun _ => rfl
  | remove name allowed drop => exact ⟨allowed, (removeFirst_sublist name old).map _⟩
  | append name allowed => exact allowed.elim
  | dropLast allowed => exact allowed.elim
  | supplyApp supplied allowed => exact allowed.elim
  | supplyTrans supplied allowed => exact allowed.elim
  | supplyTransFor app supplied allowed => exact allowed.elim
  | fillApp name xmlns appfuncs d allowed => exact allowed.elim
  | fillTrans name xmlns transfuncs t allowed => exact allowed.elim

theorem trimmed_erase {gone : SessionPtr → Prop} (trimmed : Trimmed gone s₀ s) {p : SessionPtr}
    (allowed : gone p)
    : Trimmed gone s₀ { s with sessions := s.sessions.erase p } where
  table := trimmed.table
  since := trimmed.since
  transports := trimmed.transports
  others q safe := by
    have other : q ≠ p := fun same => safe (same ▸ allowed)
    exact (Pool.get?_erase_of_ne other).trans (trimmed.others q safe)
  sessions q js listed := trimmed.sessions q js (Pool.get?_erase_eq_some.mp listed).2

theorem trimmed_stable (gone : SessionPtr → Prop) : Stable (.trimming gone) (Trimmed gone s₀) := by
  intro s s' trimmed effect
  cases effect with
  | content p js g listed change =>
      obtain ⟨allowed, sublist⟩ := links_change change
      refine { trimmed with others := fun q safe => ?_, sessions := fun q js' listed' => ?_ }
      · have other : q ≠ p := fun same => safe (same ▸ allowed)
        exact (Pool.get?_modify_of_ne _ other).trans (trimmed.others q safe)
      · obtain ⟨before, there, same⟩ := Pool.get?_modify_eq_some.mp listed'
        obtain ⟨old, oldListed, origin, sub⟩ := trimmed.sessions q before there
        refine ⟨old, oldListed, ?_⟩
        by_cases here : q = p
        · subst here
          cases listed.symm.trans there
          rw [if_pos rfl] at same
          subst same
          exact ⟨origin, sublist.trans sub⟩
        · rw [if_neg here] at same
          subst same
          exact ⟨origin, sub⟩
  | openSession js empty allowed => exact allowed.elim
  | close p allowed => exact trimmed_erase trimmed allowed
  | finish p js reason listed allowed outward =>
      have erased := trimmed_erase trimmed allowed
      exact ⟨erased.table, erased.since, erased.transports, erased.others, erased.sessions⟩
  | newTransport transport empty =>
      refine { trimmed with since := Nat.le_succ_of_le trimmed.since, transports := ?_ }
      intro t known
      have below : t < s.transports.next := Nat.lt_of_lt_of_le known trimmed.since
      exact (Pool.get?_alloc_of_lt transport below).trans (trimmed.transports t known)
  | packet p js t jibb sc env buf listed carries found allowed => exact allowed.elim
  | transport t f allowed => exact allowed.elim
  | stream sid t allowed => exact allowed.elim
  | _ => exact ⟨trimmed.table, trimmed.since, trimmed.transports, trimmed.others, trimmed.sessions⟩

/-- No content of the session has an in-band stream. -/
def Streamless (js : JingleSession) : Prop := ∀ sc ∈ js.content, sc.transfuncs ≠ some .ibb

instance (js : JingleSession) : Decidable (Streamless js) := by
  unfold Streamless
  infer_instance

section Trimmed

variable {gone : SessionPtr → Prop} (layout : Layout s₀) (loss : Trimmed gone s₀ s)
  (streamless : ∀ p, gone p → ∀ js, s₀.sessions.get? p = some js → Streamless js)

include layout loss

/-- What owns a stream afterwards did so before. -/
theorem OwnsStream.untrimmed {sid : String} {t : TransportPtr} {p : SessionPtr}
    {sc : SessionContent} (owns : OwnsStream s sid t p sc)
    : ∃ sc', OwnsStream s₀ sid t p sc' := by
  obtain ⟨js, listed, incoming, member⟩ := owns.member
  obtain ⟨old, oldListed, origin, sublist⟩ := loss.sessions p js listed
  obtain ⟨sc', member', same⟩ := List.mem_map.mp (sublist.subset (List.mem_map_of_mem member))
  have link := same.trans owns.link
  have carried' := (Prod.mk.inj link).2
  have known := layout.carried p t ⟨old, oldListed, sc', member', carried'⟩
  refine ⟨sc', ⟨old, oldListed, origin ▸ incoming, member'⟩, link, ?_⟩
  rw [← loss.transports t known]
  exact owns.stream

include streamless

/-- What owned a stream before does so afterwards. -/
theorem OwnsStream.trimmed {sid : String} {t : TransportPtr} {p : SessionPtr}
    {sc : SessionContent} (owns : OwnsStream s₀ sid t p sc)
    : OwnsStream s sid t p sc := by
  obtain ⟨js, listed, incoming, member⟩ := owns.member
  obtain ⟨isIbb, carried⟩ := Prod.mk.inj owns.link
  have safe : ¬gone p := fun removed => streamless p removed js listed sc member isIbb
  have known := layout.carried p t ⟨js, listed, sc, member, carried⟩
  refine ⟨⟨js, (loss.others p safe).trans listed, incoming, member⟩, owns.link, ?_⟩
  rw [loss.transports t known]
  exact owns.stream

/-- Removing sessions without streams keeps the table right. -/
theorem Mirrors.trimmed (mirrors : Mirrors s₀) : Mirrors s := by
  intro sid t
  have sameTable : Ibb.lookup s sid = Ibb.lookup s₀ sid := by
    simp only [Ibb.lookup, loss.table]
  rw [sameTable, mirrors sid t]
  constructor
  · intro owned
    obtain ⟨p, sc, owns⟩ := owned
    exact ⟨p, sc, owns.trimmed layout loss streamless⟩
  · intro owned
    obtain ⟨p, sc, owns⟩ := owned
    exact ⟨p, owns.untrimmed layout loss⟩

theorem AllOwn.trimmed (all : AllOwn s₀) : AllOwn s := by
  intro p js listed incoming sc member isIbb
  obtain ⟨old, oldListed, origin, sublist⟩ := loss.sessions p js listed
  obtain ⟨sc', member', same⟩ := List.mem_map.mp (sublist.subset (List.mem_map_of_mem member))
  have isIbb' : sc'.transfuncs = some .ibb := (Prod.mk.inj same).1.trans isIbb
  have safe : ¬gone p := fun removed => streamless p removed old oldListed sc' member' isIbb'
  have kept := (loss.others p safe).symm.trans listed
  obtain ⟨sid, t, owns⟩ := all p js kept incoming sc member isIbb
  exact ⟨sid, t, owns.trimmed layout loss streamless⟩

end Trimmed

-----------------------------------------------------------------------------------------
-- An invitation that opens a session
-----------------------------------------------------------------------------------------

section Invitation

variable {p : SessionPtr} {js : JingleSession} {kept : List JingleContent}
  {content : List SessionContent}

section Filled

variable (layout : Layout s₀) (new : s₀.sessions.get? p = some { js with content := [] })
  (fill : Filled env w s₀ s p js kept content) (incoming : js.origin = .incoming)
  (fresh : ∀ cn ∈ kept, ∀ sid, streamSid s₀ cn = some sid → Ibb.lookup s₀ sid = none)

include fill fresh

/-- No stream that was there is replaced. -/
theorem Filled.transport_old {t : TransportPtr} (known : t < s₀.transports.next)
    : s.transports.get? t = s₀.transports.get? t := by
  refine fill.around.transports t known (fun cn member sid asked entered => ?_)
  rw [fresh cn member sid asked] at entered
  cases entered

include layout new

/-- Streams owned before have the same owner. -/
theorem OwnsStream.filled {sid : String} {t : TransportPtr} {q : SessionPtr}
    {sc : SessionContent} (owns : OwnsStream s₀ sid t q sc)
    : OwnsStream s sid t q sc := by
  obtain ⟨js', listed, incoming', member⟩ := owns.member
  have carried := (Prod.mk.inj owns.link).2
  have other : q ≠ p := by
    rintro rfl
    cases new.symm.trans listed
    cases member
  refine ⟨⟨js', (fill.around.others q other).trans listed, incoming', member⟩, owns.link, ?_⟩
  rw [fill.transport_old fresh (layout.carried q t ⟨js', listed, sc, member, carried⟩)]
  exact owns.stream

omit layout new fresh

/-- A new content over an in-band stream has the stream it asked for, which is entered. -/
theorem Filled.owns (incoming : js.origin = .incoming) {cn : JingleContent} {sc : SessionContent}
    (there : sc ∈ content) (fills : Fills s₀ s cn sc) (isIbb : sc.transfuncs = some .ibb)
    : ∃ sid t, streamSid s₀ cn = some sid ∧ Ibb.lookup s sid = some t
        ∧ OwnsStream s sid t p sc := by
  obtain ⟨transfuncs, t, known, carried, _, _, stream⟩ := fills.trans
  cases isIbb.symm.trans known
  obtain ⟨sid, asked, transport⟩ := stream rfl
  obtain ⟨jibb, found⟩ := fill.complete.readable fill.apart sc there t isIbb carried
  obtain ⟨entered, jibb', same, ownSid⟩ := transport _ found
  cases same
  have listed := fill.listed (List.ne_nil_of_mem there)
  exact ⟨sid, t, asked, entered, ⟨_, listed, incoming, there⟩, Prod.ext isIbb carried, jibb, found,
    ownSid⟩

include layout new incoming fresh

/-- The streams asked for are entered for the contents, the others are left alone. -/
theorem Mirrors.filled (mirrors : Mirrors s₀) : Mirrors s := by
  have around := fill.around
  intro sid t
  constructor
  · intro entered
    by_cases asked : ∃ cn ∈ kept, streamSid s₀ cn = some sid
    · obtain ⟨cn, member, asked⟩ := asked
      obtain ⟨sc, there, fills⟩ := forall₂_mem_left fill.complete.fills member
      obtain ⟨sid', t', asked', entered', owns⟩ :=
        fill.owns incoming there fills (fills.asked asked)
      cases asked.symm.trans asked'
      cases entered.symm.trans entered'
      exact ⟨p, sc, owns⟩
    · have same := around.table sid (fun cn member asks => asked ⟨cn, member, asks⟩)
      obtain ⟨q, sc, owns⟩ := (mirrors sid t).mp (same.symm.trans entered)
      exact ⟨q, sc, owns.filled layout new fill fresh⟩
  · intro owned
    obtain ⟨q, sc, owns⟩ := owned
    obtain ⟨js', listed, incoming', member⟩ := owns.member
    obtain ⟨isIbb, carried⟩ := Prod.mk.inj owns.link
    obtain ⟨jibb, found, ownSid⟩ := owns.stream
    by_cases here : q = p
    · subst here
      have filledContent : content ≠ [] := by
        intro empty
        rw [fill.deleted empty] at listed
        cases listed
      cases (fill.listed filledContent).symm.trans listed
      obtain ⟨cn, _, fills⟩ := forall₂_mem_right fill.complete.fills member
      obtain ⟨sid', t', _, entered, owns'⟩ := fill.owns incoming member fills isIbb
      cases carried.symm.trans (Prod.mk.inj owns'.link).2
      obtain ⟨jibb', found', ownSid'⟩ := owns'.stream
      cases found.symm.trans found'
      rw [← ownSid, ownSid']
      exact entered
    · have listed₀ := (around.others q here).symm.trans listed
      have known := layout.carried q t ⟨js', listed₀, sc, member, carried⟩
      have entered : Ibb.lookup s₀ sid = some t := by
        refine (mirrors sid t).mpr ⟨q, sc, ⟨js', listed₀, incoming', member⟩, owns.link, ?_⟩
        exact ⟨jibb, (fill.transport_old fresh known).symm.trans found, ownSid⟩
      refine (around.table sid (fun cn member asked => ?_)).trans entered
      rw [fresh cn member sid asked] at entered
      cases entered

theorem AllOwn.filled (all : AllOwn s₀) : AllOwn s := by
  intro q js' listed incoming' sc member isIbb
  by_cases here : q = p
  · subst here
    have filledContent : content ≠ [] := by
      intro empty
      rw [fill.deleted empty] at listed
      cases listed
    cases (fill.listed filledContent).symm.trans listed
    obtain ⟨cn, _, fills⟩ := forall₂_mem_right fill.complete.fills member
    obtain ⟨sid, t, _, _, owns⟩ := fill.owns incoming member fills isIbb
    exact ⟨sid, t, owns⟩
  · have before := (fill.around.others q here).symm.trans listed
    obtain ⟨sid, t, owns⟩ := all q js' before incoming' sc member isIbb
    exact ⟨sid, t, owns.filled layout new fill fresh⟩

end Filled

end Invitation

-----------------------------------------------------------------------------------------
-- One turn
-----------------------------------------------------------------------------------------

/-- Invitations, session-terminates, data packets, and the user's `reject`. -/
def Input.aboutStreams : Input → Bool
  | .jingleIq _ => true
  | .ibbIq _ => true
  | .event _ .reject => true
  | _ => false

/-- Of the Jingle requests, only those that open or end a session. -/
def StreamInput (env : Env) (input : Input) : Prop :=
  input.aboutStreams = true
  ∧ ∀ jn ∈ input.request env, jn.action = .sessionInitiate ∨ jn.action = .sessionTerminate

instance (env : Env) (input : Input) : Decidable (StreamInput env input) := by
  unfold StreamInput
  infer_instance

/-- An invitation asks for no stream of the table, and the peer ends no session that has a
stream.
-/
def KeepsStreams (env : Env) (s : State) (input : StepInput) : Prop :=
  StreamInput env input.2
  ∧ (∀ jn ∈ input.2.invitation env input.1 s,
      ∀ cn ∈ (checkContents jn).jn.content.filter (contentKept env input.1 s),
        ∀ sid ∈ streamSid s cn, Ibb.lookup s sid = none)
  ∧ (∀ jn ∈ input.2.request env, jn.action = .sessionTerminate →
      ∀ cell ∈ sessionFind s jn, Streamless cell.2)

instance (env : Env) (s : State) (input : StepInput) : Decidable (KeepsStreams env s input) := by
  unfold KeepsStreams
  infer_instance

/-- The table and the contents match. -/
structure Matched (s : State) : Prop where
  mirrors : Mirrors s
  all : AllOwn s

theorem Matched.trimmed {gone : SessionPtr → Prop} (matched : Matched s₀) (layout : Layout s₀)
    (trimmed : Trimmed gone s₀ s)
    (streamless : ∀ p, gone p → ∀ js, s₀.sessions.get? p = some js → Streamless js)
    : Matched s :=
  ⟨matched.mirrors.trimmed layout trimmed streamless,
    matched.all.trimmed layout trimmed streamless⟩

section Turn

variable {message : LmMessage}

/-- The session that a session-terminate removes. -/
def endedBy (env : Env) (s : State) (input : Input) (p : SessionPtr) : Prop :=
  ∃ jn ∈ input.request env, jn.action = .sessionTerminate ∧ ∃ js, sessionFind s jn = some (p, js)

/-- An input that opens no session only removes the session that the peer ends. -/
theorem trimming_mayHandle {input : Input} (inv : State → Prop) (allowed : StreamInput env input)
    (opens : input.invitation env w s = none)
    : MayHandle (.trimming (endedBy env s input)) inv env w s input := by
  cases input with
  | jingleIq message =>
      intro jn valid
      refine ⟨fun action passes absent => ?_, fun action _ _ _ _ _ _ _ _ => trivial,
        fun action _ _ _ _ _ => ?_, fun action p js found => ?_⟩
      · simp [Input.invitation, Input.request, valid, action, passes, absent] at opens
      · rcases allowed.2 jn valid with other | other <;> cases action.symm.trans other
      · have ends : endedBy env s (.jingleIq message) p := ⟨jn, valid, action, js, found⟩
        exact ⟨ends, fun _ => trivial, ends, .free (fun _ => trivial) (fun _ => trivial)⟩
  | ibbIq message => exact fun _ _ => ⟨trivial, fun _ => trivial⟩
  | event id context =>
      cases context with
      | reject => exact fun _ _ => ⟨(by intro h; cases h), fun _ _ _ => ⟨trivial, trivial⟩⟩
      | _ => cases allowed.1
  | _ => cases allowed.1

/-- A new session without contents owns nothing. -/
theorem ownsStream_inviting {jn : JingleNode} {fromJid toJid sid : String} {t : TransportPtr}
    {p : SessionPtr} {sc : SessionContent}
    : OwnsStream (s.inviting jn fromJid toJid) sid t p sc ↔ OwnsStream s sid t p sc := by
  constructor
  · intro owns
    obtain ⟨js, listed, incoming, member⟩ := owns.member
    rcases Pool.get?_alloc_eq_some.mp listed with ⟨_, rfl⟩ | old
    · cases member
    · exact ⟨⟨js, old, incoming, member⟩, owns.link, owns.stream⟩
  · intro owns
    obtain ⟨js, listed, incoming, member⟩ := owns.member
    have there : (s.inviting jn fromJid toJid).sessions.get? p = some js :=
      Pool.get?_alloc_eq_some.mpr (Or.inr listed)
    exact ⟨⟨js, there, incoming, member⟩, owns.link, owns.stream⟩

theorem Matched.inviting (matched : Matched s) (jn : JingleNode) (fromJid toJid : String)
    : Matched (s.inviting jn fromJid toJid) := by
  refine ⟨fun sid t => ?_, fun p js listed incoming sc member isIbb => ?_⟩
  · simp only [Owned, ownsStream_inviting]
    exact matched.mirrors sid t
  · simp only [ownsStream_inviting]
    rcases Pool.get?_alloc_eq_some.mp listed with ⟨_, rfl⟩ | old
    · cases member
    · exact matched.all p js old incoming sc member isIbb

theorem Layout.inviting (layout : Layout s) {jn : JingleNode} {fromJid : String}
    (sender : jn.message.getFrom = some fromJid) (absent : sessionFind s jn = none)
    (toJid : String)
    : Layout (s.inviting jn fromJid toJid) := by
  have opening : Effect .all s { s with sessions := s.sessions.alloc (invited jn fromJid toJid) } :=
    .openSession _ rfl trivial (fun _ => by
      rw [sessionFind, sender] at absent
      exact absent)
  have answered : Effect .all { s with sessions := s.sessions.alloc (invited jn fromJid toJid) }
      (s.inviting jn fromJid toJid) := .reply _ _
  exact layout_effect (layout_effect layout opening) answered

theorem matched_step {input : Input} {s' : State} (matched : Matched s) (layout : Layout s)
    (allowed : KeepsStreams env s (w, input)) (step : Step env s (w, input) s')
    : Matched s' := by
  obtain ⟨within, fresh, streamless⟩ := allowed
  cases opens : input.invitation env w s with
  | none =>
      have trimmed : Trimmed (endedBy env s input) s s' :=
        step.keeps (trimmed_stable _) (.refl _ s) (trimming_mayHandle _ within opens)
      refine matched.trimmed layout trimmed (fun p ends js listed => ?_)
      obtain ⟨jn, valid, action, js', found⟩ := ends
      cases listed.symm.trans (sessionFindBySid_listed found)
      exact streamless jn valid action (p, js) found
  | some jn =>
      obtain ⟨sender, toJid, content, known, absent, filled⟩ := invitation_filled layout opens step
      have before := matched.inviting (checkContents jn).jn sender toJid
      have layout' := layout.inviting known absent toJid
      have new : (s.inviting (checkContents jn).jn sender toJid).sessions.get? s.sessions.next
          = some { invited (checkContents jn).jn sender toJid with content := [] } :=
        Pool.get?_alloc_self _ _
      have apart := fresh jn opens
      exact ⟨before.mirrors.filled layout' new filled rfl apart,
        before.all.filled layout' new filled rfl apart⟩

end Turn

-----------------------------------------------------------------------------------------
-- Runs
-----------------------------------------------------------------------------------------

/-- The table of streams mirrors the sessions. -/
structure TableMirrorsSessions (env : Env) (s : State) : Prop where
  table : ∀ sid t, Ibb.lookup s sid = some t ↔ ∃ p sc, OwnsStream s sid t p sc
  all : ∀ p js, s.sessions.get? p = some js → js.origin = .incoming →
    ∀ sc ∈ js.content, sc.transfuncs = some .ibb → ∃ sid t, OwnsStream s sid t p sc
  unique : ∀ sid t t' p p' sc sc', OwnsStream s sid t p sc → OwnsStream s sid t' p' sc' →
    t = t' ∧ p = p' ∧ sc = sc'
  reaches : ∀ sid t p sc, OwnsStream s sid t p sc → sessioncontentFindByTransport s t = some sc
    ∧ ∀ w message dnode, ibbData sid message = some dnode →
      jingleIbbHandleIq env w message s
        = (do
            handleTransData w t (dnode.value.map env.base64Decode)
            pure LmHandlerResult.removeMessage : Run LmHandlerResult)
            (s.replied message (message.newIqFromQuery .result))
  refused : ∀ sid, (∀ t p sc, ¬OwnsStream s sid t p sc) →
    ∀ w message dnode, ibbData sid message = some dnode →
      jingleIbbHandleIq env w message s = .done .allowMoreHandlers s

/-- The owner of a stream is the content that `handle_trans_data` finds. -/
theorem OwnsStream.found (layout : Layout s) {sid : String}
    {t : TransportPtr} {p : SessionPtr} {sc : SessionContent} (owns : OwnsStream s sid t p sc)
    : sessioncontentFindByTransport s t = some sc := by
  obtain ⟨js, listed, _, member⟩ := owns.member
  have carried := (Prod.mk.inj owns.link).2
  cases found : sessioncontentFindByTransport s t with
  | none =>
      have missing := List.findSome?_eq_none_iff.mp found (p, js) (Pool.get?_eq_some_iff.mp listed)
      have absent := List.find?_eq_none.mp missing sc member
      simp [carried] at absent
  | some sc' =>
      obtain ⟨⟨p', js'⟩, cell, hit⟩ := List.exists_of_findSome?_eq_some found
      have listed' : s.sessions.get? p' = some js' := Pool.get?_eq_some_iff.mpr cell
      have carried' : sc'.transport = some t := by simpa using List.find?_some hit
      have same := layout.carrier_unique listed listed' member (List.mem_of_find?_eq_some hit)
        carried carried'
      rw [same.2]

/-- Data for a stream that is not in the table is left to others. -/
theorem jingleIbbHandleIq_unknown {env : Env} (w : World) {sid : String} {message : LmMessage}
    {dnode : LmMessageNode} (data : ibbData sid message = some dnode)
    (absent : Ibb.lookup s sid = none)
    : jingleIbbHandleIq env w message s = .done .allowMoreHandlers s := by
  obtain ⟨isSet, child, ours, sidKnown⟩ := ibbData_eq_some.mp data
  rw [jingleIbbHandleIq, if_neg (not_not.mpr isSet), child]
  dsimp only
  rw [if_neg (not_not.mpr ours), bind_done (deref_done sidKnown), bind_get, absent]
  rfl

/-- In every run of invitations, session-terminates, data packets and refusals in which no
invitation asks for a stream of the table and no session that has a stream is ended, the table
mirrors the sessions.
-/
theorem stream_table_mirrors_sessions (env : Env) (s : State)
    (run : ReachableBy env (KeepsStreams env) s)
    : TableMirrorsSessions env s := by
  have layout := layout_reached run
  have matched : Matched s := by
    induction run with
    | @start s initial =>
        have absent (p : SessionPtr) (js : JingleSession) : s.sessions.get? p ≠ some js := by
          rw [initial.sessions]
          exact fun listed => by cases listed
        refine ⟨fun sid t => ⟨fun entered => ?_, fun owned => ?_⟩,
          fun p js listed => absurd listed (absent p js)⟩
        · simp [Ibb.lookup, initial.jingleIBBs] at entered
        · obtain ⟨p, sc, owns⟩ := owned
          obtain ⟨js, listed, _⟩ := owns.member
          exact absurd listed (absent p js)
    | step run allowed step ih =>
        exact matched_step (ih (layout_reached run)) (layout_reached run) allowed step
  refine ⟨matched.mirrors, matched.all, fun sid t t' p p' sc sc' owns owns' => ?_,
    fun sid t p sc owns => ⟨owns.found layout, fun w message dnode data => ?_⟩,
    fun sid ownerless w message dnode data => ?_⟩
  · have entered := (matched.mirrors sid t).mpr ⟨p, sc, owns⟩
    have entered' := (matched.mirrors sid t').mpr ⟨p', sc', owns'⟩
    cases entered.symm.trans entered'
    obtain ⟨js, listed, _, member⟩ := owns.member
    obtain ⟨js', listed', _, member'⟩ := owns'.member
    exact ⟨rfl, layout.carrier_unique listed listed' member member'
      (Prod.mk.inj owns.link).2 (Prod.mk.inj owns'.link).2⟩
  · exact jingleIbbHandleIq_stream data ((matched.mirrors sid t).mpr ⟨p, sc, owns⟩)
  · refine jingleIbbHandleIq_unknown w data ?_
    cases entered : Ibb.lookup s sid with
    | none => rfl
    | some t =>
        obtain ⟨p, sc, owns⟩ := (matched.mirrors sid t).mp entered
        exact absurd owns (ownerless t p sc)

/-- Two invitations of one peer, a packet, and a refusal. -/
def openStreams : List StepInput := [
  (plainWorld, .jingleIq (jingleSet "romeo@verona/a" "session-initiate" "s1"
    [offeredContent "one" "b1", offeredContent "two" "b2"])),
  (plainWorld, .jingleIq (jingleSet "romeo@verona/a" "session-initiate" "s2"
    [offeredContent "one" "b3"])),
  (plainWorld, .ibbIq (dataSet "b2" "0")),
  (plainWorld, .event 0 .reject)
]

theorem stream_table_mirrors_sessions_openStreams
    : ∃ s, ReachableBy plainEnv (KeepsStreams plainEnv) s ∧ s.jingleIBBs.length = 3
        ∧ TableMirrorsSessions plainEnv s := by
  have passed : (execute plainEnv (KeepsStreams plainEnv) loaded openStreams).any
      (fun s => s.jingleIBBs.length == 3) = true := by decide +kernel
  obtain ⟨s, run, three⟩ := execute_any _ (loaded_reached plainEnv _) passed
  exact ⟨s, run, eq_of_beq three, stream_table_mirrors_sessions plainEnv s run⟩

/-- A peer invites us and ends the session. -/
def endedStream : List StepInput := [
  (plainWorld, .jingleIq
    (jingleSet "romeo@verona/a" "session-initiate" "s1" [offeredContent "file" "b1"])),
  (plainWorld, .jingleIq (jingleSet "romeo@verona/a" "session-terminate" "s1" []))
]

/-- The stream of an ended session stays in the table. -/
theorem ended_stream_stays
    : ¬∀ env s, ReachableBy env (fun _ input => StreamInput env input.2) s →
        TableMirrorsSessions env s := by
  intro claimed
  have passed : (execute plainEnv (fun _ input => StreamInput plainEnv input.2) loaded
      endedStream).any (fun s => s.sessions.cells.isEmpty && (Ibb.lookup s "b1").isSome)
      = true := by
    decide +kernel
  obtain ⟨s, run, left⟩ := execute_any _ (loaded_reached plainEnv _) passed
  simp only [Bool.and_eq_true, List.isEmpty_iff, Option.isSome_iff_exists] at left
  obtain ⟨nothing, t, entered⟩ := left
  obtain ⟨p, sc, owns⟩ := ((claimed plainEnv s run).table "b1" t).mp entered
  obtain ⟨js, listed, _⟩ := owns.member
  have member := Pool.get?_eq_some_iff.mp listed
  rw [nothing] at member
  cases member

end McabberJingle
