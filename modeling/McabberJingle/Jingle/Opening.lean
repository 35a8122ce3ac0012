import McabberJingle.Jingle.Filling

/-! When the code makes a session of an invitation and gets to the end, and what it leaves. -/

namespace McabberJingle

open Program Program.Prog

variable {env : Env} {w : World}

-----------------------------------------------------------------------------------------
-- The whole session
-----------------------------------------------------------------------------------------

/-- The loop over the contents, in terms of what it builds. -/
theorem addContents_built (env : Env) (w : World) {s₀ s : State} {p : SessionPtr}
    {js : JingleSession} (built : Built s₀ p js [] s) (err : ErrVar) (contents : List JingleContent)
    : (err.permits env w s₀ contents →
        ∃ s', addContents env w (some p) err contents s = .done () s'
          ∧ Built s₀ p js (contents.filter (contentKept env w s₀)) s')
      ∧ (¬err.permits env w s₀ contents →
        ∃ error s', addContents env w (some p) err contents s = .fault error s') := by
  refine addContents_runs (fun _ _ built => built.modules) ?_ err contents built
  intro kept s cn built processed
  obtain ⟨content, listed, _⟩ := built.content
  have known := processed
  simp only [contentProcessed, Bool.and_eq_true, Option.isSome_iff_exists] at known
  obtain ⟨⟨appfuncs, knownApp⟩, ⟨transfuncs, known⟩⟩ := known
  have knownAppHere : jingleGetAppfuncs s (cn.description.getAttribute "xmlns")
      = some appfuncs := by
    rw [← knownApp]
    simp only [jingleGetAppfuncs, jingleFindApp, built.modules.1]
  have knownHere : jingleGetTransportfuncs s (cn.transport.getAttribute "xmlns")
      = some transfuncs := by
    rw [← known]
    simp only [jingleGetTransportfuncs, jingleFindTransport, built.modules.2]
  have runs := sessionAddContentFromJinglecontent_eq env w listed knownAppHere knownHere .pending
  have kept : contentKept env w s₀ cn = ((FileTransfer.parseOffer env w cn).isOk
      && (transfuncs.parse env w s cn).isOk) := by
    simp [contentKept, knownApp, known, transfuncs.accepts_iff env w s cn]
  rw [kept]
  cases offered : FileTransfer.parseOffer env w cn with
  | error error =>
      rw [offered] at runs
      exact ⟨_, _, runs, by simp [Except.isOk, Except.toBool], built.same⟩
  | ok jft =>
      rw [offered] at runs
      cases parsed : transfuncs.parse env w s cn with
      | error error =>
          rw [parsed] at runs
          refine ⟨_, _, runs, by simp [Except.isOk, Except.toBool], ?_⟩
          exact (built.described cn jft appfuncs).same
      | ok transport =>
          rw [parsed] at runs
          refine ⟨_, _, runs, by simp [Except.isOk, Except.toBool], ?_⟩
          exact built.filled jft appfuncs known parsed

/-- What the loop that shows a content reads. -/
structure Shown (s : State) (sc : SessionContent) : Prop where
  app : sc.appfuncs.isSome = true
  description : ∃ d, sc.description = some d ∧ s.infoList.Live d
  trans : ∃ transfuncs t, sc.transfuncs = some transfuncs ∧ sc.transport = some t
  readable : Readable s sc

theorem showContents_cons {s : State} (sc : SessionContent) (rest : List SessionContent)
    : (Shown s sc → showContents (sc :: rest) s = showContents rest s)
      ∧ (¬Shown s sc → ∃ error, showContents (sc :: rest) s = .fault error s) := by
  rw [showContents]
  cases app : sc.appfuncs with
  | none =>
      refine ⟨fun shown => ?_, fun _ => ⟨_, bind_fault rfl⟩⟩
      have some := shown.app
      rw [app] at some
      cases some
  | some appfuncs =>
  rw [bind_done (deref_done rfl)]
  cases description : sc.description with
  | none =>
      refine ⟨fun shown => ?_, fun _ => ⟨_, bind_fault rfl⟩⟩
      obtain ⟨d, described, _⟩ := shown.description
      cases description.symm.trans described
  | some d =>
  rw [bind_done (deref_done rfl)]
  cases found : s.infoList.get? d with
  | none =>
      have missing : FileTransfer.info d s = .fault (.useAfterFree .description) s :=
        bind_fault (readFt_fault found)
      refine ⟨fun shown => ?_, fun _ => ⟨_, bind_fault missing⟩⟩
      obtain ⟨d', described, live⟩ := shown.description
      cases description.symm.trans described
      rw [Pool.Live, found] at live
      cases live
  | some ft =>
  have info : FileTransfer.info d s = .done () s := by
    rw [FileTransfer.info, bind_done (readFt_done found)]
    rfl
  rw [bind_done info]
  cases trans : sc.transfuncs with
  | none =>
      refine ⟨fun shown => ?_, fun _ => ⟨_, bind_fault rfl⟩⟩
      obtain ⟨transfuncs, _, known, _⟩ := shown.trans
      cases trans.symm.trans known
  | some transfuncs =>
  rw [bind_done (deref_done rfl)]
  cases transport : sc.transport with
  | none =>
      refine ⟨fun shown => ?_, fun _ => ⟨_, bind_fault rfl⟩⟩
      obtain ⟨_, t, _, carried⟩ := shown.trans
      cases transport.symm.trans carried
  | some t =>
  rw [bind_done (deref_done rfl)]
  have complete (readable : Readable s sc) : Shown s sc :=
    ⟨by rw [app]; rfl, ⟨d, description, Pool.live_of_get? found⟩, ⟨transfuncs, t, trans, transport⟩,
      readable⟩
  cases transfuncs with
  | s5b =>
      refine ⟨fun _ => rfl, fun hidden => absurd (complete ?_) hidden⟩
      intro _ isIbb
      cases trans.symm.trans isIbb
  | ibb =>
      have info (s' : State) : JingleTransportFuncs.ibb.info t s'
          = (do let _ ← readIbb t; pure () : Run Unit) s' := rfl
      cases isIbb : (s.transports.get? t).any Transport.isIbb with
      | false =>
          obtain ⟨error, fault⟩ := readIbb_fault isIbb
          refine ⟨fun shown => ?_, fun _ => ⟨error, bind_fault ((info s).trans (bind_fault fault))⟩⟩
          obtain ⟨jibb, there⟩ := shown.readable t trans transport
          simp [there, Transport.isIbb] at isIbb
      | true =>
          obtain ⟨jibb, there⟩ := exists_ibb isIbb
          rw [bind_done ((info s).trans (bind_done (readIbb_done there)))]
          refine ⟨fun _ => rfl, fun hidden => absurd (complete ?_) hidden⟩
          intro t' _ carried'
          cases transport.symm.trans carried'
          exact ⟨jibb, there⟩

/-- By induction on the contents: all are shown, or the loop stops at the first that cannot
be.
-/
theorem showContents_runs {s : State} (contents : List SessionContent)
    : ((∀ sc ∈ contents, Shown s sc) → showContents contents s = .done () s)
      ∧ (∀ s', showContents contents s = .done () s' → ∀ sc ∈ contents, Shown s sc) := by
  induction contents with
  | nil => exact ⟨fun _ => rfl, fun _ _ _ member => by cases member⟩
  | cons sc rest ih =>
      obtain ⟨goes, stops⟩ := showContents_cons (s := s) sc rest
      refine ⟨fun shown => ?_, fun s' runs => ?_⟩
      · rw [goes (shown sc List.mem_cons_self)]
        exact ih.1 (fun sc' member => shown sc' (List.mem_cons_of_mem _ member))
      · by_cases shown : Shown s sc
        · rw [goes shown] at runs
          intro sc' member
          rcases List.mem_cons.mp member with rfl | later
          · exact shown
          · exact ih.2 s' runs sc' later
        · obtain ⟨error, fault⟩ := stops shown
          cases fault.symm.trans runs

/-- A stream that can be read is the one in the table. -/
theorem Fills.entered {s₀ s : State} {cn : JingleContent} {sc : SessionContent} {sid : String}
    (fills : Fills s₀ s cn sc) (asked : streamSid s₀ cn = some sid) (readable : Readable s sc)
    : ∃ t, sc.transport = some t ∧ Ibb.lookup s sid = some t := by
  have isIbb := fills.asked asked
  obtain ⟨transfuncs, t, known, carried, _, _, stream⟩ := fills.trans
  cases isIbb.symm.trans known
  obtain ⟨sid', asked', there⟩ := stream rfl
  cases asked.symm.trans asked'
  obtain ⟨jibb, found⟩ := readable t isIbb carried
  exact ⟨t, carried, (there _ found).1⟩

/-- Streams that can all be read were asked for under different sids. -/
theorem streamsApart_of_readable {s₀ s : State} {kept : List JingleContent}
    {content : List SessionContent} (fills : List.Forall₂ (Fills s₀ s) kept content)
    (apart : (content.map SessionContent.transport).Nodup)
    (readable : ∀ sc ∈ content, Readable s sc)
    : kept.Pairwise (StreamsApart s₀) := by
  induction fills with
  | nil => exact List.Pairwise.nil
  | @cons cn sc kept content head tail ih =>
      rw [List.map_cons, List.nodup_cons] at apart
      refine List.pairwise_cons.mpr ⟨?_, ih apart.2 (fun sc' member =>
        readable sc' (List.mem_cons_of_mem _ member))⟩
      intro cn' member sid asked asked'
      obtain ⟨sc', there, fills⟩ := forall₂_mem_left tail member
      obtain ⟨t, carried, entered⟩ := head.entered asked (readable sc List.mem_cons_self)
      obtain ⟨t', carried', entered'⟩ := fills.entered asked'
        (readable sc' (List.mem_cons_of_mem _ there))
      cases entered.symm.trans entered'
      refine apart.1 (List.mem_map.mpr ⟨sc', there, ?_⟩)
      rw [carried, carried']

/-- The contents of an invitation make a session without trouble. -/
structure CleanContents (env : Env) (w : World) (s : State) (contents : List JingleContent)
    (err : Option GError)
    : Prop where
  permitted : (if err.isSome then ErrVar.set else .null).permits env w s contents
  distinct : ((contents.filter (contentKept env w s)).map JingleContent.name).Nodup
  streams : (contents.filter (contentKept env w s)).Pairwise (StreamsApart s)

instance (env : Env) (w : World) (s : State) (contents : List JingleContent)
    (err : Option GError)
    : Decidable (CleanContents env w s contents err) :=
  decidable_of_iff ((if err.isSome then ErrVar.set else .null).permits env w s contents
      ∧ ((contents.filter (contentKept env w s)).map JingleContent.name).Nodup
      ∧ (contents.filter (contentKept env w s)).Pairwise (StreamsApart s))
    ⟨fun h => ⟨h.1, h.2.1, h.2.2⟩, fun h => ⟨h.permitted, h.distinct, h.streams⟩⟩

/-- Showing the contents and asking the user. -/
theorem showAndAsk_runs {s : State} (w : World) (p : SessionPtr) (content : List SessionContent)
    : ((∀ sc ∈ content, Shown s sc) →
        ∃ s', (do showContents content; evsNew w p : Run Unit) s = .done () s'
          ∧ s'.sent = s.sent ∧ s'.staleReads = s.staleReads)
      ∧ (∀ s', (do showContents content; evsNew w p : Run Unit) s = .done () s' →
        ∀ sc ∈ content, Shown s sc) := by
  obtain ⟨goes, back⟩ := showContents_runs (s := s) content
  refine ⟨fun shown => ?_, fun s' runs => ?_⟩
  · rw [bind_done (goes shown), evsNew]
    cases w.evsNew <;> exact ⟨_, rfl, rfl, rfl⟩
  · cases first : showContents content s with
    | done value s₁ => exact back s₁ first
    | fault error s₁ => cases (bind_fault first).symm.trans runs

/-- A session without contents is told to end and deleted; nothing that was freed is read. -/
theorem terminateEmpty_runs {s : State} (w : World) {p : SessionPtr} {js : JingleSession}
    (listed : s.sessions.get? p = some js) (empty : js.content = []) (reason : String)
    : (do jingleSendSessionTerminate p reason; sessionDelete w p : Run Unit) s
      = .done () { s.requested (js.ident p) (sessionTerminateIq js reason) none 0 true with
          sessions := s.sessions.erase p } := by
  have told : jingleSendSessionTerminate p reason s
      = .done () (s.requested (js.ident p) (sessionTerminateIq js reason) none 0 true) := by
    rw [jingleSendSessionTerminate, bind_done (readSession_done listed)]
    exact sendRequest_done _ _ _ _ _
  have listed' : (s.requested (js.ident p) (sessionTerminateIq js reason) none 0 true).sessions.get?
      p = some js := listed
  rw [bind_done told, sessionDelete, bind_done (readSession_done listed')]
  change sessionFreeContents w js.content _ = _
  rw [empty]
  rfl

/-- A session just created, with no content yet. -/
theorem built_start {s : State} {p : SessionPtr} {js : JingleSession}
    (listed : s.sessions.get? p = some js) (empty : js.content = [])
    (known : ∀ entry ∈ s.jingleIBBs, entry.2 < s.transports.next)
    : Built s p js [] s := by
  have around : Around s p [] s :=
    ⟨fun _ _ => rfl, fun _ _ => rfl, Nat.le_refl _, fun _ member => (by cases member),
      fun _ _ => rfl, fun _ _ _ => rfl, fun _ member => (by cases member)⟩
  refine ⟨⟨rfl, rfl⟩, rfl, rfl, Nat.le_refl _, ?_, around, js.content, listed, ?_, ?_,
    fun _ => ?_⟩
  · intro sid t entered new
    obtain ⟨entry, found, rfl⟩ := Option.map_eq_some_iff.mp entered
    have below := known entry (List.mem_of_find?_eq_some found)
    exact absurd new (Nat.not_le.mpr below)
  · rw [empty]
    rfl
  · rw [empty]
    exact List.Pairwise.nil
  · rw [empty]
    exact ⟨.nil, List.nodup_nil, fun _ _ member => by cases member⟩

/-- What a new session is filled with, from `s` to `s'`: its contents, or it is deleted. -/
structure Filled (env : Env) (w : World) (s s' : State) (p : SessionPtr) (js : JingleSession)
    (kept : List JingleContent) (content : List SessionContent)
    : Prop where
  complete : Complete s s' kept content
  apart : kept.Pairwise (StreamsApart s)
  around : Around s p kept s'
  since : s.transports.next ≤ s'.transports.next
  listed : content ≠ [] → s'.sessions.get? p = some { js with content }
  deleted : content = [] → s'.sessions.get? p = none

/-- A filled session stays so while only stanzas and events are added. -/
theorem Complete.congr {s₀ s s' : State} {kept : List JingleContent}
    {content : List SessionContent} (complete : Complete s₀ s kept content)
    (list : s'.infoList = s.infoList) (transports : s'.transports = s.transports)
    (table : s'.jingleIBBs = s.jingleIBBs)
    : Complete s₀ s' kept content where
  fills := by
    refine complete.fills.imp (fun cn sc fills => ⟨fills.name, fills.app, ?_, fills.known, ?_⟩)
    · rw [list]
      exact fills.description
    · simp only [Ibb.lookup, transports, table]
      exact fills.trans
  apart := complete.apart
  readable streams sc member t isIbb carried := by
    rw [transports]
    exact complete.readable streams sc member t isIbb carried

theorem Around.congr {s₀ s s' : State} {p : SessionPtr} {kept : List JingleContent}
    (around : Around s₀ p kept s)
    (others : ∀ q, q ≠ p → s'.sessions.get? q = s.sessions.get? q)
    (list : s'.infoList = s.infoList) (transports : s'.transports = s.transports)
    (table : s'.jingleIBBs = s.jingleIBBs)
    : Around s₀ p kept s' where
  others q other := (others q other).trans (around.others q other)
  transfers := by
    rw [list]
    exact around.transfers
  listed := by
    rw [list]
    exact around.listed
  entered := by
    simp only [Ibb.lookup, table]
    exact around.entered
  table := by
    simp only [Ibb.lookup, table]
    exact around.table
  transports := by
    rw [transports]
    exact around.transports
  freed := by
    rw [transports]
    exact around.freed

/-- Filling a new session gets to its end, with nothing freed read on the way, exactly when
the contents are clean.
-/
theorem fillSession_runs (env : Env) (w : World) {s : State} {p : SessionPtr}
    {js : JingleSession} (jn : JingleNode) (err : Option GError)
    (listed : s.sessions.get? p = some js) (empty : js.content = [])
    (known : ∀ entry ∈ s.jingleIBBs, entry.2 < s.transports.next)
    : (CleanContents env w s jn.content err →
        ∃ s', fillSession env w (some p) jn err s = .done () s'
          ∧ s'.replies = s.replies ∧ s'.staleReads = s.staleReads)
      ∧ (∀ s', fillSession env w (some p) jn err s = .done () s' →
        CleanContents env w s jn.content err) := by
  have loop := addContents_built env w (built_start listed empty known)
    (if err.isSome then ErrVar.set else .null) jn.content
  by_cases permitted : (if err.isSome then ErrVar.set else .null).permits env w s jn.content
  case neg =>
    obtain ⟨error, s₁, fault⟩ := loop.2 permitted
    have stops : fillSession env w (some p) jn err s = .fault error s₁ := by
      rw [fillSession, bind_fault fault]
    refine ⟨fun clean => absurd clean.permitted permitted, fun s' runs => ?_⟩
    cases stops.symm.trans runs
  obtain ⟨s₁, runs, built⟩ := loop.1 permitted
  obtain ⟨content, listed₁, names, first, complete⟩ := built.content
  have rest : fillSession env w (some p) jn err s
      = (if content.isEmpty then do
            jingleSendSessionTerminate p "unsupported-applications"
            sessionDelete w p
          else do
            showContents content
            evsNew w p : Run Unit) s₁ := by
    rw [fillSession, bind_done runs, bind_done (deref_done rfl),
      bind_done (readSession_done listed₁)]
  rw [rest]
  cases content with
  | nil =>
      have nothing : jn.content.filter (contentKept env w s) = [] := by
        cases kept : jn.content.filter (contentKept env w s) with
        | nil => rfl
        | cons cn rest => simp [kept] at names
      rw [if_pos List.isEmpty_nil, terminateEmpty_runs w listed₁ rfl]
      refine ⟨fun _ => ⟨_, rfl, ?_, built.staleReads⟩, fun _ _ => ⟨permitted, ?_, ?_⟩⟩
      · have told := State.replies_requested s₁ (JingleSession.ident { js with content := [] } p)
          (sessionTerminateIq { js with content := [] } "unsupported-applications") none 0 true
        have same : s₁.replies = s.replies := by simp only [State.replies, built.sent]
        exact told.trans same
      · rw [nothing]
        exact List.nodup_nil
      · rw [nothing]
        exact List.Pairwise.nil
  | cons sc more =>
      rw [if_neg (by simp)]
      obtain ⟨goes, back⟩ := showAndAsk_runs (s := s₁) w p (sc :: more)
      refine ⟨fun clean => ?_, fun s' shown => ?_⟩
      · obtain ⟨fills, _, readable⟩ := complete clean.distinct
        have shown (sc' : SessionContent) (member : sc' ∈ sc :: more) : Shown s₁ sc' := by
          obtain ⟨cn, _, fill⟩ := forall₂_mem_right fills member
          obtain ⟨transfuncs, t, known, carried, _⟩ := fill.trans
          exact ⟨fill.app, fill.description, ⟨transfuncs, t, known, carried⟩,
            readable clean.streams sc' member⟩
        obtain ⟨s', asked, sameSent, sameReads⟩ := goes shown
        refine ⟨s', asked, ?_, sameReads.trans built.staleReads⟩
        simp only [State.replies, sameSent, built.sent]
      · have all := back s' shown
        have distinct := first.distinct (fun sc' member => (all sc' member).app)
        rw [names] at distinct
        obtain ⟨fills, apart, _⟩ := complete distinct
        exact ⟨permitted, distinct,
          streamsApart_of_readable fills apart (fun sc' member => (all sc' member).readable)⟩

/-- The state after the user was asked about a session. -/
def State.asking (s : State) (w : World) (p : SessionPtr) : State :=
  if w.evsNew then { s with events := s.events.alloc p } else s

/-- The state after a session without contents was told to end and deleted. -/
def State.declining (s : State) (p : SessionPtr) (js : JingleSession) : State :=
  { s.requested (js.ident p) (sessionTerminateIq js "unsupported-applications") none 0 true with
    sessions := s.sessions.erase p }

/-- The state after the contents of a session were made. -/
def State.settling (s : State) (w : World) (p : SessionPtr) (js : JingleSession)
    (content : List SessionContent)
    : State :=
  if content = [] then s.declining p { js with content := [] } else s.asking w p

/-- A session that was filled has the contents of the loop, and then either the user is asked
or the session goes again.
-/
theorem fillSession_settles (env : Env) (w : World) {s s' : State} {p : SessionPtr}
    {js : JingleSession} (jn : JingleNode) (err : Option GError)
    (listed : s.sessions.get? p = some js) (empty : js.content = [])
    (known : ∀ entry ∈ s.jingleIBBs, entry.2 < s.transports.next)
    (runs : fillSession env w (some p) jn err s = .done () s')
    : ∃ content s₁, addContents env w (some p) (if err.isSome then .set else .null) jn.content s
          = .done () s₁
        ∧ Built s p js (jn.content.filter (contentKept env w s)) s₁
        ∧ s₁.sessions.get? p = some { js with content } ∧ s' = s₁.settling w p js content := by
  have loop := addContents_built env w (built_start listed empty known)
    (if err.isSome then ErrVar.set else .null) jn.content
  have clean := (fillSession_runs env w jn err listed empty known).2 s' runs
  obtain ⟨s₁, added, built⟩ := loop.1 clean.permitted
  obtain ⟨content, listed₁, _⟩ := built.content
  refine ⟨content, s₁, added, built, listed₁, ?_⟩
  rw [fillSession, bind_done added, bind_done (deref_done rfl),
    bind_done (readSession_done listed₁)] at runs
  unfold State.settling
  cases content with
  | nil =>
      rw [if_pos List.isEmpty_nil, terminateEmpty_runs w listed₁ rfl] at runs
      cases runs
      rfl
  | cons sc more =>
      rw [if_neg (by simp)] at runs ⊢
      have shown := (showContents_runs (sc :: more)).1
        ((showAndAsk_runs w p (sc :: more)).2 s' runs)
      rw [bind_done shown, evsNew] at runs
      unfold State.asking
      cases asks : w.evsNew with
      | true =>
          rw [asks] at runs
          cases runs
          rfl
      | false =>
          rw [asks] at runs
          cases runs
          rfl

/-- What is there when filling a new session got to its end. -/
theorem fillSession_ends (env : Env) (w : World) {s s' : State} {p : SessionPtr}
    {js : JingleSession} (jn : JingleNode) (err : Option GError)
    (listed : s.sessions.get? p = some js) (empty : js.content = [])
    (known : ∀ entry ∈ s.jingleIBBs, entry.2 < s.transports.next)
    (runs : fillSession env w (some p) jn err s = .done () s')
    : ∃ content, Filled env w s s' p js (jn.content.filter (contentKept env w s)) content := by
  obtain ⟨_, distinct, apart⟩ := (fillSession_runs env w jn err listed empty known).2 s' runs
  obtain ⟨content, s₁, _, built, listed₁, rfl⟩ :=
    fillSession_settles env w jn err listed empty known runs
  obtain ⟨content', listed', _, _, complete⟩ := built.content
  cases listed₁.symm.trans listed'
  have around := built.around
  refine ⟨content, ?_⟩
  unfold State.settling
  by_cases nothing : content = []
  · rw [if_pos nothing]
    refine ⟨(complete distinct).congr rfl rfl rfl, apart, ?_, built.since,
      fun filled => absurd nothing filled, fun _ => Pool.get?_erase_self _ _⟩
    exact around.congr (fun q other => Pool.get?_erase_of_ne other) rfl rfl rfl
  · rw [if_neg nothing, State.asking]
    split
    · exact ⟨(complete distinct).congr rfl rfl rfl, apart,
        around.congr (fun _ _ => rfl) rfl rfl rfl, built.since, fun _ => listed₁,
        fun empty => absurd empty nothing⟩
    · exact ⟨complete distinct, apart, around, built.since, fun _ => listed₁,
        fun empty => absurd empty nothing⟩

/-- Without a session the loop or the line after it dereferences NULL. -/
theorem fillSession_none_stops (jn : JingleNode) (err : Option GError) (s s' : State)
    : fillSession env w none jn err s ≠ .done () s' := by
  intro runs
  cases loop : addContents env w none (if err.isSome then .set else .null) jn.content s with
  | fault error s₁ => cases (bind_fault loop).symm.trans runs
  | done value s₁ => cases (bind_done loop).symm.trans runs

/-- The session of an invitation before it has contents. -/
def invited (jn : JingleNode) (fromJid toJid : String) : JingleSession :=
  { sid := jn.sid, origin := .incoming, fromJid, toJid, content := [] }

/-- The state in which the session of an invitation is filled. -/
def State.inviting (s : State) (jn : JingleNode) (fromJid toJid : String) : State :=
  { s.replied jn.message (jn.message.newIqFromQuery .result) with
    sessions := s.sessions.alloc (invited jn fromJid toJid) }

theorem State.inviting_listed (s : State) (jn : JingleNode) (fromJid toJid : String)
    : (s.inviting jn fromJid toJid).sessions.get? s.sessions.next
      = some (invited jn fromJid toJid) :=
  Pool.get?_alloc_self _ _

/-- With a sender and an addressee the session is made and filled. -/
theorem createSession_eq (env : Env) (w : World) (s : State) {jn : JingleNode}
    {fromJid toJid : String} (err : Option GError) (sender : jn.message.getFrom = some fromJid)
    (addressee : jn.message.getTo = some toJid)
    : createSession env w jn err s
      = fillSession env w (some s.sessions.next) jn err (s.inviting jn fromJid toJid) := by
  let s₁ := s.replied jn.message (jn.message.newIqFromQuery .result)
  have acked : jingleAckIq jn.message s = .done () s₁ := rfl
  have made : sessionNewFromJinglenode jn s₁
      = .done (some s.sessions.next) (s.inviting jn fromJid toJid) := by
    rw [sessionNewFromJinglenode, sender, addressee]
    rfl
  rw [createSession, bind_done acked, bind_done made]

/-- An invitation that is acknowledged gets its session, or the code stops on the way. -/
theorem createSession_runs (env : Env) (w : World) {s : State} {jn : JingleNode} {fromJid : String}
    (err : Option GError) (sender : jn.message.getFrom = some fromJid)
    (known : ∀ entry ∈ s.jingleIBBs, entry.2 < s.transports.next)
    : (jn.message.getTo.isSome = true ∧ CleanContents env w s jn.content err →
        ∃ s', createSession env w jn err s = .done () s'
          ∧ s'.replies = s.replies ++ [(jn.message, jn.message.newIqFromQuery .result)]
          ∧ s'.staleReads = s.staleReads)
      ∧ (∀ s', createSession env w jn err s = .done () s' →
        jn.message.getTo.isSome = true ∧ CleanContents env w s jn.content err) := by
  cases addressee : jn.message.getTo with
  | none =>
      let s₁ := s.replied jn.message (jn.message.newIqFromQuery .result)
      have acked : jingleAckIq jn.message s = .done () s₁ := rfl
      refine ⟨fun clean => (by simp at clean), fun s' runs => ?_⟩
      have unmade : sessionNewFromJinglenode jn s₁ = .done none s₁ := by
        rw [sessionNewFromJinglenode, sender, addressee]
        rfl
      rw [createSession, bind_done acked, bind_done unmade] at runs
      exact absurd runs (fillSession_none_stops jn err s₁ s')
  | some toJid =>
      obtain ⟨goes, back⟩ := fillSession_runs env w jn err (s.inviting_listed jn fromJid toJid) rfl
        known
      rw [createSession_eq env w s err sender addressee]
      refine ⟨fun needs => ?_, fun s' runs => ?_⟩
      · obtain ⟨_, clean⟩ := needs
        obtain ⟨s', runs, replies, reads⟩ := goes ⟨clean.permitted, clean.distinct, clean.streams⟩
        refine ⟨s', runs, replies.trans ?_, reads⟩
        exact State.replies_replied s jn.message (jn.message.newIqFromQuery .result)
      · obtain ⟨permitted, distinct, streams⟩ := back s' runs
        exact ⟨rfl, permitted, distinct, streams⟩

/-- What is there when an invitation was served. -/
theorem createSession_ends (env : Env) (w : World) {s s' : State} {jn : JingleNode}
    {fromJid : String} (err : Option GError) (sender : jn.message.getFrom = some fromJid)
    (known : ∀ entry ∈ s.jingleIBBs, entry.2 < s.transports.next)
    (runs : createSession env w jn err s = .done () s')
    : ∃ toJid content, jn.message.getTo = some toJid
        ∧ Filled env w (s.inviting jn fromJid toJid) s' s.sessions.next
          (invited jn fromJid toJid) (jn.content.filter (contentKept env w s)) content := by
  obtain ⟨addressee, _⟩ := (createSession_runs env w err sender known).2 s' runs
  obtain ⟨toJid, addressee⟩ := Option.isSome_iff_exists.mp addressee
  rw [createSession_eq env w s err sender addressee] at runs
  obtain ⟨content, filled⟩ :=
    fillSession_ends env w jn err (s.inviting_listed jn fromJid toJid) rfl known runs
  exact ⟨toJid, content, addressee, filled⟩

end McabberJingle
