import McabberJingle.Effects.Remaining
import McabberJingle.Guarantees.AckHandlers
import McabberJingle.Jingle.Making
import McabberJingle.Transfer.Course
import McabberJingle.Transfer.Feeding

/-! Callbacks that run later: those for the replies we wait for, and those for the events the
user was asked about. They keep the session they were made for, which others may remove
meanwhile.
-/

namespace McabberJingle

open Program Program.Prog

variable {env : Env} {w : World} {s s' : State} {running : Option AckPtr} {p : SessionPtr}

-----------------------------------------------------------------------------------------
-- What a callback was made for
-----------------------------------------------------------------------------------------

/-- The session a callback was made for. -/
def AckCallback.session : AckCallback → SessionPtr
  | .sessionInitiate sess => sess
  | .sessionAccept sess => sess
  | .ibbSend sc => sc.owner

/-- The name of the content it was made for, if it is about one. -/
def AckCallback.content : AckCallback → Option String
  | .ibbSend sc => some sc.name
  | _ => none

/-- What a callback was made for is still there. -/
def AckCallback.Present (s : State) (callback : AckCallback) : Prop :=
  ∃ js, s.sessions.get? callback.session = some js
    ∧ ∀ name ∈ callback.content, name ∈ js.content.map SessionContent.name

/-- A callback that runs later: for the reply to an IQ or its timeout, or for an event; and for a
reply through a handle that was freed, whatever is read there.
-/
inductive Deferred where
  | ack (callback : AckCallback) (mess : Option LmMessage)
  | event (context : EvsContext) (sess : SessionPtr)
  | freed (ah : AckPtr) (mess : LmMessage)

def Deferred.Present (s : State) : Deferred → Prop
  | .ack callback _ => callback.Present s
  | .event _ sess => Listed s sess
  | .freed _ _ => False

def Deferred.run (env : Env) (w : World) : Deferred → Run Unit
  | .ack callback mess => callback.run env w mess
  | .event context sess => evscallbackJingle env context sess
  | .freed _ _ => Prog.fail (.useAfterFree .ackHandle)

-----------------------------------------------------------------------------------------
-- When callbacks run
-----------------------------------------------------------------------------------------

section Calls

variable (env : Env) (w : World)

/-- The loop of the timeout checker, come to a list of handles in a state, calls a callback in
another.
-/
inductive Expires (now : Nat)
    : Trail → List AckPtr → State → AckCallback → State → Prop
  | here {prev ah rest s handle callback} (live : s.ackHandlers.get? ah = some handle)
    (expired : handle.expired now = true) (calls : handle.callback = some callback)
    : Expires now prev (ah :: rest) s callback { s with fired := s.fired ++ [(ah, .timeout)] }
  | young {prev ah rest s handle callback σ} (live : s.ackHandlers.get? ah = some handle)
    (unexpired : handle.expired now = false) (later : Expires now .live rest s callback σ)
    : Expires now prev (ah :: rest) s callback σ
  | live {ah rest s s' handle callback σ} (live : s.ackHandlers.get? ah = some handle)
    (expired : handle.expired now = true) (ends : expireHandle env w ah handle s = .done () s')
    (later : Expires now .live rest s' callback σ)
    : Expires now .live (ah :: rest) s callback σ
  | head {ah rest s s' s'' handle callback σ} (live : s.ackHandlers.get? ah = some handle)
    (expired : handle.expired now = true) (ends : expireHandle env w ah handle s = .done () s')
    (link : readFreedLink w s' = .done true s'') (later : Expires now .freed rest s'' callback σ)
    : Expires now .head (ah :: rest) s callback σ

/-- Handling the input in `s` calls a callback, in the state given last. -/
inductive Calls (s : State) : Input → Deferred → State → Prop
  | reply {ah message handle callback} (live : s.ackHandlers.get? ah = some handle)
    (calls : handle.callback = some callback)
    : Calls s (.reply ah message) (.ack callback (some message)) (s.fire ah)
  | late {ah message} (gone : s.ackHandlers.get? ah = none)
    : Calls s (.reply ah message) (.freed ah message) s
  | tick {callback σ}
    (expires : Expires env w s.clock .head (s.ackHandlers.cells.map Prod.fst) s callback σ)
    : Calls s .tick (.ack callback none) σ
  | event {id context sess} (pending : s.events.get? id = some sess)
    : Calls s (.event id context) (.event context sess) s

end Calls

-----------------------------------------------------------------------------------------
-- The invariant
-----------------------------------------------------------------------------------------

/-- A callback finds what it was made for. For the reply to a packet it is enough that no
session is listed, since it looks for one first.
-/
def AckCallback.Harmless (s : State) (callback : AckCallback) : Prop :=
  callback.Present s ∨ (∃ sc, callback = .ibbSend sc) ∧ ∀ q, ¬Listed s q

/-- The callback of some handle besides `running` waits. -/
def Waits (s : State) (running : Option AckPtr) (callback : AckCallback) : Prop :=
  ∃ ah handle, running ≠ some ah ∧ s.ackHandlers.get? ah = some handle
    ∧ handle.callback = some callback

/-- The callbacks that wait find what they were made for. -/
structure Attended (running : Option AckPtr) (s : State) : Prop where
  handles : ∀ callback, Waits s running callback → callback.Harmless s
  events : ∀ id p, s.events.get? id = some p → Listed s p

/-- Nobody waits for the session, except for the replies to its packets when it is the only
one.
-/
structure Dispensable (s : State) (running : Option AckPtr) (p : SessionPtr) : Prop where
  callbacks : ∀ callback, Waits s running callback → callback.session = p →
    (∃ sc, callback = .ibbSend sc) ∧ ∀ q, Listed s q → q = p
  events : ∀ id, s.events.get? id ≠ some p

theorem Dispensable.congr (dispensable : Dispensable s running p)
    (sessions : s'.sessions = s.sessions) (handles : s'.ackHandlers = s.ackHandlers)
    (events : s'.events = s.events)
    : Dispensable s' running p where
  callbacks := by
    simp only [Waits, Listed, handles, sessions]
    exact dispensable.callbacks
  events := by
    rw [events]
    exact dispensable.events

/-- While a session is listed a callback has its own. -/
theorem AckCallback.Harmless.present {callback : AckCallback} (harmless : callback.Harmless s)
    {q : SessionPtr} (listed : Listed s q)
    : callback.Present s :=
  harmless.resolve_right (fun nothing => nothing.2 q listed)

theorem AckCallback.Harmless.congr {callback : AckCallback} (harmless : callback.Harmless s)
    (sessions : s'.sessions = s.sessions)
    : callback.Harmless s' := by
  simpa only [AckCallback.Harmless, AckCallback.Present, Listed, sessions] using harmless

theorem Attended.congr (attended : Attended running s) (sessions : s'.sessions = s.sessions)
    (handles : s'.ackHandlers = s.ackHandlers) (events : s'.events = s.events)
    : Attended running s' where
  handles callback waits := by
    rw [Waits, handles] at waits
    exact (attended.handles callback waits).congr sessions
  events := by
    simp only [Listed, sessions, events]
    exact attended.events

/-- A callback that runs need not be attended to any more. -/
theorem Attended.run (attended : Attended none s) (running : Option AckPtr)
    : Attended running s where
  handles callback waits := by
    obtain ⟨ah, handle, _, live, calls⟩ := waits
    exact attended.handles callback ⟨ah, handle, by simp, live, calls⟩
  events := attended.events

/-- It is freed with its handle. -/
theorem Attended.freed {ah : AckPtr} (attended : Attended (some ah) s)
    : Attended none { s with ackHandlers := s.ackHandlers.erase ah } where
  handles callback waits := by
    obtain ⟨other, handle, _, live, calls⟩ := waits
    obtain ⟨apart, live⟩ := Pool.get?_erase_eq_some.mp live
    refine attended.handles callback ⟨other, handle, ?_, live, calls⟩
    exact fun here => apart (Option.some.inj here).symm
  events := attended.events

theorem Attended.requested (attended : Attended running s) (ident : SessionIdent)
    (iq : LmMessage) {callback : Option AckCallback} (timeout : Nat) (sendOk : Bool)
    (present : ∀ cb, callback = some cb → cb.Present s)
    : Attended running (s.requested ident iq callback timeout sendOk) where
  handles cb waits := by
    obtain ⟨ah, handle, other, live, calls⟩ := waits
    rcases Pool.get?_alloc_eq_some.mp live with ⟨_, rfl⟩ | old
    · exact Or.inl (present cb calls)
    · exact (attended.handles cb ⟨ah, handle, other, old, calls⟩).congr rfl
  events := attended.events

theorem Attended.asking (attended : Attended running s) (w : World) (listed : Listed s p)
    : Attended running (s.asking w p) := by
  unfold State.asking
  split
  · refine ⟨fun cb waits => (attended.handles cb waits).congr rfl, fun id q pending => ?_⟩
    rcases Pool.get?_alloc_eq_some.mp pending with ⟨_, rfl⟩ | old
    · exact listed
    · exact attended.events id q old
  · exact attended

/-- A callback whose session and names are the same is as harmless as before. -/
theorem AckCallback.Present.remains {gone : SessionPtr → Prop} {asked : AckCallback → Prop}
    {callback : AckCallback} (present : callback.Present s) (remains : Remains gone asked s s')
    (safe : ¬gone callback.session)
    : callback.Present s' := by
  obtain ⟨js, listed, named⟩ := present
  obtain ⟨js', listed', same⟩ := remains.sessions _ js safe listed
  exact ⟨js', listed', fun name about => same ▸ named name about⟩

/-- What remains is attended to, if nothing that was waited for is gone. -/
theorem Attended.remains {gone : SessionPtr → Prop} {asked : AckCallback → Prop}
    (attended : Attended running s) (remains : Remains gone asked s s')
    (harmless : ∀ callback, Waits s running callback →
      gone callback.session ∨ ¬callback.Present s → callback.Harmless s')
    (unasked : ∀ id p, s.events.get? id = some p → ¬gone p)
    (present : ∀ callback, asked callback → callback.Harmless s')
    : Attended running s' where
  handles callback waits := by
    obtain ⟨ah, handle, other, live, calls⟩ := waits
    rcases remains.handles ah handle callback live calls with before | new
    · have waited : Waits s running callback := ⟨ah, handle, other, before, calls⟩
      by_cases lost : gone callback.session ∨ ¬callback.Present s
      · exact harmless callback waited lost
      · obtain ⟨safe, there⟩ := not_or.mp lost
        exact Or.inl ((not_not.mp there).remains remains safe)
    · exact present callback new
  events id p pending := by
    have before := remains.events id p pending
    obtain ⟨js, listed⟩ := attended.events id p before
    obtain ⟨js', listed', _⟩ := remains.sessions p js (unasked id p before) listed
    exact ⟨js', listed'⟩

/-- Code that takes no session away. -/
theorem Attended.kept {asked : AckCallback → Prop} (attended : Attended running s)
    (remains : Remains (fun _ => False) asked s s')
    (present : ∀ callback, asked callback → callback.Present s)
    : Attended running s' := by
  refine attended.remains remains ?_ (fun _ _ _ => id) ?_
  · intro callback waits lost
    have absent := lost.resolve_left id
    obtain ⟨packet, nothing⟩ := (attended.handles callback waits).resolve_left absent
    exact Or.inr ⟨packet, fun q listed => (remains.since q listed).elim (nothing q) id⟩
  · exact fun callback new => Or.inl ((present callback new).remains remains id)

/-- Code that removes a session nobody waits for. -/
theorem Attended.removed (attended : Attended running s) (listed : Listed s p)
    (remains : Remains (· = p) (fun _ => False) s s') (removed : s'.sessions.get? p = none)
    (dispensable : Dispensable s running p)
    : Attended running s' := by
  refine attended.remains remains ?_ ?_ (fun _ new => new.elim)
  · intro callback waits lost
    have present := (attended.handles callback waits).present listed
    obtain ⟨packet, only⟩ := dispensable.callbacks callback waits
      (lost.resolve_right (not_not.mpr present))
    refine Or.inr ⟨packet, fun q still => ?_⟩
    have same : q = p := (remains.since q still).elim (only q) id
    obtain ⟨js, there⟩ := still
    rw [same, removed] at there
    cases there
  · rintro id q pending rfl
    exact dispensable.events id pending

/-- Code that opens a session while every callback has its own. -/
theorem Attended.opened (attended : Attended running s)
    (present : ∀ callback, Waits s running callback → callback.Present s)
    (remains : Remains (· = s.sessions.next) (fun _ => False) s s')
    : Attended running s' := by
  have old {q : SessionPtr} (listed : Listed s q) : q ≠ s.sessions.next := by
    obtain ⟨js, there⟩ := listed
    exact Nat.ne_of_lt (Pool.lt_next there)
  refine attended.remains remains ?_ ?_ (fun _ new => new.elim)
  · intro callback waits lost
    have there := present callback waits
    have new := lost.resolve_right (not_not.mpr there)
    exact absurd new (old (there.imp (fun _ => And.left)))
  · exact fun id q pending => old (attended.events id q pending)

-----------------------------------------------------------------------------------------
-- Data that is asked for
-----------------------------------------------------------------------------------------

/-- More than a block waits in the buffer of the content's stream. -/
def BlockWaits (s : State) (content : SessionContent) : Prop :=
  ∃ t jibb, content.transport = some t ∧ s.transports.get? t = some (.ibb jibb)
    ∧ jibb.blocksize < jibb.buf.length

/-- The file of a content may end: as the last content of its session when nobody waits for the
session, and with a packet to send when no other session is listed; and before the last content
when neither packet of it waits nor is one sent.
-/
structure Endable (s : State) (running : Option AckPtr) (p : SessionPtr) (js : JingleSession)
    (content : SessionContent)
    : Prop where
  last : js.without content.name = none →
    Dispensable s running p ∧ (RunsOut s content ∨ ∀ q, Listed s q → q = p)
  more : js.without content.name ≠ none →
    RunsOut s content ∧ ¬Waits s running (.ibbSend { owner := p, name := content.name })

/-- The file of a content fills a block yet, or it may end. -/
def Supplied (s : State) (running : Option AckPtr) (p : SessionPtr) (js : JingleSession)
    (content : SessionContent)
    : Prop :=
  GoesOn s content ∨ Endable s running p js content

section Asking

variable {sc : SessionContentRef} {js : JingleSession} {content : SessionContent}

theorem Supplied.congr (supplied : Supplied s running p js content)
    (sessions : s'.sessions = s.sessions) (transfers : s'.infoList = s.infoList)
    (transports : s'.transports = s.transports) (handles : s'.ackHandlers = s.ackHandlers)
    (events : s'.events = s.events)
    : Supplied s' running p js content := by
  refine supplied.imp ?_ (fun endable => ⟨fun last => ?_, fun more => ?_⟩)
  · simp only [GoesOn, transfers, transports]
    exact id
  · obtain ⟨dispensable, only⟩ := endable.last last
    refine ⟨dispensable.congr sessions handles events, ?_⟩
    simpa only [RunsOut, Drained, Listed, sessions, transfers, transports] using only
  · simpa only [RunsOut, Drained, Waits, transfers, transports, handles] using endable.more more

/-- A callback for a content is present where it leads to. -/
theorem LeadsTo.present (leads : LeadsTo s sc p js content)
    : (AckCallback.ibbSend { owner := p, name := content.name }).Present s := by
  refine ⟨js, leads.finds.listed, fun name about => ?_⟩
  cases about
  exact List.mem_map_of_mem (sessionFindSessioncontent_mem leads.named).1

theorem Attended.feeds (attended : Attended running s) {ref : SessionContentRef}
    (present : (AckCallback.ibbSend ref).Present s) (feeds : Feeds s ref s')
    : Attended running s' where
  handles callback waits := by
    obtain ⟨ah, handle, other, live, calls⟩ := waits
    rcases feeds.handles ah handle callback live calls with before | ⟨_, rfl⟩
    · exact (attended.handles callback ⟨ah, handle, other, before, calls⟩).congr feeds.sessions
    · exact AckCallback.Harmless.congr (Or.inl present) feeds.sessions
  events id p pending := by
    rw [feeds.events] at pending
    simp only [Listed, feeds.sessions]
    exact attended.events id p pending

/-- What another session's callback was made for is as it was. -/
theorem Leaves.present {own : Option JingleSession} {ref : SessionContentRef} {rest : Prop}
    {callback : AckCallback} (leaves : Leaves s p own ref rest s') (other : callback.session ≠ p)
    (present : callback.Present s)
    : callback.Present s' := by
  obtain ⟨js, listed, named⟩ := present
  exact ⟨js, (leaves.others _ other).trans listed, named⟩

/-- The file of the only content ends. -/
theorem Attended.ends (attended : Attended running s) (leads : LeadsTo s sc p js content)
    (leaves : Leaves s p none { owner := p, name := content.name } (¬RunsOut s content) s')
    (dispensable : Dispensable s running p)
    (only : RunsOut s content ∨ ∀ q, Listed s q → q = p)
    : Attended running s' := by
  have gone (only : ∀ q, Listed s q → q = p) (q : SessionPtr) : ¬Listed s' q := by
    intro still
    obtain ⟨js', there⟩ := still
    by_cases here : q = p
    · rw [here, leaves.own] at there
      cases there
    · exact here (only q ⟨js', (leaves.others q here).symm.trans there⟩)
  have others (q : SessionPtr) (other : q ≠ p) (listed : Listed s q) : Listed s' q := by
    obtain ⟨js', there⟩ := listed
    exact ⟨js', (leaves.others q other).trans there⟩
  refine ⟨fun callback waits => ?_, fun id q pending => ?_⟩
  · obtain ⟨ah, handle, running', live, calls⟩ := waits
    rcases leaves.handles ah handle callback live calls with before | ⟨rest, rfl⟩
    · have waited : Waits s running callback := ⟨ah, handle, running', before, calls⟩
      have present := (attended.handles callback waited).present ⟨js, leads.finds.listed⟩
      by_cases here : callback.session = p
      · obtain ⟨packet, only⟩ := dispensable.callbacks callback waited here
        exact Or.inr ⟨packet, gone only⟩
      · exact Or.inl (leaves.present here present)
    · exact Or.inr ⟨⟨_, rfl⟩, gone (only.resolve_left rest)⟩
  · rw [leaves.events] at pending
    refine others q ?_ (attended.events id q pending)
    rintro rfl
    exact dispensable.events id pending

/-- The file of one content among others ends. -/
theorem Attended.endsOne (attended : Attended running s) (leads : LeadsTo s sc p js content)
    {js' : JingleSession} (without : js.without content.name = some js')
    (leaves : Leaves s p (some js') { owner := p, name := content.name } (¬RunsOut s content) s')
    (runsOut : RunsOut s content)
    (answered : ¬Waits s running (.ibbSend { owner := p, name := content.name }))
    : Attended running s' := by
  have listed := leads.finds.listed
  refine ⟨fun callback waits => ?_, fun id q pending => ?_⟩
  · obtain ⟨ah, handle, running', live, calls⟩ := waits
    rcases leaves.handles ah handle callback live calls with before | ⟨rest, _⟩
    · have waited : Waits s running callback := ⟨ah, handle, running', before, calls⟩
      have present := (attended.handles callback waited).present ⟨js, listed⟩
      by_cases here : callback.session = p
      · obtain ⟨_, there, named⟩ := present
        rw [here] at there
        cases there.symm.trans listed
        refine Or.inl ⟨js', here ▸ leaves.own, fun name about => ?_⟩
        have apart : name ≠ content.name := by
          rintro rfl
          cases callback with
          | ibbSend ref =>
              obtain ⟨owner, _⟩ := ref
              cases here
              cases about
              exact answered waited
          | _ => cases about
        obtain ⟨other, member, rfl⟩ := List.mem_map.mp (named name about)
        have kept := mem_removeFirst_of_ne member apart
        unfold JingleSession.without at without
        split at without
        · cases without
        · cases without
          exact List.mem_map_of_mem kept
      · exact Or.inl (leaves.present here present)
    · exact absurd runsOut rest
  · rw [leaves.events] at pending
    obtain ⟨old, there⟩ := attended.events id q pending
    by_cases here : q = p
    · exact ⟨js', here ▸ leaves.own⟩
    · exact ⟨old, (leaves.others q here).trans there⟩

/-- A turn of the circle on a content that is supplied. -/
theorem Attended.turned (attended : Attended running s) (leads : LeadsTo s sc p js content)
    (supplied : Supplied s running p js content)
    (turned : Turned (GoesOn s content) (¬RunsOut s content) s p js content s')
    : Attended running s' := by
  rcases turned with feeds | ⟨ended, leaves⟩
  · exact attended.feeds leads.present feeds
  have endable := supplied.resolve_left ended
  cases without : js.without content.name with
  | none =>
      rw [without] at leaves
      obtain ⟨dispensable, only⟩ := endable.last without
      exact attended.ends leads leaves dispensable only
  | some js' =>
      rw [without] at leaves
      obtain ⟨runsOut, answered⟩ := endable.more (by simp [without])
      exact attended.endsOne leads without leaves runsOut answered

theorem ftSendAll_attended (attended : Attended running s) (leads : LeadsTo s sc p js content)
    (supplied : Supplied s running p js content)
    : (ftSendAll env w sc).wp (fun _ => Attended running)
        (fun error _ => NotAckHandle error) s := by
  refine wp_known rfl ?_
  exact wp_post (ftSend_turns _ leads) (fun _ _ turned => attended.turned leads supplied turned)

/-- `start` changes nothing of the file and its stream before the first read. -/
theorem ftStart_attended (attended : Attended running s)
    (supplied : ∀ p js content, LeadsTo s sc p js content → Supplied s running p js content)
    : (ftStart env w sc).wp (fun _ => Attended running) (fun error _ => NotAckHandle error) s := by
  refine wp_seq (sessionFindByRef_known sc) ?_
  rintro found s ⟨rfl, finds⟩
  cases found with
  | none => exact attended
  | some cell =>
      obtain ⟨p, js⟩ := cell
      refine wp_seq (deref_known .content _) ?_
      rintro content s ⟨rfl, named⟩
      refine wp_seq (deref_known .description _) ?_
      rintro d s ⟨rfl, described⟩
      refine wp_seq (readFt_known d) ?_
      rintro ft s ⟨rfl, listed⟩
      let ft₁ : JingleFT := { ft with state := .starting, md5 := .running [] }
      refine wp_cut (fun _ s' => s' = s.withFt d ft₁) ?_ ?_
      · rw [wp, modifyFt_eq listed]
      rintro _ s₁ rfl
      refine wp_seq (deref_known .appfuncs _) ?_
      rintro _ s₁ ⟨rfl, _⟩
      have leads : LeadsTo s sc p js content := ⟨finds, named⟩
      have leads₁ : LeadsTo (s.withFt d ft₁) sc p js content := leads.congr rfl
      have listed₁ : (s.withFt d ft₁).infoList.get? d = some ft₁ := State.withFt_get? listed
      have runsOut (out : RunsOut s content) : RunsOut (s.withFt d ft₁) content := by
        intro d' jft reads described' there reading
        cases described.symm.trans described'
        cases listed₁.symm.trans there
        exact out d ft reads described listed reading
      refine ftSendAll_attended (attended.congr rfl rfl rfl) leads₁ ?_
      refine (supplied p js content leads).imp ?_ (fun endable => ?_)
      · intro goesOn d' jft reads described' there reading
        cases described.symm.trans described'
        cases listed₁.symm.trans there
        exact goesOn d ft reads described listed reading
      · refine ⟨fun last => ?_, fun more => ?_⟩
        · obtain ⟨dispensable, only⟩ := endable.last last
          exact ⟨dispensable.congr rfl rfl rfl, only.imp_left runsOut⟩
        · exact (endable.more more).imp_left runsOut

/-- The reply to a packet makes the next block go out, or asks for more. -/
theorem jingleIbbHandleAckIqSend_attended (attended : Attended running s)
    (harmless : (AckCallback.ibbSend sc).Harmless s)
    (supplied : ∀ p js content, LeadsTo s sc p js content →
      BlockWaits s content ∨ Supplied s running p js content)
    : (jingleIbbHandleAckIqSend env w sc).wp (fun _ => Attended running)
        (fun error _ => NotAckHandle error) s := by
  refine wp_seq (sessionFindByRef_known sc) ?_
  rintro found s ⟨rfl, finds⟩
  cases found with
  | none => exact attended
  | some cell =>
      obtain ⟨p, js⟩ := cell
      refine wp_seq (deref_known .content _) ?_
      rintro content s ⟨rfl, named⟩
      refine wp_seq (deref_known .transport _) ?_
      rintro t s ⟨rfl, carried⟩
      refine wp_seq (readIbb_known t) ?_
      rintro jibb s ⟨rfl, there⟩
      have leads : LeadsTo s sc p js content := ⟨finds, named⟩
      rw [wp_ite]
      constructor
      · intro _
        rw [wp_ite]
        refine ⟨fun _ => fail_known (by decide), fun _ => ?_⟩
        refine wp_post (ibbSendBlock_feeds s sc p js t) (fun _ s' feeds => ?_)
        exact attended.feeds (harmless.present ⟨js, finds.listed⟩) feeds
      · intro little
        have asked : Supplied s running p js content := by
          refine (supplied p js content leads).resolve_left ?_
          rintro ⟨t', jibb', carried', there', waits⟩
          cases carried.symm.trans carried'
          cases there.symm.trans there'
          exact little waits
        refine wp_seq (sessionFindByRef_known sc) ?_
        rintro found s ⟨rfl, finds'⟩
        cases finds'.unique finds
        refine wp_seq (deref_known .content _) ?_
        rintro _ s ⟨rfl, _⟩
        refine wp_seq (deref_known .appfuncs _) ?_
        rintro _ s ⟨rfl, _⟩
        exact ftSendAll_attended attended leads asked

end Asking

-----------------------------------------------------------------------------------------
-- Replies and timeouts
-----------------------------------------------------------------------------------------

/-- What a callback may do: those of an invitation may delete their session unless the peer
agrees, that of a packet may go on with the file.
-/
def AckCallback.MayRun (s : State) (ah : AckPtr) (mess : Option LmMessage)
    : AckCallback → Prop
  | .ibbSend sc => ∀ p js content, LeadsTo s sc p js content →
      BlockWaits s content ∨ Supplied s (some ah) p js content
  | callback => (∀ m ∈ mess, m.subType ≠ .result) → Dispensable s (some ah) callback.session

theorem sessionDelete_attended (attended : Attended running s) (listed : Listed s p)
    (dispensable : Dispensable s running p)
    : (sessionDelete w p).wp (fun _ => Attended running) (fun error _ => NotAckHandle error) s := by
  have stable : Stable (.remaining (· = p) (fun _ => False)) (Remains (· = p) (fun _ => False) s) :=
    remains_stable
  refine wp_post (sessionDelete_gone stable w rfl (.refl _ _ s)) (fun _ s' ends => ?_)
  exact attended.removed listed ends.1 ends.2.1 dispensable

/-- The callback of a session-initiate or a session-accept. -/
theorem deleteOnReply_attended (attended : Attended running s) (listed : Listed s p)
    (mess : LmMessage) (dispensable : mess.subType ≠ .result → Dispensable s running p)
    : (deleteOnReply w p mess).wp (fun _ => Attended running)
        (fun error _ => NotAckHandle error) s := by
  unfold deleteOnReply
  rw [wp_ite]
  refine ⟨fun _ => attended, fun failed => ?_⟩
  have delete := sessionDelete_attended (w := w) attended listed (dispensable failed)
  dsimp only
  split
  · refine wp_seq (deref_known .message _) ?_
    rintro _ s ⟨rfl, _⟩
    exact delete
  · exact delete

theorem AckCallback.run_attended {ah : AckPtr} {mess : Option LmMessage} {callback : AckCallback}
    (attended : Attended (some ah) s) (harmless : callback.Harmless s)
    (may : callback.MayRun s ah mess)
    : (callback.run env w mess).wp (fun _ => Attended (some ah))
        (fun error _ => NotAckHandle error) s := by
  have listed (other : ∀ sc, callback ≠ .ibbSend sc) : Listed s callback.session := by
    have present := harmless.resolve_right (fun packet => packet.1.elim other)
    exact present.imp (fun _ => And.left)
  cases callback with
  | ibbSend sc => exact jingleIbbHandleAckIqSend_attended attended harmless may
  | sessionInitiate sess =>
      have listed := listed (fun _ same => by cases same)
      cases mess with
      | none => exact sessionDelete_attended attended listed (may (fun _ none => by cases none))
      | some m =>
          refine deleteOnReply_attended attended listed m (fun failed => may ?_)
          exact fun _ same => by cases same; exact failed
  | sessionAccept sess =>
      have listed := listed (fun _ same => by cases same)
      cases mess with
      | none => exact sessionDelete_attended attended listed (may (fun _ none => by cases none))
      | some m =>
          refine deleteOnReply_attended attended listed m (fun failed => may ?_)
          exact fun _ same => by cases same; exact failed

theorem readAck_known (ah : AckPtr)
    : (readAck ah).wp (fun handle s' => s' = s ∧ s.ackHandlers.get? ah = some handle)
        (fun error _ => AnyFault error) s := by
  change (alive .ackHandle (s.ackHandlers.get? ah)).wp _ _ s
  cases s.ackHandlers.get? ah with
  | none => trivial
  | some handle => exact ⟨rfl, rfl⟩

/-- That a callback is recorded before it runs changes nothing of what it may do. -/
theorem AckCallback.MayRun.fired {ah : AckPtr} {mess : Option LmMessage} {callback : AckCallback}
    (may : callback.MayRun s ah mess) (type : JingleAckType)
    : callback.MayRun { s with fired := s.fired ++ [(ah, type)] } ah mess := by
  cases callback with
  | ibbSend sc =>
      intro p js content leads
      exact (may p js content (leads.congr rfl)).imp_right (fun supplied =>
        supplied.congr rfl rfl rfl rfl rfl)
  | sessionInitiate sess => exact fun failed => (may failed).congr rfl rfl rfl
  | sessionAccept sess => exact fun failed => (may failed).congr rfl rfl rfl

theorem runCallback_attended {ah : AckPtr} {handle : JingleAckHandle} {mess : Option LmMessage}
    (attended : Attended none s) (live : s.ackHandlers.get? ah = some handle) (type : JingleAckType)
    (may : ∀ callback, handle.callback = some callback → callback.MayRun s ah mess)
    : (runCallback env w ah type mess handle.callback).wp (fun _ => Attended (some ah))
        (fun error _ => NotAckHandle error) s := by
  cases calls : handle.callback with
  | none => exact attended.run (some ah)
  | some callback =>
      refine wp_cut (fun _ s' => s' = { s with fired := s.fired ++ [(ah, type)] }) rfl ?_
      rintro _ _ rfl
      have harmless := attended.handles callback ⟨ah, handle, by simp, live, calls⟩
      exact AckCallback.run_attended ((attended.run (some ah)).congr rfl rfl rfl)
        (harmless.congr rfl) ((may callback calls).fired type)

theorem jingleHandleAckIq_attended {ah : AckPtr} (attended : Attended none s)
    (message : LmMessage)
    (may : ∀ handle callback, s.ackHandlers.get? ah = some handle →
      handle.callback = some callback → callback.MayRun s ah (some message))
    : (jingleHandleAckIq env w ah message).wp (fun _ => Attended none)
        (fun error _ => AnyFault error) s := by
  refine wp_seq (readAck_known ah) ?_
  rintro handle s ⟨rfl, live⟩
  refine wp_seq (anyFault (runCallback_attended attended live .response (fun callback =>
    may handle callback live))) ?_
  exact fun _ s' ran => ran.freed.congr rfl rfl rfl

/-- What is there in the loop of the timeout checker that began in `s`. -/
structure InTime (s σ : State) : Prop where
  attended : Attended none σ
  remains : Remains (Listed s) (fun _ => False) s σ

/-- Nobody waits for the sessions whose requests have expired. -/
def TimeoutsOrderly (s : State) : Prop :=
  ∀ ah handle callback, s.ackHandlers.get? ah = some handle → handle.expired s.clock = true →
    handle.callback = some callback → Dispensable s (some ah) callback.session

/-- With less waiting and fewer sessions, a session is dispensable yet. -/
theorem Dispensable.remains {σ : State} (dispensable : Dispensable s running p)
    (remains : Remains (Listed s) (fun _ => False) s σ)
    : Dispensable σ running p where
  callbacks callback waits about := by
    obtain ⟨ah, handle, other, live, calls⟩ := waits
    have before := (remains.handles ah handle callback live calls).resolve_right id
    obtain ⟨packet, only⟩ := dispensable.callbacks callback ⟨ah, handle, other, before, calls⟩ about
    exact ⟨packet, fun q listed => only q ((remains.since q listed).elim id id)⟩
  events id pending := dispensable.events id (remains.events id p pending)

theorem expireHandle_inTime {σ : State} {ah : AckPtr} {handle : JingleAckHandle}
    (timed : Timed s) (orderly : TimeoutsOrderly s) (inTime : InTime s σ)
    (live : σ.ackHandlers.get? ah = some handle) (expired : handle.expired s.clock = true)
    : (expireHandle env w ah handle).wp (fun _ => InTime s) (fun error _ => AnyFault error) σ := by
  have waits : handle.timeout ≠ 0 := by
    simp only [JingleAckHandle.expired, Bool.and_eq_true, bne_iff_ne] at expired
    exact expired.1
  have before (callback : AckCallback) (calls : handle.callback = some callback)
      : s.ackHandlers.get? ah = some handle :=
    (inTime.remains.handles ah handle callback live calls).resolve_right id
  have may (callback : AckCallback) (calls : handle.callback = some callback)
      : callback.MayRun σ ah none := by
    have dispensable := orderly ah handle callback (before callback calls) expired calls
    obtain ⟨sess, invites⟩ := timed ah handle (before callback calls) waits
    cases callback with
    | ibbSend sc => simp [calls] at invites
    | _ => exact fun _ => dispensable.remains inTime.remains
  have attended : (expireHandle env w ah handle).wp (fun _ => Attended none)
      (fun error _ => NotAckHandle error) σ := by
    refine wp_seq (runCallback_attended inTime.attended live .timeout may) ?_
    exact fun _ σ' ran => ran.freed
  have remains : (expireHandle env w ah handle).wp
      (fun _ => Remains (Listed s) (fun _ => False) s) (fun error _ => NotAckHandle error) σ := by
    have stable : Stable (.remaining (Listed s) (fun _ => False))
        (Remains (Listed s) (fun _ => False) s) := remains_stable
    refine keeps_bind (runCallback_keeps stable env w _ _ trivial (fun callback calls => ?_))
      (fun _ => jingleAckHandlerFree_keeps stable trivial) σ inTime.remains
    have harmless := inTime.attended.handles callback ⟨ah, handle, by simp, live, calls⟩
    obtain ⟨sess, invites⟩ := timed ah handle (before callback calls) waits
    cases callback with
    | ibbSend sc => simp [calls] at invites
    | _ =>
        refine ⟨fun sess same _ => ?_, fun sc same => by cases same⟩
        obtain ⟨js, listed, _⟩ := harmless.resolve_right (fun packet => by simp at packet)
        have here := (inTime.remains.since _ ⟨js, listed⟩).elim id id
        rcases same with same | same
        all_goals
          cases same
          try exact here
  exact wp_mono (wp_and (anyFault attended) (anyFault remains))
    (fun _ _ both => ⟨both.1, both.2⟩) (fun _ _ _ => trivial)

theorem readFreedLink_inTime {σ : State} (inTime : InTime s σ)
    : (readFreedLink w).wp (fun _ => InTime s) (fun error _ => NotAckHandle error) σ := by
  refine wp_post (readFreedLink_known w) ?_
  rintro link _ ⟨rfl, _⟩
  exact ⟨inTime.attended.congr rfl rfl rfl, inTime.remains.congr rfl rfl rfl⟩

/-- By induction on the handles still to visit. -/
theorem timeoutLoop_inTime (timed : Timed s) (orderly : TimeoutsOrderly s) (prev : Trail)
    (handles : List AckPtr)
    : Keeps (InTime s) AnyFault (timeoutLoop env w s.clock prev handles) := by
  induction handles generalizing prev with
  | nil => exact keeps_pure _
  | cons ah rest ih =>
      intro σ inTime
      refine wp_seq (readAck_known ah) ?_
      rintro handle σ ⟨rfl, live⟩
      rw [wp_ite]
      refine ⟨fun expired => ?_, fun _ => ih .live σ inTime⟩
      refine wp_seq (expireHandle_inTime timed orderly inTime live expired) ?_
      refine fun _ => keeps_bind readOnly_get.keeps (fun _ => keeps_ite (keeps_pure _) ?_)
      cases prev with
      | live => exact ih .live
      | head =>
          refine keeps_bind (fun σ inTime => anyFault (readFreedLink_inTime inTime))
            (fun link => ?_)
          exact keeps_ite (ih .freed) (keeps_pure _)
      | freed =>
          refine keeps_bind (fun σ inTime => anyFault (readFreedLink_inTime inTime))
            (fun link => ?_)
          exact keeps_ite (keeps_bind (readAck_readOnly ah).keeps (fun _ => keeps_pure _))
            (keeps_pure _)

/-- By induction on the way to the call. -/
theorem Expires.harmless {prev : Trail} {handles : List AckPtr} {σ σ' : State}
    {callback : AckCallback} (expires : Expires env w s.clock prev handles σ callback σ')
    (timed : Timed s) (orderly : TimeoutsOrderly s) (inTime : InTime s σ)
    : callback.Harmless σ' := by
  induction expires with
  | @here prev ah rest σ handle callback live expired calls =>
      exact (inTime.attended.handles callback ⟨ah, handle, by simp, live, calls⟩).congr rfl
  | young live unexpired later ih => exact ih inTime
  | @live ah rest σ σ₁ handle callback σ' live expired ends later ih =>
      have ran : (expireHandle env w ah handle).wp (fun _ => InTime s) _ σ :=
        expireHandle_inTime timed orderly inTime live expired
      exact ih (wp_done (m := expireHandle env w ah handle) ran ends)
  | @head ah rest σ σ₁ σ₂ handle callback σ' live expired ends link later ih =>
      have ran : (expireHandle env w ah handle).wp (fun _ => InTime s) _ σ :=
        expireHandle_inTime timed orderly inTime live expired
      have next := wp_done (m := expireHandle env w ah handle) ran ends
      exact ih (wp_done (m := readFreedLink w) (readFreedLink_inTime next) link)

-----------------------------------------------------------------------------------------
-- Sessions that are opened
-----------------------------------------------------------------------------------------

/-- Every packet that waits for its reply has its content. -/
def NoStalePacket (s : State) : Prop :=
  ∀ sc, Waits s none (.ibbSend sc) → (AckCallback.ibbSend sc).Present s

theorem Attended.present (attended : Attended none s) (fresh : NoStalePacket s)
    (callback : AckCallback) (waits : Waits s none callback)
    : callback.Present s := by
  cases callback with
  | ibbSend sc => exact fresh sc waits
  | _ => exact (attended.handles _ waits).resolve_right (fun packet => by simp at packet)

/-- The contents of an invitation touch no handle and no event. -/
theorem State.adding_same (env : Env) (w : World) (p : SessionPtr) (contents : List JingleContent)
    (s : State)
    : (contents.foldl (State.adding env w p) s).ackHandlers = s.ackHandlers
      ∧ (contents.foldl (State.adding env w p) s).events = s.events := by
  induction contents generalizing s with
  | nil => exact ⟨rfl, rfl⟩
  | cons cn rest ih =>
      obtain ⟨handles, events⟩ := ih (s.adding env w p cn)
      rw [List.foldl_cons, handles, events]
      obtain ⟨_, _, same⟩ | ⟨_, _, _, jft, adds⟩ | ⟨_, _, _, _, jft, transport, _, _, _, _, adds⟩ :=
        State.adding_cases env w p s cn
      · rw [same]
        exact ⟨rfl, rfl⟩
      · rw [adds]
        exact ⟨rfl, rfl⟩
      · rw [adds]
        cases transport <;> exact ⟨rfl, rfl⟩

/-- A session that was opened goes at once. -/
theorem Attended.declined (attended : Attended none s)
    (remains : Remains (· = s.sessions.next) (fun _ => False) s s')
    (removed : s'.sessions.get? s.sessions.next = none)
    : Attended none s' := by
  have old {q : SessionPtr} (listed : Listed s q) : q ≠ s.sessions.next := by
    obtain ⟨js, there⟩ := listed
    exact Nat.ne_of_lt (Pool.lt_next there)
  refine attended.remains remains ?_ ?_ (fun _ new => new.elim)
  · intro callback waits lost
    rcases attended.handles callback waits with present | ⟨packet, nothing⟩
    · have new := lost.resolve_right (not_not.mpr present)
      exact absurd new (old (present.imp (fun _ => And.left)))
    · refine Or.inr ⟨packet, fun q listed => ?_⟩
      have new := (remains.since q listed).resolve_left (nothing q)
      obtain ⟨js, there⟩ := listed
      rw [new, removed] at there
      cases there
  · exact fun id q pending => old (attended.events id q pending)

/-- A session that an invitation opened stays when a content of it was kept. -/
theorem invitation_attended {input : Input} {jn : JingleNode} (layout : Layout s)
    (attended : Attended none s) (opens : input.invitation env w s = some jn)
    (fresh : (checkContents jn).jn.content.filter (contentKept env w s) ≠ [] → NoStalePacket s)
    (step : Step env s (w, input) s')
    : Attended none s' := by
  obtain ⟨passes, absent, run⟩ := invitation_ends opens step
  simp only [acceptable, Bool.and_eq_true, Option.any_eq_true] at passes
  obtain ⟨⟨⟨⟨sender, known, _⟩, _⟩, _⟩, _⟩ := passes
  have message := (checkContentsLoop_node jn none jn.node.children).1
  have known' : (checkContents jn).jn.message.getFrom = some sender :=
    (congrArg LmMessage.getFrom message).trans known
  obtain ⟨toJid, content, s₁, _, loop, making, rfl⟩ :=
    createSession_makes known' layout.streams run
  let js := invited (checkContents jn).jn sender toJid
  let s₀ := s.inviting (checkContents jn).jn sender toJid
  have start : s₀.sessions.get? s.sessions.next = some js := s.inviting_listed _ sender toJid
  have made := addContents_adds _ _ start loop
  obtain ⟨handles, events⟩ :=
    State.adding_same env w s.sessions.next (checkContents jn).jn.content s₀
  rw [← made] at handles events
  have opened : Remains (· = s.sessions.next) (fun _ => False) s (s.opening js) :=
    (Remains.refl _ _ s).opened js rfl
  have remains₀ : Remains (· = s.sessions.next) (fun _ => False) s s₀ := opened.congr rfl rfl rfl
  have remains : Remains (· = s.sessions.next) (fun _ => False) s s₁ := by
    refine (remains₀.rewritten (p := s.sessions.next) (g := fun _ => content) ?_).congr
      making.sessions handles events
    exact fun _ other => absurd rfl other
  unfold State.settling
  by_cases empty : content = []
  · rw [if_pos empty]
    refine attended.declined ?_ (Pool.get?_erase_self _ _)
    exact (remains.requested _ _ 0 true (fun _ none => by cases none)).erase rfl
  · rw [if_neg empty]
    have kept : (checkContents jn).jn.content.filter (contentKept env w s) ≠ [] := by
      intro nothing
      have names := making.names start
      rw [show contentKept env w s₀ = contentKept env w s from rfl, nothing] at names
      exact empty (List.map_eq_nil_iff.mp names)
    have attended₁ := attended.opened (attended.present (fresh kept)) remains
    exact attended₁.asking w ⟨_, making.listed start⟩

/-- Contents that are rewritten keep their names. -/
theorem Attended.rewritten (attended : Attended running s)
    {g : List SessionContent → List SessionContent}
    (names : ∀ content, (g content).map SessionContent.name = content.map SessionContent.name)
    : Attended running (s.withContent p g) := by
  have remains : Remains (fun _ => False) (fun _ => False) s (s.withContent p g) :=
    (Remains.refl _ _ s).rewritten (fun js _ _ => names js.content)
  exact attended.kept remains (fun _ asked => asked.elim)

theorem NoStalePacket.kept (fresh : NoStalePacket s)
    (remains : Remains (fun _ => False) (fun _ => False) s s')
    : NoStalePacket s' := by
  intro sc waits
  obtain ⟨ah, handle, other, live, calls⟩ := waits
  have before := (remains.handles ah handle _ live calls).resolve_right id
  exact (fresh sc ⟨ah, handle, other, before, calls⟩).remains remains id

/-- The session that is invited to waits for the reply. -/
theorem jingleSendSessionInitiate_attended (attended : Attended none s) (sent : w.sendOk = true)
    : (jingleSendSessionInitiate env w p).wp (fun _ => Attended none)
        (fun error _ => NotAckHandle error) s := by
  refine wp_seq (readSession_known p) ?_
  rintro js s ⟨rfl, listed⟩
  refine wp_seq (lmMessageFromJinglesession_known env js .sessionInitiate) ?_
  rintro mess s ⟨rfl, _⟩
  refine wp_cut (fun _ => Attended none) ?_ (fun _ s' attended' => ?_)
  · refine attended.requested (js.ident p) _ 60 w.sendOk ?_
    rintro cb same
    cases same
    exact ⟨js, listed, fun _ about => by cases about⟩
  · rw [if_pos sent]
    exact attended'

/-- Offering a transport leaves the names of the contents. -/
theorem jingleHandleApp_attended (attended : Attended none s) (sent : w.sendOk = true)
    (name xmlnsApp : String) (app : FtPtr)
    : (jingleHandleApp env w name xmlnsApp app).wp (fun _ => Attended none)
        (fun error _ => NotAckHandle error) s := by
  refine wp_known rfl ?_
  refine wp_seq (jingleTransportForApp_readOnly xmlnsApp none s) ?_
  rintro chosen s rfl
  obtain ⟨xmlns, forbid⟩ := chosen
  refine wp_known rfl ?_
  cases jingleGetTransportfuncs s xmlns with
  | none => exact attended
  | some transfuncs =>
      refine wp_cut (fun _ => Attended none) ?_ (fun t s₁ attended₁ => ?_)
      · rw [wp, transfuncs.new_eq]
        exact attended.congr rfl rfl rfl
      refine wp_seq (deref_known .session _) ?_
      rintro cell s₁ ⟨rfl, _⟩
      obtain ⟨p, js⟩ := cell
      refine wp_cut (fun _ => Attended none) ?_ (fun _ s₂ attended₂ => ?_)
      · refine attended₁.rewritten (fun content => ?_)
        rw [List.map_map]
        refine List.map_congr_left (fun sc _ => ?_)
        simp only [Function.comp_apply]
        split <;> rfl
      refine wp_cut (fun _ => Attended none) ?_ (fun _ s₃ attended₃ =>
        jingleSendSessionInitiate_attended attended₃ sent)
      refine wp_seq (readSession_known p) ?_
      rintro js' s₂ ⟨rfl, _⟩
      refine wp_seq (deref_known .content _) ?_
      rintro _ s₂ ⟨rfl, _⟩
      refine wp_seq (readOnly_get s₂) ?_
      rintro _ s₂ rfl
      refine attended₂.rewritten (fun content => ?_)
      rw [map_updateFirst]
      exact fun _ => rfl

/-- An offer with a recipient opens a session, so no packet may wait without its content, and the
offer must be sent.
-/
def OffersOrderly (w : World) (s : State) : Prop :=
  (offerRecipient w).isSome = true → w.sendOk = true ∧ NoStalePacket s

theorem jftSendTransfer_attended {jft : FtPtr} (attended : Attended none s)
    (orderly : OffersOrderly w s) (known : jft < s.infoList.next)
    : (jftSendTransfer env w jft).wp (fun _ => Attended none)
        (fun error _ => NotAckHandle error) s := by
  unfold jftSendTransfer
  cases jidKnown : w.currentJid with
  | none => exact attended.congr rfl rfl rfl
  | some jid =>
  cases resourceKnown : w.compatibleRes with
  | none => exact attended.congr rfl rfl rfl
  | some resource =>
  obtain ⟨sent, fresh⟩ := orderly (by simp [offerRecipient, jidKnown, resourceKnown])
  dsimp only
  refine wp_cut (fun _ => Attended none) ?_
    (fun _ s₁ attended₁ => jingleHandleApp_attended attended₁ sent _ _ _)
  let js := offerSession w (jid ++ "/" ++ resource)
  have stable : Stable (.remaining (· = s.sessions.next) (fun _ => False))
      (Remains (· = s.sessions.next) (fun _ => False) s) := remains_stable
  refine wp_cut (fun p s' => (Remains (· = s.sessions.next) (fun _ => False) s s' ∧ Since s s')
    ∧ p = s.sessions.next) ?_ ?_
  · refine ⟨⟨(Remains.refl _ _ s).opened js rfl, ?_⟩, rfl⟩
    exact (stable.since s _ _ ⟨.refl _ _ s, .refl s⟩
      (.openSession js rfl rfl (fun incoming => by cases incoming))).2
  rintro _ s' ⟨holds, rfl⟩
  refine wp_post (addApps_keeps (stable.since s) _ rfl trivial (fun _ => trivial) ?_ s' holds)
    (fun _ s₁ kept => attended.opened (attended.present fresh) kept.1)
  intro entry member s' holds
  cases List.mem_singleton.mp member
  exact Nat.lt_of_lt_of_le known holds.2.infoList

theorem jftSend_attended (attended : Attended none s) (orderly : OffersOrderly w s)
    (arg : Option String)
    : (jftSend env w arg).wp (fun _ => Attended none) (fun error _ => NotAckHandle error) s := by
  cases arg with
  | none => exact attended
  | some name =>
      have stable : Stable (.remaining (fun _ => False) (fun _ => False))
          (Remains (fun _ => False) (fun _ => False) s) := remains_stable
      refine wp_seq (FileTransfer.new_keeps stable env w name (fun _ _ => trivial) trivial
        (.refl _ _ s)) ?_
      rintro result s' ⟨remains, known⟩
      have attended' := attended.kept remains (fun _ asked => asked.elim)
      cases result with
      | none => exact attended'
      | some jft =>
          refine jftSendTransfer_attended attended' (fun recipient => ?_) (known jft rfl).2
          exact (orderly recipient).imp_right (fun fresh => fresh.kept remains)

theorem jftRetry_attended (attended : Attended none s) (orderly : OffersOrderly w s)
    (arg : Option String)
    : (jftRetry env w arg).wp (fun _ => Attended none) (fun error _ => NotAckHandle error) s := by
  refine wp_known rfl ?_
  split
  · rename_i jft ft rest listed
    have member : (jft, ft) ∈ s.infoList.cells := listed ▸ List.mem_cons_self
    have known : jft < s.infoList.next := Pool.lt_next (Pool.get?_eq_some_iff.mpr member)
    refine wp_cut (fun _ s' => (Attended none s' ∧ OffersOrderly w s')
      ∧ jft < s'.infoList.next) ?_ ?_
    · refine ⟨⟨attended.congr rfl rfl rfl, fun recipient => ?_⟩, known⟩
      exact (orderly recipient).imp_right (fun fresh => fresh.kept ((Remains.refl _ _ s).congr
        rfl rfl rfl))
    · rintro _ s' ⟨⟨attended', orderly'⟩, known'⟩
      exact jftSendTransfer_attended attended' orderly' known'
  · exact attended

-----------------------------------------------------------------------------------------
-- The other inputs
-----------------------------------------------------------------------------------------

/-- The session that the peer ends. -/
def Input.ended (env : Env) (s : State) (input : Input) : Option SessionPtr :=
  ((input.request env).filter (fun jn => jn.action == .sessionTerminate)).bind (fun jn =>
    (sessionFind s jn).map Prod.fst)

theorem Input.ended_eq_some {input : Input} (ended : input.ended env s = some p)
    : ∃ message jn js, input = .jingleIq message ∧ jingleRequest env message = some jn
        ∧ jn.action = .sessionTerminate ∧ sessionFind s jn = some (p, js) := by
  obtain ⟨jn, filtered, found⟩ := Option.bind_eq_some_iff.mp ended
  obtain ⟨requested, action⟩ := Option.filter_eq_some_iff.mp filtered
  obtain ⟨cell, hit, rfl⟩ := Option.map_eq_some_iff.mp found
  cases input with
  | jingleIq message => exact ⟨message, jn, cell.2, rfl, requested, eq_of_beq action, hit⟩
  | _ => cases requested

/-- A session that the peer ends was listed and is not any more. -/
theorem ended_removed {input : Input} (ended : input.ended env s = some p)
    (step : Step env s (w, input) s')
    : Listed s p ∧ s'.sessions.get? p = none := by
  obtain ⟨message, jn, js, rfl, requested, action, found⟩ := Input.ended_eq_some ended
  exact ⟨⟨js, sessionFindBySid_listed found⟩, step.terminate_removes requested action found⟩

/-- Requests that open no session. -/
theorem jingleIq_attended {message : LmMessage} (attended : Attended none s)
    (plain : (Input.jingleIq message).invitation env w s = none)
    (ends : ∀ p, (Input.jingleIq message).ended env s = some p → Dispensable s none p)
    (step : Step env s (w, .jingleIq message) s')
    : Attended none s' := by
  have may (gone : SessionPtr → Prop) (inv : State → Prop)
      (covers : ∀ p, (Input.jingleIq message).ended env s = some p → gone p)
      : MayHandle (.remaining gone (fun _ => False)) inv env w s (.jingleIq message) := by
    intro jn requested
    refine ⟨fun action passes absent => ?_, fun _ _ _ _ _ _ _ _ _ => trivial,
      fun _ _ _ _ _ _ => ⟨trivial, trivial, fun _ _ _ => trivial, fun _ _ _ _ _ _ _ _ => trivial⟩,
      fun action p js found => ?_⟩
    · have opens : (Input.jingleIq message).invitation env w s = some jn := by
        refine Option.filter_eq_some_iff.mpr ⟨requested, ?_⟩
        simp [action, passes, absent]
      cases plain.symm.trans opens
    · have ended : (Input.jingleIq message).ended env s = some p := by
        refine Option.bind_eq_some_iff.mpr ⟨jn, Option.filter_eq_some_iff.mpr ⟨requested, ?_⟩, ?_⟩
        · simp [action]
        · rw [found]
          rfl
      exact ⟨trivial, fun _ => covers p ended, covers p ended,
        .free (fun _ => trivial) (fun _ => trivial)⟩
  cases ended : (Input.jingleIq message).ended env s with
  | none =>
      have remains := step.keeps remains_stable (.refl (fun _ => False) _ s)
        (may _ _ (fun p some => by cases ended.symm.trans some))
      exact attended.kept remains (fun _ asked => asked.elim)
  | some p =>
      have remains := step.keeps remains_stable (.refl (· = p) _ s)
        (may _ _ (fun q some => (Option.some.inj (ended.symm.trans some)).symm))
      obtain ⟨listed, removed⟩ := ended_removed ended step
      exact attended.removed listed remains removed (ends p ended)

theorem handleTransportInitialize_attended (attended : Attended none s) (correct : Bool)
    (sc : SessionContentRef)
    (supplied : correct = true → ∀ p js content, LeadsTo s sc p js content →
      Supplied s none p js content)
    : (handleTransportInitialize env w correct sc).wp (fun _ => Attended none)
        (fun error _ => AnyFault error) s := by
  refine wp_seq (anyFault (sessionFindByRef_known sc)) ?_
  rintro found s ⟨rfl, _⟩
  refine wp_seq (anyFault (deref_known .session _)) ?_
  rintro cell s ⟨rfl, _⟩
  obtain ⟨p, js⟩ := cell
  refine wp_seq (anyFault (deref_known .content _)) ?_
  rintro content s ⟨rfl, _⟩
  rw [wp_ite]
  constructor
  · intro works
    refine wp_seq (anyFault (deref_known .appfuncs _)) ?_
    rintro _ s ⟨rfl, _⟩
    refine wp_cut (fun _ s' => s' = { s with starts := s.starts ++ [sc] }) rfl ?_
    rintro _ _ rfl
    refine anyFault (ftStart_attended (attended.congr rfl rfl rfl) (fun q js' content' leads => ?_))
    exact (supplied works q js' content' (leads.congr rfl)).congr rfl rfl rfl rfl rfl
  · intro _
    have stable : Stable .all (fun _ => True) := fun _ _ _ _ => trivial
    refine wp_seq (anyFault (sessionRemoveSessioncontent_keeps stable content.name trivial trivial s
      trivial)) ?_
    exact fun _ _ _ => trivial

/-- The user's answer leaves a callback for the session it is about. -/
theorem event_attended {id : Nat} {context : EvsContext} (attended : Attended none s)
    (step : Step env s (w, .event id context) s')
    : Attended none s' := by
  obtain ⟨p, pending⟩ := Option.isSome_iff_exists.mp step.1
  have may (inv : State → Prop)
      : MayHandle (.remaining (fun _ => False) (· = .sessionAccept p)) inv env w s
        (.event id context) := by
    intro q pending'
    cases pending.symm.trans pending'
    exact ⟨fun _ => ⟨trivial, rfl⟩, fun _ _ _ => ⟨trivial, trivial⟩⟩
  have remains := step.keeps remains_stable (.refl _ _ s) (may _)
  refine attended.kept remains ?_
  rintro _ rfl
  obtain ⟨js, listed⟩ := attended.events id p pending
  exact ⟨js, listed, fun _ about => by cases about⟩

-----------------------------------------------------------------------------------------
-- Runs
-----------------------------------------------------------------------------------------

/-- A step that takes nothing away from a callback that waits. -/
structure SparesWaiting (env : Env) (s : State) (input : StepInput) : Prop where
  ends : ∀ p, input.2.ended env s = some p → Dispensable s none p
  opens : ∀ jn, input.2.invitation env input.1 s = some jn →
    (checkContents jn).jn.content.filter (contentKept env input.1 s) ≠ [] → NoStalePacket s
  kept : ∀ ah message, input.2 = .reply ah message → s.ackHandlers.Live ah
  replies : ∀ ah message, input.2 = .reply ah message → ∀ handle callback,
    s.ackHandlers.get? ah = some handle → handle.callback = some callback →
      callback.MayRun s ah (some message)
  timeouts : input.2 = .tick → TimeoutsOrderly s
  starts : ∀ sc, input.2 = .transportInitialize true sc → ∀ p js content,
    LeadsTo s sc p js content → Supplied s none p js content
  offers : input.2.offers = true → OffersOrderly input.1 s

theorem Step.attended {input : StepInput} (layout : Layout s) (timed : Timed s)
    (attended : Attended none s) (spares : SparesWaiting env s input)
    (step : Step env s input s')
    : Attended none s' := by
  obtain ⟨w, input⟩ := input
  have untouched (may : ∀ inv, MayHandle (.remaining (fun _ => False) (fun _ => False)) inv env w s
      input)
      : Attended none s' :=
    attended.kept (step.keeps remains_stable (.refl _ _ s) (may _)) (fun _ asked => asked.elim)
  have ran (handled : (handleInput env w input).wp (fun _ => Attended none)
      (fun error _ => AnyFault error) s)
      : Attended none s' :=
    wp_done (m := handleInput env w input) handled step.2
  cases input with
  | jingleIq message =>
      cases opens : (Input.jingleIq message).invitation env w s with
      | none => exact jingleIq_attended attended opens spares.ends step
      | some jn =>
          exact invitation_attended layout attended opens (spares.opens jn opens) step
  | ibbIq message => exact untouched (fun _ _ _ => ⟨trivial, fun _ => trivial⟩)
  | reply ah message =>
      exact ran (jingleHandleAckIq_attended attended message (spares.replies ah message rfl))
  | tick =>
      have inTime : InTime s s := ⟨attended, .refl _ _ s⟩
      refine ran (wp_post (timeoutLoop_inTime timed (spares.timeouts rfl) .head
        (s.ackHandlers.cells.map Prod.fst) s inTime) ?_)
      exact fun _ _ inTime => inTime.attended
  | wait seconds => exact untouched (fun _ => trivial)
  | event id context => exact event_attended attended step
  | transportInitialize correct sc =>
      refine ran (handleTransportInitialize_attended attended correct sc (fun works => ?_))
      exact spares.starts sc (by rw [works])
  | jftSend arg => exact ran (anyFault (jftSend_attended attended (spares.offers rfl) arg))
  | jftRetry arg => exact ran (anyFault (jftRetry_attended attended (spares.offers rfl) arg))
  | jftFlush => exact untouched (fun _ _ => trivial)

theorem attended_reached (run : ReachableBy env (SparesWaiting env) s) : Attended none s := by
  induction run with
  | start initial =>
      refine ⟨fun callback waits => ?_, fun id p pending => ?_⟩
      · obtain ⟨ah, handle, _, live, _⟩ := waits
        rw [initial.ackHandlers] at live
        cases live
      · rw [initial.events] at pending
        cases pending
  | step run spares next attended =>
      exact next.attended (layout_reached run) (timed_reached run) attended spares

/-- The reply to a packet looks for a session first. -/
theorem AckCallback.Harmless.returns {callback : AckCallback} (harmless : callback.Harmless s)
    (env : Env) (w : World) (mess : Option LmMessage)
    : callback.Present s ∨ callback.run env w mess s = .done () s := by
  refine harmless.imp_right (fun packet => ?_)
  obtain ⟨⟨sc, rfl⟩, nothing⟩ := packet
  have empty : s.sessions.cells = [] := by
    cases cells : s.sessions.cells with
    | nil => rfl
    | cons cell rest =>
        have member : (cell.1, cell.2) ∈ s.sessions.cells := by
          rw [cells]
          exact List.mem_cons_self
        exact absurd ⟨cell.2, Pool.get?_eq_some_iff.mpr member⟩ (nothing cell.1)
  have missing : sessionFindByRef sc s = .done none s := by
    rw [sessionFindByRef, bind_get, empty]
    rfl
  rw [AckCallback.run, jingleIbbHandleAckIqSend, bind_done missing]
  rfl

/-- In a run of steps that spare what waits, every callback that runs later finds the session it
was made for, and a packet's the content, or it returns at once.
-/
theorem deferred_callbacks_safe {env : Env} {s : State}
    (run : ReachableBy env (SparesWaiting env) s) {w : World} {input : Input}
    (spares : SparesWaiting env s (w, input)) {callback : Deferred} {σ : State}
    (calls : Calls env w s input callback σ)
    : callback.Present σ ∨ callback.run env w σ = .done () σ := by
  have attended := attended_reached run
  cases calls with
  | @reply ah message handle callback live calls =>
      have harmless := attended.handles callback ⟨ah, handle, by simp, live, calls⟩
      have fired : callback.Harmless (s.fire ah) := harmless.congr rfl
      exact fired.returns env w _
  | tick expires =>
      have harmless := expires.harmless (timed_reached run) (spares.timeouts rfl)
        ⟨attended, .refl _ _ s⟩
      exact harmless.returns env w none
  | @late ah message gone =>
      have kept : (s.ackHandlers.get? ah).isSome := spares.kept ah message rfl
      rw [gone] at kept
      cases kept
  | event pending => exact Or.inl (attended.events _ _ pending)

/-- While no reply is waited for, the peer invites or asks, or the user answers. -/
def Unanswering (env : Env) (s : State) (input : StepInput) : Bool :=
  s.ackHandlers.cells.isEmpty && (input.2.ended env s).isNone
    && match input.2 with
      | .jingleIq _ => true
      | .event _ _ => true
      | _ => false

theorem sparesWaiting_of_unanswering {input : StepInput} (holds : Unanswering env s input = true)
    : SparesWaiting env s input := by
  simp only [Unanswering, Bool.and_eq_true, List.isEmpty_iff, Option.isNone_iff_eq_none] at holds
  obtain ⟨⟨empty, ended⟩, known⟩ := holds
  refine ⟨fun p some => ?_, fun jn _ _ sc waits => ?_, fun ah message same => ?_,
    fun ah message same => ?_, fun same => ?_, fun sc same => ?_, fun same => ?_⟩
  · cases ended.symm.trans some
  · obtain ⟨ah, handle, _, live, _⟩ := waits
    simp [Pool.get?, empty] at live
  · simp [same] at known
  · simp [same] at known
  · simp [same] at known
  · simp [same] at known
  · obtain ⟨w, input⟩ := input
    cases input with
    | jftSend arg => cases known
    | jftRetry arg => cases known
    | _ => cases same

/-- An invitation the user accepts. -/
def acceptedOffers : List StepInput := [
  (plainWorld, .jingleIq fileOffer),
  (plainWorld, .event 0 .accept)
]

theorem deferred_callbacks_safe_accepted
    : ∃ s callback σ, ReachableBy plainEnv (SparesWaiting plainEnv) s
        ∧ Calls plainEnv plainWorld s (.reply 0 (replyOf .result)) callback σ
        ∧ (callback.Present σ ∨ callback.run plainEnv plainWorld σ = .done () σ) := by
  have passed : (execute plainEnv (fun s input => Unanswering plainEnv s input = true) loaded
      acceptedOffers).any (fun s => ((s.ackHandlers.get? 0).bind JingleAckHandle.callback)
        == some (.sessionAccept 0)) = true := by decide +kernel
  obtain ⟨s, run, waits⟩ := execute_any _ (loaded_reached plainEnv _) passed
  obtain ⟨handle, live, calls⟩ := Option.bind_eq_some_iff.mp (eq_of_beq waits)
  have run : ReachableBy plainEnv (SparesWaiting plainEnv) s :=
    run.weaken (fun _ _ holds => sparesWaiting_of_unanswering holds)
  have spares : SparesWaiting plainEnv s (plainWorld, .reply 0 (replyOf .result)) := by
    refine ⟨fun _ some => (by cases some), fun _ some => (by cases some), ?_, ?_,
      fun same => (by cases same), fun _ same => (by cases same), fun same => (by cases same)⟩
    · intro ah message same
      cases same
      exact Pool.live_of_get? live
    intro ah message same handle' callback live' calls'
    cases same
    cases live.symm.trans live'
    cases calls.symm.trans calls'
    exact fun failed => absurd rfl (failed _ rfl)
  exact ⟨s, _, _, run, .reply live calls,
    deferred_callbacks_safe run spares (.reply live calls)⟩

/-- An invitation the peer takes back before the user answers. -/
def answeredLate : List StepInput := [
  (plainWorld, .jingleIq fileOffer),
  (plainWorld, .jingleIq (jingleSet "romeo@verona/a" "session-terminate" "s1" []))
]

/-- The user's answer then reads the session that was freed. -/
theorem late_answer_uses_removed_session
    : ¬∀ (env : Env) (s : State), Reachable env s → ∀ (w : World) (input : Input)
        (callback : Deferred) (σ : State), Enabled s input → Calls env w s input callback σ →
        callback.Present σ ∨ callback.run env w σ = .done () σ := by
  intro claim
  have passed : (execute plainEnv (fun _ _ => True) loaded answeredLate).any (fun s =>
      (s.events.get? 0).any (fun p => (s.sessions.get? p).isNone)) = true := by decide +kernel
  obtain ⟨s, run, late⟩ := execute_any _ (loaded_reached plainEnv _) passed
  obtain ⟨p, pending, gone⟩ := (Option.any_eq_true _ _).mp late
  have absent : s.sessions.get? p = none := Option.isNone_iff_eq_none.mp gone
  have enabled : Enabled s (.event 0 .accept) := Option.isSome_iff_exists.mpr ⟨p, pending⟩
  rcases claim plainEnv s run plainWorld _ _ _ enabled (.event pending) with present | returns
  · obtain ⟨js, listed⟩ := present
    cases absent.symm.trans listed
  · have stops : readSession p s = .fault (.useAfterFree .session) s := by
      change alive .session (s.sessions.get? p) s = _
      rw [absent]
      rfl
    rw [Deferred.run, evscallbackJingle, bind_fault stops] at returns
    cases returns

end McabberJingle
