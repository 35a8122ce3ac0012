import McabberJingle.Effects.Sender
import McabberJingle.Transfer.Pump

/-! The sending side on any content. A turn of the circle sends one packet at most and leaves
the sessions alone, or it reaches the end of the file and takes the content away, and with the
last content the session.
-/

namespace McabberJingle

open Program Program.Prog

variable {env : Env} {w : World} {s₀ s s' : State} {ref : SessionContentRef} {rest : Prop}

-----------------------------------------------------------------------------------------
-- What a turn may leave behind
-----------------------------------------------------------------------------------------

/-- Since `s₀` no event is new, and a callback for a reply only if `rest`, for a packet of `ref`. -/
structure PacketsOnly (s₀ : State) (ref : SessionContentRef) (rest : Prop) (s : State)
    : Prop where
  events : s.events = s₀.events
  handles : ∀ ah handle callback, s.ackHandlers.get? ah = some handle →
    handle.callback = some callback →
      s₀.ackHandlers.get? ah = some handle ∨ rest ∧ callback = .ibbSend ref

/-- Since `s₀` the sessions are the same, and packets of `ref` were sent at most. -/
structure Feeds (s₀ : State) (ref : SessionContentRef) (s : State) : Prop
    extends PacketsOnly s₀ ref True s where
  sessions : s.sessions = s₀.sessions

/-- Since `s₀` the session `p` became `own` and no other changed. -/
structure Leaves (s₀ : State) (p : SessionPtr) (own : Option JingleSession)
    (ref : SessionContentRef) (rest : Prop) (s : State)
    : Prop extends PacketsOnly s₀ ref rest s where
  others : ∀ q, q ≠ p → s.sessions.get? q = s₀.sessions.get? q
  own : s.sessions.get? p = own

theorem PacketsOnly.refl (s : State) (ref : SessionContentRef) (rest : Prop)
    : PacketsOnly s ref rest s :=
  ⟨rfl, fun _ _ _ there _ => Or.inl there⟩

/-- Only events and handles matter. -/
theorem PacketsOnly.congr (only : PacketsOnly s₀ ref rest s) (events : s'.events = s.events)
    (handles : s'.ackHandlers = s.ackHandlers)
    : PacketsOnly s₀ ref rest s' where
  events := events.trans only.events
  handles := by
    rw [handles]
    exact only.handles

theorem PacketsOnly.requested (only : PacketsOnly s₀ ref rest s) (ident : SessionIdent)
    (iq : LmMessage) {callback : Option AckCallback} (timeout : Nat) (sendOk : Bool)
    (await : ∀ cb, callback = some cb → rest ∧ cb = .ibbSend ref)
    : PacketsOnly s₀ ref rest (s.requested ident iq callback timeout sendOk) where
  events := only.events
  handles ah handle cb found calls := by
    rcases Pool.get?_alloc_eq_some.mp found with ⟨_, rfl⟩ | old
    · exact Or.inr (await cb calls)
    · exact only.handles ah handle cb old calls

theorem Feeds.refl (s : State) (ref : SessionContentRef) : Feeds s ref s :=
  ⟨.refl s ref True, rfl⟩

/-- Only sessions, events and handles matter. -/
theorem Feeds.congr (feeds : Feeds s₀ ref s) (sessions : s'.sessions = s.sessions)
    (events : s'.events = s.events) (handles : s'.ackHandlers = s.ackHandlers)
    : Feeds s₀ ref s' :=
  ⟨feeds.toPacketsOnly.congr events handles, sessions.trans feeds.sessions⟩

/-- Before `s` only storage was touched since `s₀`. -/
theorem Feeds.since (feeds : Feeds s ref s') (sessions : s.sessions = s₀.sessions)
    (events : s.events = s₀.events) (handles : s.ackHandlers = s₀.ackHandlers)
    : Feeds s₀ ref s' where
  sessions := feeds.sessions.trans sessions
  events := feeds.events.trans events
  handles := by
    rw [← handles]
    exact feeds.handles

theorem Leaves.since {p : SessionPtr} {own : Option JingleSession}
    (leaves : Leaves s p own ref rest s') {rest' : Prop} (sessions : s.sessions = s₀.sessions)
    (events : s.events = s₀.events) (handles : s.ackHandlers = s₀.ackHandlers)
    (weaker : rest → rest')
    : Leaves s₀ p own ref rest' s' where
  events := leaves.events.trans events
  handles ah handle callback found calls := by
    rw [← handles]
    exact (leaves.handles ah handle callback found calls).imp_right (And.imp_left weaker)
  others := by
    rw [← sessions]
    exact leaves.others
  own := leaves.own

/-- A session that is there may be rewritten. -/
theorem Leaves.withContent {p : SessionPtr} {js : JingleSession}
    (leaves : Leaves s₀ p (some js) ref rest s) (g : List SessionContent → List SessionContent)
    : Leaves s₀ p (some { js with content := g js.content }) ref rest (s.withContent p g) where
  events := leaves.events
  handles := leaves.handles
  others q other := (Pool.get?_modify_of_ne _ other).trans (leaves.others q other)
  own := State.withContent_listed leaves.own g

theorem Leaves.congr {p : SessionPtr} {own : Option JingleSession}
    (leaves : Leaves s₀ p own ref rest s) (sessions : s'.sessions = s.sessions)
    (only : PacketsOnly s₀ ref rest s')
    : Leaves s₀ p own ref rest s' where
  toPacketsOnly := only
  others := by
    rw [sessions]
    exact leaves.others
  own := by
    rw [sessions]
    exact leaves.own

/-- What is found through a reference depends on the sessions alone. -/
theorem FindsRef.congr {sc : SessionContentRef} {found : Option (SessionPtr × JingleSession)}
    (finds : FindsRef s sc found) (same : s'.sessions = s.sessions)
    : FindsRef s' sc found := by
  simpa only [FindsRef, sessionFindBySid, same] using finds

/-- The content that a reference leads to. -/
structure LeadsTo (s : State) (sc : SessionContentRef) (p : SessionPtr) (js : JingleSession)
    (content : SessionContent)
    : Prop where
  finds : FindsRef s sc (some (p, js))
  named : sessionFindSessioncontent js sc.name = some content

theorem LeadsTo.congr {sc : SessionContentRef} {p : SessionPtr} {js : JingleSession}
    {content : SessionContent} (leads : LeadsTo s sc p js content)
    (same : s'.sessions = s.sessions)
    : LeadsTo s' sc p js content :=
  ⟨leads.finds.congr same, leads.named⟩

/-- Looked up again by its own name, the content is found again. -/
theorem LeadsTo.again {sc : SessionContentRef} {p : SessionPtr} {js : JingleSession}
    {content : SessionContent} (leads : LeadsTo s sc p js content)
    : LeadsTo s { owner := p, name := content.name } p js content := by
  refine ⟨leads.finds.again, ?_⟩
  have same : content.name = sc.name := (sessionFindSessioncontent_mem leads.named).2
  dsimp only
  rw [same]
  exact leads.named

-----------------------------------------------------------------------------------------
-- The end of a file
-----------------------------------------------------------------------------------------

/-- The session without a content, or nothing if that was the last one. -/
def JingleSession.without (js : JingleSession) (name : String) : Option JingleSession :=
  if removeFirst name js.content = [] then none
  else some { js with content := removeFirst name js.content }

/-- Nothing waits in the buffer of the content's stream. -/
def Drained (s : State) (content : SessionContent) : Prop :=
  ∀ t jibb, content.transfuncs = some .ibb → content.transport = some t →
    s.transports.get? t = some (.ibb jibb) → jibb.buf = []

/-- What the end of the content's file leaves. -/
abbrev LeavesContent (s₀ : State) (p : SessionPtr) (content : SessionContent)
    (own : Option JingleSession) (s : State)
    : Prop :=
  Leaves s₀ p own { owner := p, name := content.name } (¬Drained s₀ content) s

section Ends

variable {sc : SessionContentRef} {p : SessionPtr} {js : JingleSession} {content : SessionContent}

/-- The rest of the buffer goes out as one packet, if there is any. -/
theorem handleAppData_flushes (next : SessionContentRef → Run Unit)
    (leads : LeadsTo s sc p js content)
    : (handleAppData env next sc []).wp
        (fun _ s' => s'.sessions = s.sessions
          ∧ PacketsOnly s { owner := p, name := content.name } (¬Drained s content) s')
        (fun error _ => NotAckHandle error) s := by
  have only := PacketsOnly.refl s { owner := p, name := content.name } (¬Drained s content)
  refine wp_seq (sessionFindByRef_known sc) ?_
  rintro found s ⟨rfl, finds⟩
  cases finds.unique leads.finds
  refine wp_seq (deref_known .content _) ?_
  rintro content' s ⟨rfl, named⟩
  cases named.symm.trans leads.named
  refine wp_seq (deref_known .transfuncs _) ?_
  rintro transfuncs s ⟨rfl, known⟩
  cases transfuncs with
  | s5b => exact ⟨rfl, only⟩
  | ibb =>
      refine wp_seq (deref_known .transport _) ?_
      rintro t s ⟨rfl, carried⟩
      rw [if_pos rfl]
      refine wp_seq (sessionFindByRef_known _) ?_
      rintro sess s ⟨rfl, _⟩
      refine wp_seq (readIbb_known t) ?_
      rintro jibb s ⟨rfl, there⟩
      rw [wp_ite]
      refine ⟨fun _ => fail_known (by decide), fun _ => ?_⟩
      refine wp_cut (fun _ s' => s'.sessions = s.sessions
        ∧ PacketsOnly s { owner := p, name := content.name } (¬Drained s content) s') ?_ ?_
      · unfold ibbSendRest
        rw [wp_ite]
        refine ⟨fun more => ?_, fun _ => ⟨rfl, only⟩⟩
        have full : ¬Drained s content := by
          intro empty
          simp [JingleIBB.dataleft, empty t jibb known carried there] at more
        refine wp_seq (deref_known .session sess) ?_
        rintro cell s ⟨rfl, _⟩
        refine wp_seq (readIbb_known t) ?_
        rintro _ s ⟨rfl, _⟩
        refine wp_cut (fun _ s' => s'.sessions = s.sessions
          ∧ PacketsOnly s { owner := p, name := content.name } (¬Drained s content) s') ?_ ?_
        · refine ⟨rfl, only.requested (cell.2.ident cell.1) _ 0 true ?_⟩
          rintro cb same
          cases same
          exact ⟨full, rfl⟩
        · rintro _ s' ⟨same, sent⟩
          exact ⟨same, sent.congr rfl rfl⟩
      · rintro _ s' ⟨same, sent⟩
        exact ⟨same, sent.congr rfl rfl⟩

/-- The last content that is removed takes the session with it. -/
theorem removeContent_leaves {name : String} {js : JingleSession}
    (leaves : Leaves s₀ p (some js) ref rest s)
    (named : (sessionFindSessioncontent js name).isSome = true)
    : (do
          if (← sessionRemoveSessioncontent p name) = 0 then
            jingleSendSessionTerminate p "success"
            sessionDelete w p : Run Unit).wp
        (fun _ => Leaves s₀ p (js.without name) ref rest)
        (fun error _ => NotAckHandle error) s := by
  have removed := leaves.withContent (removeFirst name)
  let s₁ := s.withContent p (removeFirst name)
  refine wp_cut (fun left s' => s' = s₁ ∧ left = (removeFirst name js.content).length) ?_ ?_
  · refine wp_seq (readSession_known p) ?_
    rintro js' s ⟨rfl, listed⟩
    cases listed.symm.trans leaves.own
    obtain ⟨content, found⟩ := Option.isSome_iff_exists.mp named
    rw [found]
    exact ⟨rfl, rfl⟩
  rintro _ s₁ ⟨rfl, rfl⟩
  unfold JingleSession.without
  rw [wp_ite, List.length_eq_zero_iff]
  constructor
  · intro last
    rw [if_pos last]
    let js₁ : JingleSession := { js with content := removeFirst name js.content }
    refine wp_cut (fun _ => Leaves s₀ p (some js₁) ref rest) ?_ (fun _ s₂ told => ?_)
    · refine wp_seq (readSession_known p) ?_
      rintro sess s₁ ⟨rfl, _⟩
      exact removed.congr rfl (removed.requested (sess.ident p) _ 0 true
        (fun _ none => by cases none))
    refine wp_seq (readSession_known p) ?_
    rintro js₂ s₂ ⟨rfl, _⟩
    refine wp_cut (fun _ => Leaves s₀ p none ref rest) ?_ (fun _ s₃ erased => ?_)
    · refine ⟨told.toPacketsOnly.congr rfl rfl, fun q other => ?_, Pool.get?_erase_self _ _⟩
      exact (Pool.get?_erase_of_ne other).trans (told.others q other)
    · refine sessionFreeContents_frame w js₂.content (fun s gone => ?_) s₃ erased
      exact gone.congr rfl (gone.toPacketsOnly.congr rfl rfl)
  · intro more
    rw [if_neg more]
    exact removed

/-- The end of the file: the buffer is flushed, the content removed, and with the last content
the session.
-/
theorem ftSendEof_leaves (next : SessionContentRef → Run Unit) (d : FtPtr)
    (leads : LeadsTo s sc p js content)
    : (ftSendEof env w next sc p content d).wp
        (fun _ => LeavesContent s p content (js.without content.name))
        (fun error _ => NotAckHandle error) s := by
  have listed := leads.finds.listed
  refine wp_seq (handleAppData_flushes next leads) ?_
  rintro _ s₁ ⟨same, only⟩
  have flushed : LeavesContent s p content (some js) s₁ :=
    ⟨only, fun q _ => by rw [same], by rw [same, listed]⟩
  refine wp_seq (readFt_known d) ?_
  rintro ft s₁ ⟨rfl, _⟩
  refine wp_seq (FileTransfer.checksumGetString_readOnly env ft.md5 s₁) ?_
  rintro hash s₁ rfl
  refine wp_cut (fun _ => LeavesContent s p content (some js))
    (flushed.congr rfl (only.congr rfl rfl)) (fun _ s₂ counted => ?_)
  let ended (sc : SessionContent) : SessionContent := { sc with state := .ended }
  let js₃ : JingleSession := { js with content := updateFirst content.name ended js.content }
  refine wp_cut (fun _ => LeavesContent s p content (some js₃)) ?_ (fun _ s₃ marked => ?_)
  · refine wp_seq (readSession_known p) ?_
    rintro _ s₂ ⟨rfl, _⟩
    exact counted.withContent (updateFirst content.name ended)
  refine wp_seq (readSession_known p) ?_
  rintro sess s₃ ⟨rfl, _⟩
  refine wp_cut (fun _ => LeavesContent s p content (some js₃)) ?_ (fun _ s₄ announced => ?_)
  · exact marked.congr rfl (marked.requested (sess.ident p) _ 0 true (fun _ none => by cases none))
  refine wp_cut (fun _ => LeavesContent s p content (some js₃))
    (announced.congr rfl (announced.toPacketsOnly.congr rfl rfl)) (fun _ s₅ summed => ?_)
  have named : (sessionFindSessioncontent js₃ content.name).isSome = true := by
    refine sessionFindSessioncontent_isSome ?_
    dsimp only [js₃]
    rw [map_updateFirst (f := ended) (fun _ => rfl)]
    exact List.mem_map_of_mem (sessionFindSessioncontent_mem leads.named).1
  have same : js₃.without content.name = js.without content.name := by
    simp only [JingleSession.without, js₃, removeFirst_updateFirst (f := ended) (fun _ => rfl)]
  rw [← same]
  exact removeContent_leaves summed named

end Ends

-----------------------------------------------------------------------------------------
-- One turn of the circle
-----------------------------------------------------------------------------------------

/-- The file of a content has bytes left, and they fill the buffer of its stream to a block. -/
def GoesOn (s : State) (content : SessionContent) : Prop :=
  ∀ d jft reads, content.description = some d → s.infoList.get? d = some jft →
    jft.outfile = some (.reading reads) →
      fileBytes reads ≠ []
      ∧ ∀ t jibb, content.transfuncs = some .ibb → content.transport = some t →
        s.transports.get? t = some (.ibb jibb) →
          jibb.blocksize ≤ (jibb.buf ++ fileBytes reads).length

/-- The file of a content is read to its end, and nothing of it is left to send. -/
def RunsOut (s : State) (content : SessionContent) : Prop :=
  ∀ d jft reads, content.description = some d → s.infoList.get? d = some jft →
    jft.outfile = some (.reading reads) → fileBytes reads = [] ∧ Drained s content

/-- With these bytes, and what the file still gives, the buffer of the stream has a block. -/
def Ample (s : State) (content : SessionContent) (data : List UInt8) : Prop :=
  ∀ d jft reads t jibb, content.description = some d → s.infoList.get? d = some jft →
    jft.outfile = some (.reading reads) → content.transfuncs = some .ibb →
    content.transport = some t → s.transports.get? t = some (.ibb jibb) →
      jibb.blocksize ≤ (jibb.buf ++ data ++ fileBytes reads).length

section Circle

variable {sc : SessionContentRef} {p : SessionPtr} {js : JingleSession} {content : SessionContent}

/-- A turn that began in `s` fed the content, or it ended the file, though not if `goesOn`, and
then it sent a packet only if `rest`.
-/
def Turned (goesOn rest : Prop) (s : State) (p : SessionPtr) (js : JingleSession)
    (content : SessionContent) (s' : State)
    : Prop :=
  Feeds s { owner := p, name := content.name } s'
  ∨ ¬goesOn ∧ Leaves s p (js.without content.name) { owner := p, name := content.name } rest s'

/-- What the next function of the circle does for the content. -/
def Turns (p : SessionPtr) (js : JingleSession) (content : SessionContent)
    (next : SessionContentRef → Run Unit)
    : Prop :=
  ∀ s, LeadsTo s { owner := p, name := content.name } p js content →
    (next { owner := p, name := content.name }).wp
      (fun _ => Turned (GoesOn s content) (¬RunsOut s content) s p js content)
      (fun error _ => NotAckHandle error) s

/-- Before `s` only storage was touched since `s₀`. -/
theorem Turned.since {goesOn rest goesOn' rest' : Prop}
    (turned : Turned goesOn rest s p js content s') (sessions : s.sessions = s₀.sessions)
    (events : s.events = s₀.events) (handles : s.ackHandlers = s₀.ackHandlers)
    (goes : goesOn' → goesOn) (weaker : rest → rest')
    : Turned goesOn' rest' s₀ p js content s' :=
  turned.imp (fun feeds => feeds.since sessions events handles)
    (And.imp (mt goes) (fun leaves => leaves.since sessions events handles weaker))

theorem ibbSendBlock_feeds (s : State) (ref : SessionContentRef) (p : SessionPtr)
    (js : JingleSession) (t : TransportPtr)
    : (ibbSendBlock env ref p js t).wp (fun _ => Feeds s ref)
        (fun error _ => NotAckHandle error) s := by
  refine wp_seq (readIbb_known t) ?_
  rintro jibb s ⟨rfl, _⟩
  refine wp_cut (fun _ => Feeds s ref) ((Feeds.refl s ref).congr rfl rfl rfl)
    (fun _ s₁ feeds₁ => ?_)
  refine wp_seq (readIbb_known t) ?_
  rintro jibb' s₁ ⟨rfl, _⟩
  refine wp_cut (fun _ => Feeds s ref) ?_ (fun _ s₂ feeds₂ => feeds₂.congr rfl rfl rfl)
  refine ⟨feeds₁.requested (js.ident p) _ 0 true ?_, feeds₁.sessions⟩
  rintro cb same
  cases same
  exact ⟨trivial, rfl⟩

/-- Bytes that leave the buffer short of a block ask for more. -/
theorem ibbSend_turns {next : SessionContentRef → Run Unit} {t : TransportPtr}
    (asks : Turns p js content next)
    (leads : LeadsTo s { owner := p, name := content.name } p js content)
    (isIbb : content.transfuncs = some .ibb) (carried : content.transport = some t)
    (data : List UInt8)
    : (ibbSend env next { owner := p, name := content.name } t data).wp
        (fun _ => Turned (Ample s content data) True s p js content)
        (fun error _ => NotAckHandle error) s := by
  refine wp_seq (readIbb_known t) ?_
  rintro jibb s ⟨rfl, there⟩
  rw [wp_ite]
  refine ⟨fun _ => fail_known (by decide), fun _ => ?_⟩
  dsimp only
  refine wp_cut (fun _ s' => s' = s.withIbb t (jibb.push data)) rfl ?_
  rintro _ s₁ rfl
  have leads₁ : LeadsTo (s.withIbb t (jibb.push data)) _ p js content := leads.congr rfl
  rw [wp_ite]
  constructor
  · intro little
    refine wp_post (asks _ leads₁) (fun _ s' turned => ?_)
    refine turned.since rfl rfl rfl (fun ample d jft reads described listed reading => ?_)
      (fun _ => trivial)
    have total := ample d jft reads t jibb described listed reading isIbb carried there
    have short : (jibb.buf ++ data).length < jibb.blocksize := little
    refine ⟨fun nothing => ?_, fun t' jibb' _ carried' there' => ?_⟩
    · rw [nothing, List.append_nil] at total
      exact absurd total (Nat.not_le.mpr short)
    · cases carried.symm.trans carried'
      cases (State.withIbb_get? there).symm.trans there'
      exact total
  · intro _
    refine wp_seq (sessionFindByRef_known _) ?_
    rintro found s₂ ⟨rfl, _⟩
    refine wp_seq (deref_known .session found) ?_
    rintro cell s₂ ⟨rfl, _⟩
    refine wp_post (ibbSendBlock_feeds _ _ cell.1 cell.2 t) (fun _ s' feeds => ?_)
    exact Or.inl (feeds.since rfl rfl rfl)

/-- Bytes of the file go to the transport; that of SOCKS5 takes them and sends nothing. -/
theorem handleAppData_turns {next : SessionContentRef → Run Unit}
    (asks : Turns p js content next) (leads : LeadsTo s sc p js content) {data : List UInt8}
    (nonempty : data ≠ [])
    : (handleAppData env next sc data).wp
        (fun _ => Turned (Ample s content data) True s p js content)
        (fun error _ => NotAckHandle error) s := by
  refine wp_seq (sessionFindByRef_known sc) ?_
  rintro found s ⟨rfl, finds⟩
  cases finds.unique leads.finds
  refine wp_seq (deref_known .content _) ?_
  rintro content' s ⟨rfl, named⟩
  cases named.symm.trans leads.named
  refine wp_seq (deref_known .transfuncs _) ?_
  rintro transfuncs s ⟨rfl, known⟩
  cases transfuncs with
  | s5b => exact Or.inl (.refl s _)
  | ibb =>
      refine wp_seq (deref_known .transport _) ?_
      rintro t s ⟨rfl, carried⟩
      rw [wp_ite]
      refine ⟨fun empty => absurd empty nonempty, fun _ => ?_⟩
      exact ibbSend_turns asks leads.again known carried data

theorem handleTransNext_turns {appSend : SessionContentRef → Run Unit}
    (sends : Turns p js content appSend)
    : Turns p js content (handleTransNext appSend) := by
  intro s leads
  refine wp_seq (sessionFindByRef_known _) ?_
  rintro found s ⟨rfl, finds⟩
  cases finds.unique leads.finds
  refine wp_seq (deref_known .content _) ?_
  rintro content' s ⟨rfl, _⟩
  refine wp_seq (deref_known .appfuncs _) ?_
  rintro _ s ⟨rfl, _⟩
  exact sends s leads

/-- One read: its bytes are handed on, or the file ends. -/
theorem ftSendBody_turns {next : SessionContentRef → Run Unit} (asks : Turns p js content next)
    (leads : LeadsTo s sc p js content)
    : (ftSendBody env w next sc).wp
        (fun _ => Turned (GoesOn s content) (¬RunsOut s content) s p js content)
        (fun error _ => NotAckHandle error) s := by
  have still := Feeds.refl s { owner := p, name := content.name }
  refine wp_seq (sessionFindByRef_known sc) ?_
  rintro found s ⟨rfl, finds⟩
  cases finds.unique leads.finds
  refine wp_seq (deref_known .content _) ?_
  rintro content' s ⟨rfl, named⟩
  cases named.symm.trans leads.named
  refine wp_seq (deref_known .description _) ?_
  rintro d s ⟨rfl, described⟩
  refine wp_seq (readFt_known d) ?_
  rintro ft s ⟨rfl, listed⟩
  rw [wp_ite]
  refine ⟨fun _ => Or.inl still, fun _ => ?_⟩
  split
  · rename_i reads reading
    cases read : readChars 9 reads with
    | mk status rest =>
    let ft₁ : JingleFT := { ft with outfile := some (.reading rest) }
    dsimp only
    refine wp_cut (fun _ s' => s' = s.withFt d ft₁) ?_ ?_
    · rw [wp, modifyFt_eq listed]
    rintro _ s₁ rfl
    cases status with
    | again => exact Or.inl (still.congr rfl rfl rfl)
    | error => exact Or.inl (still.congr rfl rfl rfl)
    | eof =>
        have spent := (readChars_eof read).1
        have leads₁ : LeadsTo (s.withFt d ft₁) sc p js content := leads.congr rfl
        refine wp_post (ftSendEof_leaves next d leads₁) (fun _ s₂ leaves => ?_)
        refine Or.inr ⟨fun goesOn => ?_, leaves.since rfl rfl rfl (mt (fun runsOut => ?_))⟩
        · exact (goesOn d ft reads described listed reading).1 spent
        · exact (runsOut d ft reads described listed reading).2
    | normal data =>
        obtain ⟨split, nonempty, _⟩ := readChars_normal read
        refine wp_seq (FileTransfer.checksumUpdate_readOnly ft.md5 data _) ?_
        rintro md5 _ rfl
        have listed₁ : (s.withFt d ft₁).infoList.get? d = some ft₁ := State.withFt_get? listed
        let ft₂ : JingleFT := { ft₁ with transmit := ft₁.transmit + data.length, md5 }
        refine wp_cut (fun _ s' => s' = s.withFt d ft₂) ?_ ?_
        · rw [wp, modifyFt_eq listed₁, State.withFt_withFt]
        rintro _ s₂ rfl
        have listed₂ : (s.withFt d ft₂).infoList.get? d = some ft₂ := State.withFt_get? listed
        have leads₂ : LeadsTo (s.withFt d ft₂) sc p js content := leads.congr rfl
        refine wp_post (handleAppData_turns asks leads₂ nonempty) (fun _ s' turned => ?_)
        refine turned.since rfl rfl rfl (fun goesOn => ?_) (fun _ runsOut => ?_)
        · intro d' jft reads' t jibb described' listed' reading' isIbb carried there
          cases described.symm.trans described'
          cases listed₂.symm.trans listed'
          cases reading'
          have total := (goesOn d ft reads described listed reading).2 t jibb isIbb carried there
          rw [split, ← List.append_assoc] at total
          exact total
        · have spent := (runsOut d ft reads described listed reading).1
          rw [split] at spent
          exact nonempty (List.append_eq_nil_iff.mp spent).1
  · exact fail_known (by decide)

/-- By induction on the fuel, which bounds the rounds of the circle. -/
theorem ftSend_turns (fuel : Nat) {sc : SessionContentRef} (leads : LeadsTo s sc p js content)
    : (ftSend env w fuel sc).wp
        (fun _ => Turned (GoesOn s content) (¬RunsOut s content) s p js content)
        (fun error _ => NotAckHandle error) s := by
  induction fuel generalizing s sc with
  | zero => exact fail_known (by decide)
  | succ fuel ih => exact ftSendBody_turns (handleTransNext_turns (fun s leads => ih leads)) leads

end Circle

end McabberJingle
