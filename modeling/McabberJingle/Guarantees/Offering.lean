import McabberJingle.Guarantees.Deferred
import McabberJingle.Jingle.Offers
import McabberJingle.Jingle.Wire

/-! Whether an offer leaves the session list either as it was or with one session that was
offered.
-/

namespace McabberJingle

open Program Program.Prog

variable {env : Env} {w : World} {s s' : State} {p : SessionPtr} {app : FtPtr}
  {name xmlnsApp : String}

-----------------------------------------------------------------------------------------
-- What an offer is to leave behind
-----------------------------------------------------------------------------------------

/-- `new_session_with_apps` followed by `jingle_handle_app`, as in `_jft_send`. -/
def offerApps (env : Env) (w : World) (recipientjid : String) (entries : List AppEntry)
    (name xmlnsApp : String) (app : FtPtr)
    : Run Unit := do
  newSessionWithApps w recipientjid entries
  jingleHandleApp env w name xmlnsApp app

/-- A content with an application and a transport. -/
structure SessionContent.Supplied (sc : SessionContent) : Prop where
  description : sc.description.isSome
  appfuncs : sc.appfuncs.isSome
  transport : sc.transport.isSome
  transfuncs : sc.transfuncs.isSome

/-- Whether an IQ of ours opens its session. -/
def LmMessage.isSessionInitiate (iq : LmMessage) : Bool :=
  (iq.node.getChild "jingle").any (fun jingle =>
    jingle.getAttribute "action" == some "session-initiate")

/-- One session was added, all its contents are supplied, its session-initiate was sent, and one
handle waits for the reply.
-/
structure Published (s s' : State) (js : JingleSession) (iq : LmMessage)
    (handle : JingleAckHandle)
    : Prop where
  sessions : s'.sessions.cells = s.sessions.cells ++ [(s.sessions.next, js)]
  supplied : ∀ sc ∈ js.content, sc.Supplied
  sent : s'.sent = s.sent ++ [.request (js.ident s.sessions.next) iq]
  initiate : iq.isSessionInitiate = true
  ackHandlers : s'.ackHandlers.cells = s.ackHandlers.cells ++ [(s.ackHandlers.next, handle)]
  callback : handle.callback = some (.sessionInitiate s.sessions.next)

/-- The session list is what it was, and no handle is for a session that is not in it. -/
structure Withdrawn (s s' : State) : Prop where
  sessions : s'.sessions.cells = s.sessions.cells
  ackHandlers : ∀ cell ∈ s'.ackHandlers.cells, ∀ callback ∈ cell.2.callback,
    s'.sessions.Live callback.session

/-- The offer ends with a session published, or with nothing left of it. -/
def AllOrNothing (s : State) (offer : Run Unit) : Prop :=
  ∃ s', offer s = .done () s' ∧ ((∃ js iq handle, Published s s' js iq handle) ∨ Withdrawn s s')

-----------------------------------------------------------------------------------------
-- The session-initiate
-----------------------------------------------------------------------------------------

theorem setInitiator_isSessionInitiate (js : JingleSession) (contents : List LmMessageNode)
    (initiator : String)
    : (setInitiator (jinglesessionIq js .sessionInitiate contents) initiator).isSessionInitiate
      = true :=
  rfl

/-- A content that could be written has an application, which is listed, and a transport. -/
theorem lmInsertSessioncontent_supplied {sc : SessionContent} {node : LmMessageNode}
    (run : lmInsertSessioncontent env sc s = .done node s')
    : sc.Supplied ∧ s' = s ∧ ∀ d ∈ sc.description, s.infoList.Live d := by
  have known : (lmInsertSessioncontent env sc).wp
      (fun _ s' => sc.Supplied ∧ s' = s ∧ ∀ d ∈ sc.description, s.infoList.Live d)
      (fun _ _ => True) s := by
    have any {β : Type} {m : Run β} {post : β → State → Prop} {s₁ : State}
        (h : m.wp post (fun error _ => NotAckHandle error) s₁)
        : m.wp post (fun _ _ => True) s₁ :=
      wp_mono h (fun _ _ => id) (fun _ _ _ => trivial)
    refine wp_seq (any (deref_known .transfuncs _)) ?_
    rintro transfuncs s ⟨rfl, hasFuncs⟩
    refine wp_seq (any (deref_known .transport _)) ?_
    rintro t s ⟨rfl, carried⟩
    refine wp_seq (any (transfuncs.tomessage_readOnly t _ s)) ?_
    rintro written s rfl
    refine wp_seq (any (deref_known .appfuncs _)) ?_
    rintro appfuncs s ⟨rfl, hasApp⟩
    refine wp_seq (any (deref_known .description _)) ?_
    rintro d s ⟨rfl, described⟩
    refine wp_seq (any (readFt_known d)) ?_
    rintro jft s ⟨rfl, listed⟩
    have supplied : sc.Supplied :=
      ⟨by simp [described], by simp [hasApp], by simp [carried], by simp [hasFuncs]⟩
    have live : ∀ d ∈ sc.description, s.infoList.Live d := by
      intro d' same
      cases described.symm.trans same
      exact Pool.live_of_get? listed
    split
    · exact ⟨supplied, rfl, live⟩
    · exact ⟨supplied, rfl, live⟩
  have found := wp_done known run
  exact found

/-- By induction on the contents. -/
theorem lmInsertSessioncontents_supplied {content : List SessionContent}
    {nodes : List LmMessageNode} (run : lmInsertSessioncontents env content s = .done nodes s')
    : s' = s ∧ ∀ sc ∈ content, sc.Supplied ∧ ∀ d ∈ sc.description, s.infoList.Live d := by
  induction content generalizing nodes s' with
  | nil =>
      cases run
      exact ⟨rfl, fun _ member => by cases member⟩
  | cons sc rest ih =>
      rw [lmInsertSessioncontents] at run
      obtain ⟨node, s₁, written, more⟩ := of_bind_done run
      obtain ⟨supplied, rfl, live⟩ := lmInsertSessioncontent_supplied written
      obtain ⟨nodes', s₂, others, last⟩ := of_bind_done more
      obtain ⟨rfl, all⟩ := ih others
      cases last
      refine ⟨rfl, fun sc' member => ?_⟩
      rcases List.mem_cons.mp member with rfl | member
      · exact ⟨supplied, live⟩
      · exact all sc' member

/-- Deleting a session leaves everything but the session list. -/
theorem sessionDelete_done (run : sessionDelete w p s = .done () s')
    : ∃ staleReads, s' = { s with sessions := s.sessions.erase p, staleReads } := by
  let left (s' : State) : Prop :=
    ∃ staleReads, s' = { s with sessions := s.sessions.erase p, staleReads }
  have known : (sessionDelete w p).wp (fun _ => left) (fun _ _ => True) s := by
    refine wp_mono (wp_seq (readSession_known p) ?_) (fun _ _ => id) (fun _ _ _ => trivial)
    rintro js s₁ ⟨rfl, _⟩
    refine wp_cut (fun _ => left) ⟨s₁.staleReads, rfl⟩ (fun _ s₂ erased => ?_)
    refine sessionFreeContents_frame w js.content ?_ s₂ erased
    rintro s₃ ⟨staleReads, rfl⟩
    exact ⟨staleReads + 1, rfl⟩
  exact wp_done known run

/-- The state after a session-initiate that could not be sent. -/
def State.unsent (s : State) (js : JingleSession) (p : SessionPtr) (iq : LmMessage) : State :=
  { s.requested (js.ident p) iq (some (.sessionInitiate p)) 60 false with
    sessions := s.sessions.erase p }

/-- A session-initiate that was not stopped was written, and sent or not. -/
theorem jingleSendSessionInitiate_done
    (run : jingleSendSessionInitiate env w p s = .done () s')
    : ∃ js iq, s.sessions.get? p = some js ∧ iq.isSessionInitiate = true
        ∧ (∀ sc ∈ js.content, sc.Supplied ∧ ∀ d ∈ sc.description, s.infoList.Live d)
        ∧ if w.sendOk then
            s' = s.requested (js.ident p) iq (some (.sessionInitiate p)) 60 true
          else
            ∃ staleReads, s' = { s.unsent js p iq with staleReads } := by
  rw [jingleSendSessionInitiate] at run
  obtain ⟨js, s₁, reads, make⟩ := of_bind_done run
  obtain ⟨rfl, listed⟩ := wp_done (readSession_known p) reads
  obtain ⟨mess, s₂, makes, send⟩ := of_bind_done make
  rw [lmMessageFromJinglesession] at makes
  obtain ⟨nodes, s₃, writes, made⟩ := of_bind_done makes
  obtain ⟨rfl, supplied⟩ := lmInsertSessioncontents_supplied writes
  cases made
  obtain ⟨_, s₄, requests, more⟩ := of_bind_done send
  cases (sendRequest_done _ _ _ _ _).symm.trans requests
  refine ⟨js, _, listed, setInitiator_isSessionInitiate js nodes js.fromJid, supplied, ?_⟩
  by_cases sent : w.sendOk = true
  · rw [if_pos sent] at more ⊢
    cases more
    rw [sent]
  · rw [if_neg sent] at more ⊢
    obtain ⟨staleReads, rfl⟩ := sessionDelete_done more
    exact ⟨staleReads, by simp only [State.unsent, State.requested, sent]⟩

/-- A transport just made is written into a node that has none. -/
theorem tomessage_fresh {t : TransportPtr} {transfuncs : JingleTransportFuncs} {s₀ : State}
    (there : s.transports.get? t = some (transfuncs.fresh w s₀)) {node : LmMessageNode}
    (absent : node.getChild "transport" = none)
    : ∃ transport, transport.name = "transport"
        ∧ transfuncs.tomessage t node s = .done (node.addChild transport) s := by
  cases transfuncs with
  | ibb => exact ⟨_, rfl, ibbTomessage_eq there absent⟩
  | s5b =>
      refine ⟨element "transport" [("xmlns", NS_JINGLE_TRANSPORT_SOCKS5),
        ("sid", w.generateTransportSid), ("mode", "tcp")]
        ((S5b.getOurCandidates w s₀).map S5b.candidateNode), rfl, ?_⟩
      rw [JingleTransportFuncs.tomessage, S5b.tomessage, bind_done (readS5b_done there), absent]
      rfl

/-- The content of an offer can be written, if its transfer is listed. -/
theorem readyContent_written {appfuncs : JingleAppFuncs} {entry : AppEntry} {xmlns : String}
    {transfuncs : JingleTransportFuncs} {t : TransportPtr} {s₀ : State} (env : Env)
    (there : s.transports.get? t = some (transfuncs.fresh w s₀))
    (live : s.infoList.Live entry.data)
    : ∃ nodes, lmInsertSessioncontents env [readyContent appfuncs entry xmlns transfuncs t] s
        = .done nodes s := by
  obtain ⟨jft, listed⟩ := Option.isSome_iff_exists.mp live
  let content := element "content" [("name", entry.name)] []
  have bare : content.getChild "transport" = none := rfl
  obtain ⟨transport, named, written⟩ := tomessage_fresh there bare
  have absent : (content.addChild transport).getChild "description" = none := by
    simp [content, LmMessageNode.getChild, LmMessageNode.addChild, element, named]
  have described : FileTransfer.tomessage env entry.data (content.addChild transport) s = _ :=
    tomessage_eq listed absent
  have one : lmInsertSessioncontent env (readyContent appfuncs entry xmlns transfuncs t) s
      = .done ((content.addChild transport).addChild (descriptionElement env jft)) s := by
    let sc := readyContent appfuncs entry xmlns transfuncs t
    have hasFuncs : sc.transfuncs = some transfuncs := rfl
    have carried : sc.transport = some t := rfl
    have hasApp : sc.appfuncs = some appfuncs := rfl
    have describedBy : sc.description = some entry.data := rfl
    rw [lmInsertSessioncontent, bind_done (deref_done hasFuncs), bind_done (deref_done carried)]
    refine (bind_done written).trans ?_
    rw [bind_done (deref_done hasApp), bind_done (deref_done describedBy)]
    exact described
  refine ⟨[(content.addChild transport).addChild (descriptionElement env jft)], ?_⟩
  rw [lmInsertSessioncontents, bind_done one]
  rfl

-----------------------------------------------------------------------------------------
-- The whole offer
-----------------------------------------------------------------------------------------

/-- The session that a list of applications makes. -/
def appsSession (w : World) (s : State) (recipientjid : String) (entries : List AppEntry)
    : JingleSession :=
  { offerSession w recipientjid with content := entries.foldl (withEntry s) [] }

theorem appsSession_bare (recipientjid : String) (entries : List AppEntry)
    : (appsSession w s recipientjid entries).content.map SessionContent.transport
      = List.replicate entries.length none :=
  map_transport_withEntry s entries []

/-- The state in which the session-initiate is written. -/
def State.equipped (s : State) (w : World) (js : JingleSession) (p : SessionPtr)
    (name : String) (app : FtPtr) (xmlns : String) (transfuncs : JingleTransportFuncs)
    : State :=
  ((s.opening js).allocating (transfuncs.fresh w s)).withContent p
    (withTransport name app xmlns transfuncs s.transports.next)

/-- An offer that was not stopped either found no transport, or it found a session and wrote a
session-initiate for it.
-/
theorem offerApps_done {recipientjid : String} {entries : List AppEntry}
    (run : offerApps env w recipientjid entries name xmlnsApp app s = .done () s')
    : (jingleGetTransportfuncs s (transportForApp s xmlnsApp) = none
        ∧ s' = s.opening (appsSession w s recipientjid entries))
      ∨ ∃ xmlns transfuncs p js iq,
          jingleGetTransportfuncs s (transportForApp s xmlnsApp) = some transfuncs
          ∧ sessionFindByApp (s.opening (appsSession w s recipientjid entries)) app = some (p, js)
          ∧ name ∈ js.content.map SessionContent.name
          ∧ (∀ sc ∈ withTransport name app xmlns transfuncs s.transports.next js.content,
              sc.Supplied ∧ ∀ d ∈ sc.description, s.infoList.Live d)
          ∧ let s₁ := s.equipped w (appsSession w s recipientjid entries) p name app xmlns
              transfuncs
            if w.sendOk then
              s' = s₁.requested (js.ident p) iq (some (.sessionInitiate p)) 60 true
            else
              ∃ staleReads, s' = { s₁.unsent js p iq with staleReads } := by
  rw [offerApps] at run
  let js₀ := appsSession w s recipientjid entries
  have made : newSessionWithApps w recipientjid entries s = .done () (s.opening js₀) :=
    newSessionWithApps_made w s recipientjid entries
  rw [bind_done made] at run
  rcases jingleHandleApp_done run with ⟨absent, same⟩ | ⟨xmlns, transfuncs, p, js, chosen, known,
    found, named, offers⟩
  · exact .inl ⟨absent, same⟩
  · obtain ⟨js₁, iq, listed, _, supplied, ends⟩ := jingleSendSessionInitiate_done offers
    have listed₀ := (sessionFindByApp_found found).1
    have rewritten := State.withContent_listed
      (s := (s.opening js₀).allocating (transfuncs.fresh w s)) listed₀
      (withTransport name app xmlns transfuncs s.transports.next)
    cases rewritten.symm.trans listed
    refine .inr ⟨xmlns, transfuncs, p, js, iq, ?_, found, named, supplied, ends⟩
    exact (congrArg (jingleGetTransportfuncs s) chosen).trans known

section Run

variable {recipientjid : String} {entries : List AppEntry}

theorem length_equipped (js : JingleSession) (xmlns : String) (transfuncs : JingleTransportFuncs)
    : (s.equipped w js p name app xmlns transfuncs).sessions.cells.length
      = s.sessions.cells.length + 1 := by
  simp [State.equipped, State.withContent, State.allocating, State.opening, Pool.modify,
    Pool.alloc]

/-- Whatever went wrong, an offer never leaves the list as it was without a stale handle. -/
theorem offerApps_not_withdrawn
    (run : offerApps env w recipientjid entries name xmlnsApp app s = .done () s')
    : ¬ Withdrawn s s' := by
  intro withdrawn
  have length := congrArg List.length withdrawn.sessions
  rcases offerApps_done run with ⟨_, rfl⟩ | ⟨xmlns, transfuncs, p, js, iq, _, _, _, _, ends⟩
  · simp [State.opening, Pool.alloc] at length
  · dsimp only at ends
    split at ends
    · subst ends
      have longer : (s.equipped w (appsSession w s recipientjid entries) p name app xmlns
          transfuncs).sessions.cells.length = s.sessions.cells.length + 1 :=
        length_equipped _ xmlns transfuncs
      exact absurd (longer.symm.trans length) (by omega)
    · obtain ⟨staleReads, rfl⟩ := ends
      let handle : JingleAckHandle :=
        { callback := some (.sessionInitiate p), timeout := 60, inserted := s.clock }
      have live := withdrawn.ackHandlers (s.ackHandlers.next, handle)
        (Pool.mem_alloc.mpr (.inr rfl)) (.sessionInitiate p) rfl
      let s₁ := s.equipped w (appsSession w s recipientjid entries) p name app xmlns transfuncs
      have gone : (s₁.unsent js p iq).sessions.get? p = none := Pool.get?_erase_self _ _
      have there : ((s₁.unsent js p iq).sessions.get? p).isSome := live
      rw [gone] at there
      cases there

/-- An application found in the session appended last is in no other. -/
theorem sessionFindByApp_elsewhere {js js' : JingleSession}
    (found : sessionFindByApp (s.opening js) app = some (s.sessions.next, js'))
    : ∀ cell ∈ s.sessions.cells, ∀ sc ∈ cell.2.content, sc.description ≠ some app := by
  intro cell member sc there described
  let has : SessionPtr × JingleSession → Bool := fun cell =>
    cell.2.content.any (fun sc => sc.description == some app)
  have hit : (s.sessions.cells.find? has).isSome :=
    List.find?_isSome.mpr ⟨cell, member, List.any_eq_true.mpr ⟨sc, there, by simp [described]⟩⟩
  obtain ⟨first, earlier⟩ := Option.isSome_iff_exists.mp hit
  have all : (s.sessions.cells ++ [(s.sessions.next, js)]).find? has
      = some (s.sessions.next, js') := found
  rw [List.find?_append, earlier] at all
  cases all
  exact Nat.lt_irrefl _ (s.sessions.below _ (List.mem_of_find?_eq_some earlier))

/-- An offer that publishes its session had one content, for the transfer that is then found in
no other session, and everything it needs was there.
-/
theorem offerApps_published {js : JingleSession} {iq : LmMessage} {handle : JingleAckHandle}
    (run : offerApps env w recipientjid entries name xmlnsApp app s = .done () s')
    (published : Published s s' js iq handle)
    : ∃ entry, entries = [entry] ∧ name = entry.name ∧ app = entry.data
        ∧ (∀ cell ∈ s.sessions.cells, ∀ sc ∈ cell.2.content, sc.description ≠ some app)
        ∧ (jingleGetAppfuncs s (some entry.ns)).isSome
        ∧ (jingleGetTransportfuncs s (transportForApp s xmlnsApp)).isSome
        ∧ s.infoList.Live app
        ∧ w.sendOk = true := by
  have sent := published.sent
  let js₀ := appsSession w s recipientjid entries
  rcases offerApps_done run with ⟨_, rfl⟩ | ⟨xmlns, transfuncs, p, js₁, iq', known, found, named,
    supplied, ends⟩
  · simp [State.opening] at sent
  dsimp only at ends
  split at ends
  case isFalse =>
    obtain ⟨staleReads, rfl⟩ := ends
    have unchanged : s.sent = s.sent ++ [.request (js.ident s.sessions.next) iq] := sent
    simp at unchanged
  rename_i sendOk
  subst ends
  -- the stanza is for the new session, so that is where the application was found
  have same : [Sent.request (js₁.ident p) iq'] = [.request (js.ident s.sessions.next) iq] :=
    List.append_cancel_left sent
  have address : p = s.sessions.next := by
    have idents := (Sent.request.inj (List.cons.inj same).1).1
    exact congrArg SessionIdent.ptr idents
  subst address
  obtain ⟨listed, sc, member, described⟩ := sessionFindByApp_found found
  cases (s.opening_listed js₀).symm.trans listed
  have bare : ∀ sc ∈ js₀.content, sc.transport = none := by
    intro sc member
    have there := List.mem_map_of_mem (f := SessionContent.transport) member
    rw [appsSession_bare] at there
    exact List.eq_of_mem_replicate there
  have short := length_of_withTransport bare (fun sc member => (supplied sc member).1.transport)
  have length : js₀.content.length = entries.length := by
    have lengths := congrArg List.length (appsSession_bare (w := w) (s := s) recipientjid entries)
    simpa using lengths
  rw [length] at short
  cases entries with
  | nil => cases member
  | cons entry rest =>
      have single : rest = [] := List.length_eq_zero_iff.mp (by simpa using short)
      subst single
      have content : js₀.content = withEntry s [] entry := rfl
      rw [withEntry_nil] at content
      rw [content, List.mem_singleton] at member
      subst member
      rw [content, List.map_singleton, List.mem_singleton] at named
      -- the application of the content is still there once it has its transport
      have apps := map_app_withTransport name app xmlns transfuncs s.transports.next js₀.content
      rw [content, List.map_singleton] at apps
      obtain ⟨sc, there, same⟩ := List.mem_map.mp (apps ▸ List.mem_singleton.mpr rfl)
      obtain ⟨complete, live⟩ := supplied sc (content ▸ there)
      obtain ⟨sameFuncs, sameDescription⟩ := Prod.mk.inj same
      refine ⟨entry, rfl, named, (Option.some.inj described).symm,
        sessionFindByApp_elsewhere found, ?_, by rw [known]; rfl, ?_, sendOk⟩
      · have funcs : sc.appfuncs = jingleGetAppfuncs s (some entry.ns) := sameFuncs
        rw [← funcs]
        exact complete.appfuncs
      · exact live app (sameDescription.trans described)

/-- One content for a listed transfer that no session has, modules for it, and a connection that
takes the stanza: the session is published.
-/
theorem offerApps_publishes {entry : AppEntry}
    (elsewhere : ∀ cell ∈ s.sessions.cells, ∀ sc ∈ cell.2.content,
      sc.description ≠ some entry.data)
    {appfuncs : JingleAppFuncs} (knownApp : jingleGetAppfuncs s (some entry.ns) = some appfuncs)
    {transfuncs : JingleTransportFuncs}
    (known : jingleGetTransportfuncs s (transportForApp s xmlnsApp) = some transfuncs)
    (live : s.infoList.Live entry.data) (sendOk : w.sendOk = true)
    : ∃ s' js iq handle,
        offerApps env w recipientjid [entry] entry.name xmlnsApp entry.data s = .done () s'
        ∧ Published s s' js iq handle := by
  have chosen := jingleGetTransportfuncs_known known
  let xmlns := (transportForApp s xmlnsApp).getD ""
  let js : JingleSession :=
    { offerSession w recipientjid with
      content := [readyContent appfuncs entry xmlns transfuncs s.transports.next] }
  let s₁ := (s.allocating (transfuncs.fresh w s)).opening js
  have offered : offerApps env w recipientjid [entry] entry.name xmlnsApp entry.data s
      = jingleSendSessionInitiate env w s.sessions.next s₁ :=
    offerApp_eq env knownApp xmlnsApp chosen (chosen ▸ known) elsewhere
  have fresh : s₁.transports.get? s.transports.next = some (transfuncs.fresh w s) :=
    Pool.get?_alloc_self _ _
  obtain ⟨nodes, written⟩ := readyContent_written env fresh live
  have listed : s₁.sessions.get? s.sessions.next = some js :=
    (s.allocating (transfuncs.fresh w s)).opening_listed js
  have made : lmMessageFromJinglesession env js .sessionInitiate s₁
      = .done (jinglesessionIq js .sessionInitiate nodes) s₁ := by
    rw [lmMessageFromJinglesession, bind_done written]
    rfl
  have sent := jingleSendSessionInitiate_sent listed made sendOk
  refine ⟨_, js, _, _, offered.trans sent, rfl, ?_, rfl,
    setInitiator_isSessionInitiate js nodes js.fromJid, rfl, rfl⟩
  intro sc member
  cases List.mem_singleton.mp member
  exact ⟨rfl, rfl, rfl, rfl⟩

/-- An offer is all or nothing only if it has one content, `jingle_handle_app` is called for that
content, its transfer is listed and in no other session, there are modules for both, and the
connection takes the stanza: no exit undoes what an earlier step published.
-/
theorem offers_all_or_nothing (env : Env) (w : World) (s : State) (recipientjid : String)
    (entries : List AppEntry) (name xmlnsApp : String) (app : FtPtr)
    : AllOrNothing s (offerApps env w recipientjid entries name xmlnsApp app)
      ↔ ∃ entry, entries = [entry] ∧ name = entry.name ∧ app = entry.data
          ∧ (∀ cell ∈ s.sessions.cells, ∀ sc ∈ cell.2.content, sc.description ≠ some app)
          ∧ (jingleGetAppfuncs s (some entry.ns)).isSome
          ∧ (jingleGetTransportfuncs s (transportForApp s xmlnsApp)).isSome
          ∧ s.infoList.Live app
          ∧ w.sendOk = true := by
  constructor
  · rintro ⟨s', run, ⟨js, iq, handle, published⟩ | withdrawn⟩
    · exact offerApps_published run published
    · exact absurd withdrawn (offerApps_not_withdrawn run)
  · rintro ⟨entry, rfl, rfl, rfl, elsewhere, knownApp, known, live, sendOk⟩
    obtain ⟨appfuncs, knownApp⟩ := Option.isSome_iff_exists.mp knownApp
    obtain ⟨transfuncs, known⟩ := Option.isSome_iff_exists.mp known
    obtain ⟨s', js, iq, handle, run, published⟩ :=
      offerApps_publishes elsewhere knownApp known live sendOk
    exact ⟨s', run, .inl ⟨js, iq, handle, published⟩⟩

end Run

/-- A file is listed, and no session offers it yet. -/
def listedFile : State :=
  { loaded with
    infoList := loaded.infoList.alloc
      { date := 0, hash := none, name := "notes", size := 4, transmit := 0, outfile := none,
        type := .offer, dir := .outgoing, state := .pending, desc := none, md5 := .null } }

/-- The file is offered over a connection that refuses the session-initiate. -/
def refusedOffer : Run Unit :=
  offerApps plainEnv { plainWorld with sendOk := false } "romeo@verona/a"
    [{ name := "file", data := 1, ns := NS_JINGLE_APP_FT }] "file" NS_JINGLE_APP_FT 1

/-- The session is deleted, but its handle stays in the list. -/
theorem refused_offer_leaves_handle : ¬AllOrNothing listedFile refusedOffer := by
  rintro ⟨s', run, ends⟩
  have after : (refusedOffer listedFile).state = s' := congrArg Outcome.state run
  subst after
  rcases ends with ⟨js, iq, handle, published⟩ | withdrawn
  · have longer := congrArg List.length published.sent
    have nothing : (refusedOffer listedFile).state.sent.length = 0 := by decide +kernel
    simp [nothing] at longer
  · have gone : (refusedOffer listedFile).state.sessions.get? 0 = none := by
      have empty : (refusedOffer listedFile).state.sessions.cells.length = 0 := by decide +kernel
      have cells := List.length_eq_zero_iff.mp empty
      simp [Pool.get?, cells]
    have kept : (refusedOffer listedFile).state.ackHandlers.cells.map (fun cell =>
        cell.2.callback) = [some (.sessionInitiate 0)] := by decide +kernel
    obtain ⟨cell, member, same⟩ := List.mem_map.mp (kept ▸ List.mem_singleton.mpr rfl)
    have live : ((refusedOffer listedFile).state.sessions.get? 0).isSome :=
      withdrawn.ackHandlers cell member (.sessionInitiate 0) same
    rw [gone] at live
    cases live

end McabberJingle
