import McabberJingle.Jingle.Invitation
import McabberJingle.Jingle.Requests

/-! What offering a file leaves behind: `new_session_with_apps` and `jingle_handle_app` in
closed form.
-/

namespace McabberJingle

open Program Program.Prog

/-- The session a file is offered in. -/
def offerSession (w : World) (recipientjid : String) : JingleSession :=
  { sid := w.generateSid, origin := .outgoing, fromJid := w.myJid, toJid := recipientjid,
    content := [] }

/-- Where an offer goes, if the current buddy has a resource that takes it. -/
def offerRecipient (w : World) : Option String :=
  w.currentJid.bind (fun jid => w.compatibleRes.map (fun resource => jid ++ "/" ++ resource))

/-- The content of an application entry, before it gets a transport. -/
def appContent (appfuncs : JingleAppFuncs) (entry : AppEntry) : SessionContent :=
  { SessionContent.new entry.name .pending with
    xmlnsDesc := some entry.ns
    description := some entry.data
    appfuncs := some appfuncs
    suppliedApp := some (appfuncs, entry.data) }

/-- The state after a session was appended to the list. -/
def State.opening (s : State) (js : JingleSession) : State :=
  { s with sessions := s.sessions.alloc js }

theorem State.opening_listed (s : State) (js : JingleSession)
    : (s.opening js).sessions.get? s.sessions.next = some js :=
  Pool.get?_alloc_self _ _

theorem State.opening_withContent (s : State) (js : JingleSession)
    (g : List SessionContent → List SessionContent)
    : (s.opening js).withContent s.sessions.next g
      = s.opening { js with content := g js.content } := by
  simp only [State.opening, State.withContent, Pool.modify_alloc_self]

/-- The contents of a session after one more application entry. -/
def withEntry (s : State) (content : List SessionContent) (entry : AppEntry)
    : List SessionContent :=
  updateFirst entry.name
    (fun sc =>
      { sc with
        xmlnsDesc := some entry.ns
        appfuncs := jingleGetAppfuncs s (some entry.ns)
        description := some entry.data })
    (updateLast
      (fun sc =>
        { sc with
          suppliedApp := (jingleGetAppfuncs s (some entry.ns)).map
            (fun funcs => (funcs, entry.data)) })
      (content ++ [.new entry.name .pending]))

/-- By induction on the entries: each appends a content and fills the first one of its name. -/
theorem addApps_eq {s : State} {p : SessionPtr} {js : JingleSession}
    (listed : s.sessions.get? p = some js) (entries : List AppEntry)
    : addApps p entries s
      = .done () (s.withContent p (fun content => entries.foldl (withEntry s) content)) := by
  induction entries generalizing s js with
  | nil =>
      rw [State.withContent_same listed (by rfl)]
      rfl
  | cons entry rest ih =>
      let supply : List SessionContent → List SessionContent :=
        updateLast (fun sc =>
          { sc with
            suppliedApp := (jingleGetAppfuncs s (some entry.ns)).map
              (fun funcs => (funcs, entry.data)) })
      let append : List SessionContent → List SessionContent :=
        fun content => content ++ [.new entry.name .pending]
      have appended := sessionAddContent_eq listed entry.name .pending
      have supplied : modifyContent p supply (s.withContent p append)
          = .done () (s.withContent p (fun content => supply (append content))) := by
        rw [modifyContent_eq, State.withContent_withContent]
      have listed₂ := State.withContent_listed listed (fun content => supply (append content))
      have named : entry.name ∈ (supply (append js.content)).map SessionContent.name := by
        rw [map_updateLast]
        · simp [append, SessionContent.new]
        · exact fun _ => rfl
      have there : (sessionFindSessioncontent { js with content := supply (append js.content) }
          entry.name).isSome := sessionFindSessioncontent_isSome named
      obtain ⟨sc, found⟩ := Option.isSome_iff_exists.mp there
      have filled : sessionAddApp p entry.name entry.ns entry.data
          (s.withContent p (fun content => supply (append content)))
          = .done () (s.withContent p (fun content => withEntry s content entry)) := by
        rw [sessionAddApp, bind_done (readSession_done listed₂), bind_done (deref_done found),
          bind_get, modifyContent_eq, State.withContent_withContent]
        rfl
      have listed₃ := State.withContent_listed listed (fun content => withEntry s content entry)
      rw [addApps, bind_done appended, bind_get]
      refine (bind_done supplied).trans ((bind_done filled).trans ((ih listed₃).trans ?_))
      rw [State.withContent_withContent]
      rfl

/-- The entries make one session with as many contents. -/
theorem newSessionWithApps_made (w : World) (s : State) (recipientjid : String)
    (entries : List AppEntry)
    : newSessionWithApps w recipientjid entries s
      = .done () (s.opening
          { offerSession w recipientjid with content := entries.foldl (withEntry s) [] }) := by
  have created : sessionNew w.generateSid w.myJid recipientjid .outgoing s
      = .done s.sessions.next (s.opening (offerSession w recipientjid)) := rfl
  rw [newSessionWithApps, bind_done created, addApps_eq (s.opening_listed _),
    State.opening_withContent]
  rfl

theorem withEntry_nil (s : State) (entry : AppEntry)
    : withEntry s [] entry
      = [{ SessionContent.new entry.name .pending with
          xmlnsDesc := some entry.ns
          appfuncs := jingleGetAppfuncs s (some entry.ns)
          description := some entry.data
          suppliedApp := (jingleGetAppfuncs s (some entry.ns)).map
            (fun funcs => (funcs, entry.data)) }] := by
  simp only [withEntry, List.nil_append, updateLast, updateFirst, SessionContent.new, if_true]

/-- By induction on the entries: each makes a content without a transport. -/
theorem map_transport_withEntry (s : State) (entries : List AppEntry)
    (content : List SessionContent)
    : (entries.foldl (withEntry s) content).map SessionContent.transport
      = content.map SessionContent.transport ++ List.replicate entries.length none := by
  induction entries generalizing content with
  | nil => simp
  | cons entry rest ih =>
      have added : (withEntry s content entry).map SessionContent.transport
          = content.map SessionContent.transport ++ [none] := by
        refine (map_updateFirst ?_ _).trans ((map_updateLast ?_ _).trans ?_)
        · exact fun _ => rfl
        · exact fun _ => rfl
        · rw [List.map_append]
          rfl
      rw [List.foldl_cons, ih, added, List.append_assoc, List.length_cons,
        List.replicate_succ, List.singleton_append]

/-- One application entry makes a session with one content. -/
theorem newSessionWithApps_eq (w : World) {s : State} (recipientjid : String) {entry : AppEntry}
    {appfuncs : JingleAppFuncs} (known : jingleGetAppfuncs s (some entry.ns) = some appfuncs)
    : newSessionWithApps w recipientjid [entry] s
      = .done () (s.opening
          { offerSession w recipientjid with content := [appContent appfuncs entry] }) := by
  have content : withEntry s [] entry = [appContent appfuncs entry] := by
    rw [withEntry_nil, known]
    rfl
  rw [newSessionWithApps_made, List.foldl_cons, List.foldl_nil, content]

/-- `jingle_transport_for_app` without a forbid list. -/
def transportForApp (s : State) (appxmlns : String) : Option String :=
  (jingleFindApp s (some appxmlns)).bind (fun app =>
    (bestTransport app.transtype [] s.transportHandlers 0 none).map TransportHandlerEntry.xmlns)

theorem jingleTransportForApp_eq (s : State) (appxmlns : String)
    : jingleTransportForApp appxmlns none s = .done (transportForApp s appxmlns, none) s := by
  rw [jingleTransportForApp, bind_get, transportForApp]
  cases jingleFindApp s (some appxmlns) <;> rfl

/-- The transport module that offers a file. -/
def offerTransport (s : State) : Option JingleTransportFuncs :=
  jingleGetTransportfuncs s (transportForApp s NS_JINGLE_APP_FT)

theorem SameModules.offerTransport {s s' : State} (same : SameModules s s')
    : offerTransport s' = offerTransport s := by
  simp only [McabberJingle.offerTransport, transportForApp, jingleFindApp, jingleGetTransportfuncs,
    jingleFindTransport, same.1, same.2]

/-- A transport is offered for a registered application only, under a namespace. -/
theorem offerTransport_known {s : State} {transfuncs : JingleTransportFuncs}
    (offered : offerTransport s = some transfuncs)
    : ∃ appfuncs xmlns, jingleGetAppfuncs s (some NS_JINGLE_APP_FT) = some appfuncs
        ∧ transportForApp s NS_JINGLE_APP_FT = some xmlns
        ∧ jingleGetTransportfuncs s (some xmlns) = some transfuncs := by
  unfold offerTransport at offered
  cases chosen : transportForApp s NS_JINGLE_APP_FT with
  | none =>
      have absent : jingleFindTransport s none = none := List.find?_eq_none.mpr (by simp)
      rw [chosen, jingleGetTransportfuncs, absent] at offered
      cases offered
  | some xmlns =>
      obtain ⟨app, found, _⟩ := Option.bind_eq_some_iff.mp chosen
      rw [chosen] at offered
      exact ⟨app.funcs, xmlns, by simp [jingleGetAppfuncs, found], rfl, offered⟩

/-- The object that `new` of a transport table allocates. -/
def JingleTransportFuncs.fresh (w : World) (s : State) : JingleTransportFuncs → Transport
  | .ibb =>
      .ibb {
        blocksize := IBB_BLOCK_SIZE_MAX
        sid := w.generateTransportSid
        buf := []
        sizeBuf := 0
        bufFreed := false
        seq := 0
      }
  | .s5b =>
      .s5b {
        mode := some .tcp
        sid := w.generateTransportSid
        candidates := []
        ourcandidates := S5b.getOurCandidates w s
      }

/-- The state after a transport was allocated. -/
def State.allocating (s : State) (transport : Transport) : State :=
  { s with transports := s.transports.alloc transport }

theorem JingleTransportFuncs.new_eq (w : World) (s : State) (transfuncs : JingleTransportFuncs)
    : transfuncs.new w s = .done s.transports.next (s.allocating (transfuncs.fresh w s)) := by
  cases transfuncs <;> rfl

/-- The content of an application entry with its transport. -/
def readyContent (appfuncs : JingleAppFuncs) (entry : AppEntry) (xmlns : String)
    (transfuncs : JingleTransportFuncs) (t : TransportPtr)
    : SessionContent :=
  { appContent appfuncs entry with
    xmlnsTrans := some xmlns
    transport := some t
    transfuncs := some transfuncs
    suppliedTrans := some (transfuncs, t) }

/-- A transfer that no listed session has is found in the session just made for it. -/
theorem sessionFindByApp_opening {s : State} {js : JingleSession} {d : FtPtr}
    (elsewhere : ∀ cell ∈ s.sessions.cells, ∀ sc ∈ cell.2.content, sc.description ≠ some d)
    (here : ∃ sc ∈ js.content, sc.description = some d)
    : sessionFindByApp (s.opening js) d = some (s.sessions.next, js) := by
  have before : s.sessions.cells.find? (fun cell =>
      cell.2.content.any (fun sc => sc.description == some d)) = none := by
    rw [List.find?_eq_none]
    intro cell member
    simpa using elsewhere cell member
  obtain ⟨sc, there, described⟩ := here
  have hit : js.content.any (fun sc => sc.description == some d) = true :=
    List.any_eq_true.mpr ⟨sc, there, by simp [described]⟩
  simp [sessionFindByApp, State.opening, Pool.alloc, List.find?_append, before, hit]

/-- The transport for an application is offered to the contents that have the application. -/
def supplyTransport (app : FtPtr) (transfuncs : JingleTransportFuncs) (t : TransportPtr)
    (content : List SessionContent)
    : List SessionContent :=
  content.map (fun sc =>
    if sc.description = some app then { sc with suppliedTrans := some (transfuncs, t) } else sc)

theorem map_name_supplyTransport (app : FtPtr) (transfuncs : JingleTransportFuncs)
    (t : TransportPtr) (content : List SessionContent)
    : (supplyTransport app transfuncs t content).map SessionContent.name
      = content.map SessionContent.name := by
  rw [supplyTransport, List.map_map]
  refine List.map_congr_left (fun sc _ => ?_)
  simp only [Function.comp_apply]
  split <;> rfl

/-- The contents of a session after the transport for an application was added: it goes to the
first content with the name.
-/
def withTransport (name : String) (app : FtPtr) (xmlns : String)
    (transfuncs : JingleTransportFuncs) (t : TransportPtr) (content : List SessionContent)
    : List SessionContent :=
  updateFirst name
    (fun sc =>
      { sc with
        xmlnsTrans := some xmlns
        transfuncs := some transfuncs
        transport := some t })
    (supplyTransport app transfuncs t content)

/-- The applications of the contents stay. -/
theorem map_app_withTransport (name : String) (app : FtPtr) (xmlns : String)
    (transfuncs : JingleTransportFuncs) (t : TransportPtr) (content : List SessionContent)
    : (withTransport name app xmlns transfuncs t content).map
          (fun sc => (sc.appfuncs, sc.description))
      = content.map (fun sc => (sc.appfuncs, sc.description)) := by
  refine (map_updateFirst ?_ _).trans ?_
  · exact fun _ => rfl
  · rw [supplyTransport, List.map_map]
    refine List.map_congr_left (fun sc _ => ?_)
    simp only [Function.comp_apply]
    split <;> rfl

/-- Only one content gets the transport. -/
theorem length_of_withTransport {name : String} {app : FtPtr} {xmlns : String}
    {transfuncs : JingleTransportFuncs} {t : TransportPtr} {content : List SessionContent}
    (bare : ∀ sc ∈ content, sc.transport = none)
    (complete : ∀ sc ∈ withTransport name app xmlns transfuncs t content, sc.transport.isSome)
    : content.length ≤ 1 := by
  have kept : ∀ sc ∈ supplyTransport app transfuncs t content, sc.transport = none := by
    intro sc member
    obtain ⟨old, there, rfl⟩ := List.mem_map.mp member
    have none := bare old there
    split <;> exact none
  have length : (supplyTransport app transfuncs t content).length = content.length :=
    List.length_map ..
  unfold withTransport at complete
  rw [← length]
  generalize supplyTransport app transfuncs t content = rest at kept complete
  cases rest with
  | nil => exact Nat.zero_le _
  | cons first rest =>
      rw [updateFirst] at complete
      split at complete
      · cases rest with
        | nil => exact Nat.le_refl _
        | cons second rest =>
            have some := complete second (by simp)
            rw [kept second (by simp)] at some
            cases some
      · have some := complete first (List.mem_cons_self ..)
        rw [kept first (List.mem_cons_self ..)] at some
        cases some

/-- The transport goes to a session that has the application, and the session is offered. -/
theorem jingleHandleApp_eq (env : Env) {w : World} {s : State} {name xmlnsApp xmlns : String}
    {app : FtPtr} {transfuncs : JingleTransportFuncs} {p : SessionPtr} {js : JingleSession}
    (chosen : transportForApp s xmlnsApp = some xmlns)
    (known : jingleGetTransportfuncs s (some xmlns) = some transfuncs)
    (found : sessionFindByApp s app = some (p, js)) (listed : s.sessions.get? p = some js)
    (named : name ∈ js.content.map SessionContent.name)
    : jingleHandleApp env w name xmlnsApp app s
      = jingleSendSessionInitiate env w p ((s.allocating (transfuncs.fresh w s)).withContent p
          (withTransport name app xmlns transfuncs s.transports.next)) := by
  have transport : jingleTransportForApp xmlnsApp none s = .done (some xmlns, none) s := by
    rw [jingleTransportForApp_eq, chosen]
  rw [jingleHandleApp, bind_get, bind_done transport]
  dsimp only
  rw [bind_get, known]
  dsimp only
  rw [bind_done (transfuncs.new_eq w _), bind_done (deref_done found)]
  let s₁ := s.allocating (transfuncs.fresh w s)
  let supply : List SessionContent → List SessionContent :=
    supplyTransport app transfuncs s.transports.next
  have listed₁ : (s₁.withContent p supply).sessions.get? p
      = some { js with content := supply js.content } :=
    State.withContent_listed (s := s₁) listed supply
  have named₁ : name ∈ (supply js.content).map SessionContent.name := by
    rw [map_name_supplyTransport]
    exact named
  have known₁ : jingleGetTransportfuncs (s₁.withContent p supply) (some xmlns)
      = some transfuncs := known
  have filled := sessionAddTrans_eq listed₁ s.transports.next named₁ known₁
  refine (bind_done (modifyContent_eq s₁ p supply)).trans ((bind_done filled).trans ?_)
  rw [State.withContent_withContent]
  rfl

/-- The session found by an application is listed and has it. -/
theorem sessionFindByApp_found {s : State} {app : FtPtr} {p : SessionPtr} {js : JingleSession}
    (found : sessionFindByApp s app = some (p, js))
    : s.sessions.get? p = some js ∧ ∃ sc ∈ js.content, sc.description = some app := by
  refine ⟨Pool.get?_eq_some_iff.mpr (List.mem_of_find?_eq_some found), ?_⟩
  have hit : js.content.any (fun sc => sc.description == some app) = true :=
    List.find?_some (p := fun cell : SessionPtr × JingleSession =>
      cell.2.content.any (fun sc => sc.description == some app)) found
  obtain ⟨sc, member, described⟩ := List.any_eq_true.mp hit
  exact ⟨sc, member, by simpa using described⟩

/-- A transport was only added to a content that there is. -/
theorem sessionAddTrans_named {s s' : State} {p : SessionPtr} {js : JingleSession}
    (listed : s.sessions.get? p = some js) {name xmlns : String} {t : TransportPtr}
    (run : sessionAddTrans p name xmlns t s = .done () s')
    : name ∈ js.content.map SessionContent.name := by
  rw [sessionAddTrans, bind_done (readSession_done listed)] at run
  obtain ⟨sc, _, dereferenced, _⟩ := of_bind_done run
  cases found : sessionFindSessioncontent js name with
  | none =>
      rw [found] at dereferenced
      cases dereferenced
  | some sc =>
      obtain ⟨member, same⟩ := sessionFindSessioncontent_mem found
      exact List.mem_map.mpr ⟨sc, member, same⟩


/-- A run that ends found no transport, or it found a session and offered it. -/
theorem jingleHandleApp_done {env : Env} {w : World} {s s' : State} {name xmlnsApp : String}
    {app : FtPtr} (run : jingleHandleApp env w name xmlnsApp app s = .done () s')
    : (jingleGetTransportfuncs s (transportForApp s xmlnsApp) = none ∧ s' = s)
      ∨ ∃ xmlns transfuncs p js,
          transportForApp s xmlnsApp = some xmlns
          ∧ jingleGetTransportfuncs s (some xmlns) = some transfuncs
          ∧ sessionFindByApp s app = some (p, js)
          ∧ name ∈ js.content.map SessionContent.name
          ∧ jingleSendSessionInitiate env w p
              ((s.allocating (transfuncs.fresh w s)).withContent p
                (withTransport name app xmlns transfuncs s.transports.next)) = .done () s' := by
  have transport := jingleTransportForApp_eq s xmlnsApp
  cases known : jingleGetTransportfuncs s (transportForApp s xmlnsApp) with
  | none =>
      rw [jingleHandleApp, bind_get, bind_done transport] at run
      dsimp only at run
      rw [bind_get, known] at run
      cases run
      exact .inl ⟨rfl, rfl⟩
  | some transfuncs =>
      have chosen := jingleGetTransportfuncs_known known
      rw [chosen] at known
      cases found : sessionFindByApp s app with
      | none =>
          rw [jingleHandleApp, bind_get, bind_done transport] at run
          dsimp only at run
          rw [bind_get, chosen, known] at run
          dsimp only at run
          rw [bind_done (transfuncs.new_eq w _), found] at run
          cases run
      | some cell =>
          obtain ⟨p, js⟩ := cell
          obtain ⟨listed, _⟩ := sessionFindByApp_found found
          have named : name ∈ js.content.map SessionContent.name := by
            let supply : List SessionContent → List SessionContent :=
              supplyTransport app transfuncs s.transports.next
            have listed₁ := State.withContent_listed
              (s := s.allocating (transfuncs.fresh w s)) listed supply
            have supplied := modifyContent_eq (s.allocating (transfuncs.fresh w s)) p supply
            rw [jingleHandleApp, bind_get, bind_done transport] at run
            dsimp only at run
            rw [bind_get, chosen, known] at run
            dsimp only at run
            rw [bind_done (transfuncs.new_eq w _), bind_done (deref_done found)] at run
            obtain ⟨_, s₁, supplies, more⟩ := of_bind_done run
            cases supplied.symm.trans supplies
            obtain ⟨_, s₂, adds, _⟩ := of_bind_done more
            have there := sessionAddTrans_named listed₁ adds
            rw [map_name_supplyTransport] at there
            exact there
          rw [jingleHandleApp_eq env chosen known found listed named] at run
          exact .inr ⟨_, transfuncs, p, js, chosen, known, rfl, named, run⟩

/-- A transfer that no listed session has gets a session with one complete content. -/
theorem offerApp_eq (env : Env) {w : World} {s : State} {entry : AppEntry}
    {recipientjid xmlns : String} {appfuncs : JingleAppFuncs} {transfuncs : JingleTransportFuncs}
    (knownApp : jingleGetAppfuncs s (some entry.ns) = some appfuncs)
    (xmlnsApp : String) (chosen : transportForApp s xmlnsApp = some xmlns)
    (known : jingleGetTransportfuncs s (some xmlns) = some transfuncs)
    (elsewhere : ∀ cell ∈ s.sessions.cells, ∀ sc ∈ cell.2.content,
      sc.description ≠ some entry.data)
    : (do newSessionWithApps w recipientjid [entry]
          jingleHandleApp env w entry.name xmlnsApp entry.data : Run Unit) s
      = jingleSendSessionInitiate env w s.sessions.next
          ((s.allocating (transfuncs.fresh w s)).opening
            { offerSession w recipientjid with
              content := [readyContent appfuncs entry xmlns transfuncs s.transports.next] }) := by
  let js : JingleSession :=
    { offerSession w recipientjid with content := [appContent appfuncs entry] }
  have made : newSessionWithApps w recipientjid [entry] s = .done () (s.opening js) :=
    newSessionWithApps_eq w recipientjid knownApp
  have found : sessionFindByApp (s.opening js) entry.data = some (s.sessions.next, js) :=
    sessionFindByApp_opening elsewhere ⟨appContent appfuncs entry, List.mem_singleton.mpr rfl, rfl⟩
  have named : entry.name ∈ js.content.map SessionContent.name := List.mem_singleton.mpr rfl
  rw [bind_done made, jingleHandleApp_eq env (s := s.opening js) chosen known found
    (s.opening_listed js) named]
  refine congrArg (jingleSendSessionInitiate env w s.sessions.next)
    ((State.opening_withContent (s.allocating (transfuncs.fresh w s)) js _).trans ?_)
  simp only [js, withTransport, supplyTransport, List.map_cons, List.map_nil, appContent,
    SessionContent.new, updateFirst, if_true]
  rfl

/-- The same for a file. -/
theorem jftSendTransfer_eq (env : Env) {w : World} {s : State} {d : FtPtr}
    {recipientjid xmlns : String} {appfuncs : JingleAppFuncs} {transfuncs : JingleTransportFuncs}
    (recipient : offerRecipient w = some recipientjid)
    (knownApp : jingleGetAppfuncs s (some NS_JINGLE_APP_FT) = some appfuncs)
    (chosen : transportForApp s NS_JINGLE_APP_FT = some xmlns)
    (known : jingleGetTransportfuncs s (some xmlns) = some transfuncs)
    (elsewhere : ∀ cell ∈ s.sessions.cells, ∀ sc ∈ cell.2.content, sc.description ≠ some d)
    : jftSendTransfer env w d s
      = jingleSendSessionInitiate env w s.sessions.next
          ((s.allocating (transfuncs.fresh w s)).opening
            { offerSession w recipientjid with
              content := [readyContent appfuncs
                { name := "file", data := d, ns := NS_JINGLE_APP_FT } xmlns transfuncs
                s.transports.next] }) := by
  obtain ⟨jid, jidKnown, rest⟩ := Option.bind_eq_some_iff.mp recipient
  obtain ⟨resource, resourceKnown, same⟩ := Option.map_eq_some_iff.mp rest
  rw [jftSendTransfer, jidKnown]
  dsimp only
  rw [resourceKnown]
  dsimp only
  rw [same]
  let entry : AppEntry := { name := "file", data := d, ns := NS_JINGLE_APP_FT }
  have knownEntry : jingleGetAppfuncs s (some entry.ns) = some appfuncs := knownApp
  exact offerApp_eq env knownEntry NS_JINGLE_APP_FT chosen known elsewhere

end McabberJingle
