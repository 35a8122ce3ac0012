import McabberJingle.Jingle.ActionHandlers
import McabberJingle.Jingle.Contents

/-! What the contents of an invitation leave behind: the effect of
`session_add_content_from_jinglecontent` in closed form, and of the loop around it.
-/

namespace McabberJingle

open Program

variable (env : Env) (w : World)

-----------------------------------------------------------------------------------------
-- One content
-----------------------------------------------------------------------------------------

/-- The transport a `<transport/>` element describes, before it is allocated. -/
def JingleTransportFuncs.parse (s : State) (cn : JingleContent)
    : JingleTransportFuncs → Except GError Transport
  | .ibb => (Ibb.parseTransport cn.transport).map .ibb
  | .s5b =>
      match cn.transport.getAttribute "sid" with
      | none =>
          .error {
            code := .missing
            message := "an attribute of the transport element is missing"
          }
      | some sid =>
          .ok (.s5b {
            mode := (S5b.indexInArray? (cn.transport.getAttribute "mode")
              S5b.jingleS5bModes).map S5b.JingleS5BModes.ofIndex
            sid
            candidates := S5b.parseCandidates env cn.transport
            ourcandidates := S5b.getOurCandidates w s
          })

/-- The state after an incoming transport was allocated, and a stream entered in the table
over whatever had its sid.
-/
def State.carrying (s : State) : Transport → State
  | .s5b js5b => { s with transports := s.transports.alloc (.s5b js5b) }
  | .ibb jibb =>
      { s with
        transports :=
          match Ibb.lookup s jibb.sid with
          | some replaced => (s.transports.alloc (.ibb jibb)).erase replaced
          | none => s.transports.alloc (.ibb jibb)
        jingleIBBs := s.jingleIBBs.filter (fun entry => entry.1 != jibb.sid)
          ++ [(jibb.sid, s.transports.next)] }

/-- The state after a transfer was listed. -/
def State.listing (s : State) (jft : JingleFT) : State :=
  { s with infoList := s.infoList.alloc jft }

theorem JingleTransportFuncs.newFromMessage_eq (s : State) (cn : JingleContent)
    (transfuncs : JingleTransportFuncs)
    : transfuncs.newFromMessage env w cn s
      = match transfuncs.parse env w s cn with
        | .error err => .done (.error err) s
        | .ok transport => .done (.ok s.transports.next) (s.carrying transport) := by
  cases transfuncs with
  | ibb =>
      simp only [newFromMessage, Ibb.newFromMessage, parse]
      cases Ibb.parseTransport cn.transport <;> rfl
  | s5b =>
      simp only [newFromMessage, S5b.newFromMessage, parse]
      cases cn.transport.getAttribute "sid" <;> rfl

theorem JingleAppFuncs.newFromMessage_eq (s : State) (cn : JingleContent)
    (appfuncs : JingleAppFuncs)
    : appfuncs.newFromMessage env w cn s
      = match FileTransfer.parseOffer env w cn with
        | .error err => .done (.error err) s
        | .ok jft =>
            .done (.ok s.infoList.next) (s.listing jft) := by
  cases appfuncs
  simp only [newFromMessage, FileTransfer.newFromMessage]
  cases FileTransfer.parseOffer env w cn <;> rfl

/-- The contents after one was appended and its description stored by name. -/
def withApp (state : SessionState) (cn : JingleContent) (appfuncs : JingleAppFuncs) (d : FtPtr)
    (content : List SessionContent)
    : List SessionContent :=
  updateFirst cn.name
    (fun sc =>
      { sc with
        xmlnsDesc := some ((cn.description.getAttribute "xmlns").getD "")
        appfuncs := some appfuncs
        description := some d })
    (updateLast (fun sc => { sc with suppliedApp := some (appfuncs, d) })
      (content ++ [.new cn.name state]))

/-- The contents after the transport of the appended one was stored by name, too. -/
def withTrans (cn : JingleContent) (transfuncs : JingleTransportFuncs) (t : TransportPtr)
    (content : List SessionContent)
    : List SessionContent :=
  updateFirst cn.name
    (fun sc =>
      { sc with
        xmlnsTrans := some ((cn.transport.getAttribute "xmlns").getD "")
        transfuncs := some transfuncs
        transport := some t })
    (updateLast (fun sc => { sc with suppliedTrans := some (transfuncs, t) }) content)

/-- The state with the contents of one session rewritten. -/
def State.withContent (s : State) (p : SessionPtr)
    (g : List SessionContent → List SessionContent)
    : State :=
  { s with sessions := s.sessions.modify p (fun js => { js with content := g js.content }) }

theorem modifyContent_eq (s : State) (p : SessionPtr)
    (g : List SessionContent → List SessionContent)
    : modifyContent p g s = .done () (s.withContent p g) :=
  rfl

theorem State.withContent_withContent (s : State) (p : SessionPtr)
    (f g : List SessionContent → List SessionContent)
    : (s.withContent p f).withContent p g = s.withContent p (fun content => g (f content)) := by
  simp only [State.withContent, Pool.modify_modify]

theorem State.withContent_listed {s : State} {p : SessionPtr} {js : JingleSession}
    (listed : s.sessions.get? p = some js) (g : List SessionContent → List SessionContent)
    : (s.withContent p g).sessions.get? p = some { js with content := g js.content } := by
  simp only [State.withContent, Pool.get?_modify_self, listed, Option.map_some]

theorem State.withContent_same {s : State} {p : SessionPtr} {js : JingleSession}
    (listed : s.sessions.get? p = some js) {g : List SessionContent → List SessionContent}
    (same : g js.content = js.content)
    : s.withContent p g = s := by
  unfold State.withContent
  rw [Pool.modify_of_same]
  intro value found
  cases listed.symm.trans found
  rw [same]

theorem State.carrying_withContent (s : State) (transport : Transport) (p : SessionPtr)
    (g : List SessionContent → List SessionContent)
    : (s.withContent p g).carrying transport = (s.carrying transport).withContent p g := by
  cases transport <;> rfl

@[simp]
theorem State.carrying_sessions (s : State) (transport : Transport)
    : (s.carrying transport).sessions = s.sessions := by
  cases transport <;> rfl

@[simp]
theorem State.carrying_transportHandlers (s : State) (transport : Transport)
    : (s.carrying transport).transportHandlers = s.transportHandlers := by
  cases transport <;> rfl

theorem jingleGetAppfuncs_known {s : State} {xmlns : Option String}
    {appfuncs : JingleAppFuncs} (known : jingleGetAppfuncs s xmlns = some appfuncs)
    : xmlns = some (xmlns.getD "") := by
  cases xmlns with
  | none =>
      have nothing : jingleFindApp s none = none := List.find?_eq_none.mpr (by simp)
      rw [jingleGetAppfuncs, nothing] at known
      cases known
  | some xmlns => rfl

theorem jingleGetTransportfuncs_known {s : State} {xmlns : Option String}
    {transfuncs : JingleTransportFuncs}
    (known : jingleGetTransportfuncs s xmlns = some transfuncs)
    : xmlns = some (xmlns.getD "") := by
  cases xmlns with
  | none =>
      have nothing : jingleFindTransport s none = none := List.find?_eq_none.mpr (by simp)
      rw [jingleGetTransportfuncs, nothing] at known
      cases known
  | some xmlns => rfl

section OneContent

variable {s : State} {p : SessionPtr} {js : JingleSession}

theorem sessionAddContent_eq (listed : s.sessions.get? p = some js) (name : String)
    (state : SessionState)
    : sessionAddContent p name state s
      = .done () (s.withContent p (fun content => content ++ [.new name state])) := by
  unfold sessionAddContent
  rw [Prog.bind_done (readSession_done listed), modifyContent_eq]

theorem sessionAddApp_eq (listed : s.sessions.get? p = some js) {name xmlns : String}
    {appfuncs : JingleAppFuncs} (d : FtPtr)
    (named : name ∈ js.content.map SessionContent.name)
    (known : jingleGetAppfuncs s (some xmlns) = some appfuncs)
    : sessionAddApp p name xmlns d s
      = .done () (s.withContent p (updateFirst name (fun sc =>
          { sc with
            xmlnsDesc := some xmlns
            appfuncs := some appfuncs
            description := some d }))) := by
  obtain ⟨sc, found⟩ := Option.isSome_iff_exists.mp (sessionFindSessioncontent_isSome named)
  unfold sessionAddApp
  rw [Prog.bind_done (readSession_done listed), Prog.bind_done (deref_done found), ← known]
  rfl

theorem sessionAddTrans_eq (listed : s.sessions.get? p = some js) {name xmlns : String}
    {transfuncs : JingleTransportFuncs} (t : TransportPtr)
    (named : name ∈ js.content.map SessionContent.name)
    (known : jingleGetTransportfuncs s (some xmlns) = some transfuncs)
    : sessionAddTrans p name xmlns t s
      = .done () (s.withContent p (updateFirst name (fun sc =>
          { sc with
            xmlnsTrans := some xmlns
            transfuncs := some transfuncs
            transport := some t }))) := by
  obtain ⟨sc, found⟩ := Option.isSome_iff_exists.mp (sessionFindSessioncontent_isSome named)
  unfold sessionAddTrans
  rw [Prog.bind_done (readSession_done listed), Prog.bind_done (deref_done found), ← known]
  rfl

theorem addTransFromJinglecontent_eq {cn : JingleContent} {transfuncs : JingleTransportFuncs}
    (listed : s.sessions.get? p = some js) (named : cn.name ∈ js.content.map SessionContent.name)
    (known : jingleGetTransportfuncs s (cn.transport.getAttribute "xmlns") = some transfuncs)
    : addTransFromJinglecontent env w p cn s
      = match transfuncs.parse env w s cn with
        | .error err => .done (some err) (s.withContent p List.dropLast)
        | .ok transport =>
            .done none ((s.carrying transport).withContent p
              (withTrans cn transfuncs s.transports.next)) := by
  have made := transfuncs.newFromMessage_eq env w s cn
  unfold addTransFromJinglecontent
  change (deref .transfuncs (jingleGetTransportfuncs s (cn.transport.getAttribute "xmlns"))
    >>= _) s = _
  rw [Prog.bind_done (deref_done known)]
  cases parsed : transfuncs.parse env w s cn with
  | error err =>
      rw [parsed] at made
      rw [Prog.bind_done made]
      rfl
  | ok transport =>
      rw [parsed] at made
      rw [Prog.bind_done made]
      have listed' : (s.carrying transport).sessions.get? p = some js := by
        rw [State.carrying_sessions]
        exact listed
      have supplied := State.withContent_listed listed'
        (updateLast (fun sc => { sc with suppliedTrans := some (transfuncs, s.transports.next) }))
      have named' : cn.name ∈ (updateLast
          (fun sc => { sc with suppliedTrans := some (transfuncs, s.transports.next) })
          js.content).map
          SessionContent.name := by
        rw [map_updateLast]
        · exact named
        · exact fun _ => rfl
      have known' : jingleGetTransportfuncs ((s.carrying transport).withContent p
          (updateLast
            (fun sc => { sc with suppliedTrans := some (transfuncs, s.transports.next) })))
          (some ((cn.transport.getAttribute "xmlns").getD "")) = some transfuncs := by
        rw [← jingleGetTransportfuncs_known known, ← known]
        simp only [jingleGetTransportfuncs, jingleFindTransport, State.withContent,
          State.carrying_transportHandlers]
      have filled := sessionAddTrans_eq supplied s.transports.next named' known'
      change ((modifyContent p _) >>= _) _ = _
      rw [Prog.bind_done (modifyContent_eq _ _ _), Prog.bind_done filled]
      change Outcome.done none _ = _
      rw [State.withContent_withContent]
      rfl

/-- The description is read first; without a valid one nothing changes at all. -/
theorem sessionAddContentFromJinglecontent_eq {cn : JingleContent} {appfuncs : JingleAppFuncs}
    {transfuncs : JingleTransportFuncs} (listed : s.sessions.get? p = some js)
    (knownApp : jingleGetAppfuncs s (cn.description.getAttribute "xmlns") = some appfuncs)
    (known : jingleGetTransportfuncs s (cn.transport.getAttribute "xmlns") = some transfuncs)
    (state : SessionState)
    : sessionAddContentFromJinglecontent env w p cn state s
      = match FileTransfer.parseOffer env w cn with
        | .error err => .done (some err) s
        | .ok jft =>
            match transfuncs.parse env w s cn with
            | .error err =>
                .done (some err) ((s.listing jft).withContent p
                  (fun content => (withApp state cn appfuncs s.infoList.next content).dropLast))
            | .ok transport =>
                .done none (((s.listing jft).carrying transport).withContent p
                  (fun content => withTrans cn transfuncs s.transports.next
                    (withApp state cn appfuncs s.infoList.next content))) := by
  have made := appfuncs.newFromMessage_eq env w
    (s.withContent p (fun content => content ++ [.new cn.name state])) cn
  unfold sessionAddContentFromJinglecontent
  rw [Prog.bind_done (sessionAddContent_eq listed cn.name state)]
  change (deref .appfuncs (jingleGetAppfuncs s (cn.description.getAttribute "xmlns"))
    >>= _) _ = _
  rw [Prog.bind_done (deref_done knownApp)]
  cases offered : FileTransfer.parseOffer env w cn with
  | error err =>
      rw [offered] at made
      rw [Prog.bind_done made]
      change Outcome.done (some err)
        ((s.withContent p (fun content => content ++ [.new cn.name state])).withContent p
          List.dropLast) = _
      rw [State.withContent_withContent, State.withContent_same listed (by simp)]
  | ok jft =>
      rw [offered] at made
      rw [Prog.bind_done made]
      -- the description is stored under the name before the transport is looked at
      have supplied := State.withContent_listed (s := s.listing jft) listed
        (fun content => updateLast
          (fun sc => { sc with suppliedApp := some (appfuncs, s.infoList.next) })
          (content ++ [.new cn.name state]))
      have named : cn.name ∈ (updateLast
          (fun sc => { sc with suppliedApp := some (appfuncs, s.infoList.next) })
          (js.content ++ [.new cn.name state])).map SessionContent.name := by
        rw [map_updateLast]
        · simp [SessionContent.new]
        · exact fun _ => rfl
      have knownApp' : jingleGetAppfuncs s (some ((cn.description.getAttribute "xmlns").getD ""))
          = some appfuncs := by
        rw [← jingleGetAppfuncs_known knownApp]
        exact knownApp
      have filled := sessionAddApp_eq supplied s.infoList.next named knownApp'
      have listed' := State.withContent_listed (s := s.listing jft) listed
        (withApp state cn appfuncs s.infoList.next)
      have named' : cn.name ∈ (withApp state cn appfuncs s.infoList.next js.content).map
          SessionContent.name := by
        unfold withApp
        rw [map_updateFirst]
        · exact named
        · exact fun _ => rfl
      have finished := addTransFromJinglecontent_eq env w listed' named' known
      rw [State.withContent_withContent] at filled
      have supplying : modifyContent p
          (updateLast (fun sc => { sc with suppliedApp := some (appfuncs, s.infoList.next) }))
          ((s.listing jft).withContent p (fun content => content ++ [.new cn.name state]))
          = .done () ((s.listing jft).withContent p (fun content =>
              updateLast (fun sc => { sc with suppliedApp := some (appfuncs, s.infoList.next) })
                (content ++ [.new cn.name state]))) := by
        rw [modifyContent_eq, State.withContent_withContent]
      refine (Prog.bind_done supplying).trans ?_
      refine (Prog.bind_done filled).trans ?_
      refine finished.trans ?_
      have sameParse : transfuncs.parse env w
          ((s.listing jft).withContent p (withApp state cn appfuncs s.infoList.next)) cn
          = transfuncs.parse env w s cn := by
        cases transfuncs <;> rfl
      rw [sameParse]
      cases transfuncs.parse env w s cn with
      | error err =>
          change Outcome.done (some err) _ = _
          rw [State.withContent_withContent]
      | ok transport =>
          change Outcome.done none _ = _
          rw [State.carrying_withContent, State.withContent_withContent]
          rfl

/-- The content that a valid `<content/>` becomes. -/
def filledContent (cn : JingleContent) (appfuncs : JingleAppFuncs) (d : FtPtr)
    (transfuncs : JingleTransportFuncs) (t : TransportPtr)
    : SessionContent where
  name := cn.name
  state := .pending
  xmlnsDesc := some ((cn.description.getAttribute "xmlns").getD "")
  description := some d
  appfuncs := some appfuncs
  xmlnsTrans := some ((cn.transport.getAttribute "xmlns").getD "")
  transport := some t
  transfuncs := some transfuncs
  suppliedApp := some (appfuncs, d)
  suppliedTrans := some (transfuncs, t)

/-- Under a name that is free the fields go where they belong. -/
theorem withTrans_withApp_fresh {cn : JingleContent} {content : List SessionContent}
    (fresh : cn.name ∉ content.map SessionContent.name) (appfuncs : JingleAppFuncs) (d : FtPtr)
    (transfuncs : JingleTransportFuncs) (t : TransportPtr)
    : withTrans cn transfuncs t (withApp .pending cn appfuncs d content)
      = content ++ [filledContent cn appfuncs d transfuncs t] := by
  rw [withApp, updateLast_append, updateFirst_append_of_fresh fresh]
  simp only [updateFirst, SessionContent.new, if_true]
  rw [withTrans, updateLast_append, updateFirst_append_of_fresh fresh]
  simp [updateFirst, filledContent]

/-- The description of a content that is dropped again stays behind under its name. -/
theorem dropLast_withApp (state : SessionState) (cn : JingleContent)
    (appfuncs : JingleAppFuncs) (d : FtPtr) (content : List SessionContent)
    : (withApp state cn appfuncs d content).dropLast
      = updateFirst cn.name
          (fun sc =>
            { sc with
              xmlnsDesc := some ((cn.description.getAttribute "xmlns").getD "")
              appfuncs := some appfuncs
              description := some d })
          content := by
  rw [withApp, updateLast_append, dropLast_updateFirst_append]

theorem dropLast_withApp_fresh (state : SessionState) {cn : JingleContent}
    {content : List SessionContent}
    (fresh : cn.name ∉ content.map SessionContent.name) (appfuncs : JingleAppFuncs) (d : FtPtr)
    : (withApp state cn appfuncs d content).dropLast = content := by
  rw [dropLast_withApp, updateFirst_of_fresh fresh]

theorem State.withContent_congr {s : State} {p : SessionPtr} {js : JingleSession}
    (listed : s.sessions.get? p = some js) {f g : List SessionContent → List SessionContent}
    (same : f js.content = g js.content)
    : s.withContent p f = s.withContent p g := by
  unfold State.withContent
  rw [Pool.modify_congr]
  intro value found
  cases listed.symm.trans found
  rw [same]

/-- A content whose name is free, or whose description is invalid, leaves the others alone. -/
theorem sessionAddContentFromJinglecontent_fresh {cn : JingleContent}
    {appfuncs : JingleAppFuncs} {transfuncs : JingleTransportFuncs}
    (listed : s.sessions.get? p = some js)
    (knownApp : jingleGetAppfuncs s (cn.description.getAttribute "xmlns") = some appfuncs)
    (known : jingleGetTransportfuncs s (cn.transport.getAttribute "xmlns") = some transfuncs)
    (fresh : (FileTransfer.parseOffer env w cn).isOk = true →
      cn.name ∉ js.content.map SessionContent.name)
    : sessionAddContentFromJinglecontent env w p cn .pending s
      = match FileTransfer.parseOffer env w cn with
        | .error err => .done (some err) s
        | .ok jft =>
            match transfuncs.parse env w s cn with
            | .error err => .done (some err) (s.listing jft)
            | .ok transport =>
                .done none (((s.listing jft).carrying transport).withContent p
                  (fun content => content
                    ++ [filledContent cn appfuncs s.infoList.next transfuncs
                      s.transports.next])) := by
  rw [sessionAddContentFromJinglecontent_eq env w listed knownApp known .pending]
  cases offered : FileTransfer.parseOffer env w cn with
  | error err => rfl
  | ok jft =>
      have free := fresh (by rw [offered]; rfl)
      cases transfuncs.parse env w s cn with
      | error err =>
          have same := State.withContent_same (s := s.listing jft) listed
            (g := fun content => (withApp .pending cn appfuncs s.infoList.next content).dropLast)
            (dropLast_withApp_fresh .pending free appfuncs s.infoList.next)
          simp only [same]
      | ok transport =>
          have listed' : ((s.listing jft).carrying transport).sessions.get? p = some js := by
            rw [State.carrying_sessions]
            exact listed
          have same := State.withContent_congr listed'
            (f := fun content => withTrans cn transfuncs s.transports.next
              (withApp .pending cn appfuncs s.infoList.next content))
            (g := fun content => content
              ++ [filledContent cn appfuncs s.infoList.next transfuncs s.transports.next])
            (withTrans_withApp_fresh free appfuncs s.infoList.next transfuncs s.transports.next)
          simp only [same]

end OneContent

-----------------------------------------------------------------------------------------
-- All contents
-----------------------------------------------------------------------------------------

/-- Whether a transport module takes the `<transport/>` element. -/
def JingleTransportFuncs.accepts (cn : JingleContent) : JingleTransportFuncs → Bool
  | .ibb => (Ibb.parseTransport cn.transport).isOk
  | .s5b => (cn.transport.getAttribute "sid").isSome

/-- Whether both modules of a content are loaded: the others are passed over. -/
def contentProcessed (s : State) (cn : JingleContent) : Bool :=
  (jingleGetAppfuncs s (cn.description.getAttribute "xmlns")).isSome
    && (jingleGetTransportfuncs s (cn.transport.getAttribute "xmlns")).isSome

/-- Whether a content of an invitation stays in the session made for it. -/
def contentKept (s : State) (cn : JingleContent) : Bool :=
  (jingleGetAppfuncs s (cn.description.getAttribute "xmlns")).isSome
    && (FileTransfer.parseOffer env w cn).isOk
    && (jingleGetTransportfuncs s (cn.transport.getAttribute "xmlns")).any
      (fun transfuncs => transfuncs.accepts cn)

/-- Whether a content of an invitation is processed and its description is read, so that a
content of the session gets it.
-/
def contentDescribed (s : State) (cn : JingleContent) : Bool :=
  contentProcessed s cn && (FileTransfer.parseOffer env w cn).isOk

/-- The test with which the loop passes over a content. -/
theorem contentProcessed_eq (s : State) (cn : JingleContent)
    : ((jingleGetAppfuncs s (cn.description.getAttribute "xmlns")).isNone
        || (jingleGetTransportfuncs s (cn.transport.getAttribute "xmlns")).isNone)
      = !contentProcessed s cn := by
  unfold contentProcessed
  cases jingleGetAppfuncs s (cn.description.getAttribute "xmlns") <;>
    cases jingleGetTransportfuncs s (cn.transport.getAttribute "xmlns") <;> rfl

/-- Only a processed content is kept. -/
theorem contentProcessed_of_kept {s : State} {cn : JingleContent}
    (kept : contentKept env w s cn = true)
    : contentProcessed s cn = true := by
  simp only [contentKept, Bool.and_eq_true, Option.any_eq_true] at kept
  obtain ⟨⟨app, _⟩, transfuncs, known, _⟩ := kept
  simp [contentProcessed, app, known]

theorem JingleTransportFuncs.accepts_iff (s : State) (cn : JingleContent)
    (transfuncs : JingleTransportFuncs)
    : transfuncs.accepts cn = (transfuncs.parse env w s cn).isOk := by
  cases transfuncs with
  | ibb =>
      simp only [accepts, parse]
      cases Ibb.parseTransport cn.transport <;> rfl
  | s5b =>
      simp only [accepts, parse]
      cases cn.transport.getAttribute "sid" <;> rfl

@[simp]
theorem length_withApp (state : SessionState) (cn : JingleContent)
    (appfuncs : JingleAppFuncs) (d : FtPtr) (content : List SessionContent)
    : (withApp state cn appfuncs d content).length = content.length + 1 := by
  simp [withApp]

@[simp]
theorem length_withTrans (cn : JingleContent) (transfuncs : JingleTransportFuncs)
    (t : TransportPtr) (content : List SessionContent)
    : (withTrans cn transfuncs t content).length = content.length := by
  simp [withTrans]

@[simp]
theorem State.carrying_appHandlers (s : State) (transport : Transport)
    : (s.carrying transport).appHandlers = s.appHandlers := by
  cases transport <;> rfl

/-- The modules loaded do not change. -/
def SameModules (s s' : State) : Prop :=
  s'.appHandlers = s.appHandlers ∧ s'.transportHandlers = s.transportHandlers

theorem SameModules.processed {s s' : State} (same : SameModules s s') (cn : JingleContent)
    : contentProcessed s' cn = contentProcessed s cn := by
  simp only [contentProcessed, jingleGetAppfuncs, jingleFindApp, jingleGetTransportfuncs,
    jingleFindTransport, same.1, same.2]

theorem SameModules.kept {s s' : State} (same : SameModules s s') (cn : JingleContent)
    : contentKept env w s' cn = contentKept env w s cn := by
  simp only [contentKept, jingleGetAppfuncs, jingleFindApp, jingleGetTransportfuncs,
    jingleFindTransport, same.1, same.2]

/-- A processed content that is kept makes the list longer, any other leaves its length. -/
theorem sessionAddContentFromJinglecontent_length {s : State} {p : SessionPtr}
    {js : JingleSession} {cn : JingleContent} (listed : s.sessions.get? p = some js)
    (processed : contentProcessed s cn = true)
    : ∃ error s' content,
        sessionAddContentFromJinglecontent env w p cn .pending s = .done error s'
        ∧ s'.sessions.get? p = some { js with content } ∧ SameModules s s'
        ∧ content.length = js.content.length + (if contentKept env w s cn then 1 else 0) := by
  simp only [contentProcessed, Bool.and_eq_true, Option.isSome_iff_exists] at processed
  obtain ⟨⟨appfuncs, knownApp⟩, ⟨transfuncs, known⟩⟩ := processed
  have added := sessionAddContentFromJinglecontent_eq env w listed knownApp known .pending
  have accepts := transfuncs.accepts_iff env w s cn
  have kept : contentKept env w s cn
      = ((FileTransfer.parseOffer env w cn).isOk && transfuncs.accepts cn) := by
    simp [contentKept, knownApp, known]
  rw [kept, accepts]
  cases offered : FileTransfer.parseOffer env w cn with
  | error err =>
      rw [offered] at added
      exact ⟨_, _, js.content, added, listed, ⟨rfl, rfl⟩, by simp [Except.isOk, Except.toBool]⟩
  | ok jft =>
      rw [offered] at added
      cases parsed : transfuncs.parse env w s cn with
      | error err =>
          rw [parsed] at added
          refine ⟨_, _, _, added, State.withContent_listed (s := s.listing jft) listed _,
            ⟨rfl, rfl⟩, ?_⟩
          simp [Except.isOk, Except.toBool]
      | ok transport =>
          rw [parsed] at added
          have listed' : ((s.listing jft).carrying transport).sessions.get? p = some js := by
            rw [State.carrying_sessions]
            exact listed
          refine ⟨_, _, _, added, State.withContent_listed listed' _, ⟨?_, ?_⟩, ?_⟩
          · simp [State.withContent, State.listing]
          · simp [State.withContent, State.listing]
          · simp [Except.isOk, Except.toBool]

/-- By induction on the contents: a session that got a content is not left empty. -/
theorem addContents_nonempty {s : State} {p : SessionPtr} {js : JingleSession} (err : ErrVar)
    {contents : List JingleContent} (listed : s.sessions.get? p = some js)
    (kept : js.content ≠ [] ∨ ∃ cn ∈ contents, contentKept env w s cn = true)
    : (addContents env w (some p) err contents).wp
        (fun _ s' => ∃ js', s'.sessions.get? p = some js' ∧ js'.content ≠ [])
        (fun _ _ => True) s := by
  induction contents generalizing s js err with
  | nil =>
      rcases kept with nonempty | ⟨cn, member, _⟩
      · exact ⟨js, listed, nonempty⟩
      · cases member
  | cons cn rest ih =>
      refine Prog.wp_known rfl ?_
      rw [contentProcessed_eq, Prog.wp_ite]
      constructor
      · intro skipped
        refine ih err listed (kept.imp_right ?_)
        rintro ⟨cn', member, keeps⟩
        rcases List.mem_cons.mp member with rfl | member
        · simp [contentProcessed_of_kept env w keeps] at skipped
        · exact ⟨cn', member, keeps⟩
      · intro processed
        have processed' : contentProcessed s cn = true := by simpa using processed
        refine Prog.wp_known rfl ?_
        obtain ⟨error, s', content, added, listed', same, length⟩ :=
          sessionAddContentFromJinglecontent_length env w listed processed'
        refine Prog.wp_known added ?_
        refine Prog.wp_cut (fun _ s'' => s'' = s') ?_ ?_
        · cases err.propagate error <;> trivial
        · rintro err' _ rfl
          refine ih err' listed' ?_
          rcases kept with nonempty | ⟨cn', member, keeps⟩
          · have before := List.length_pos_iff.mpr nonempty
            have after : 0 < content.length := by omega
            exact Or.inl (List.length_pos_iff.mp after)
          · rcases List.mem_cons.mp member with rfl | member
            · have after : 0 < content.length := by simp [length, keeps]
              exact Or.inl (List.length_pos_iff.mp after)
            · exact Or.inr ⟨cn', member, by rw [same.kept]; exact keeps⟩

end McabberJingle
