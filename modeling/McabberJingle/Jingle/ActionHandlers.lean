import McabberJingle.Transfer.Sender

/-! action-handlers.c: what each Jingle action does. -/

namespace McabberJingle

open Program

variable (env : Env) (w : World)

-----------------------------------------------------------------------------------------
-- session-initiate
-----------------------------------------------------------------------------------------

/-- The variable `err` of `handle_session_initiate`: NULL, an error, or an error that was
freed without resetting the pointer.
-/
inductive ErrVar where
  | null | set | dangling
  deriving DecidableEq

/-- `g_propagate_error (&err, error)`: an error that is there already is kept. -/
def ErrVar.propagate (err : ErrVar) : Option GError → ErrVar
  | none => err
  | some _ =>
      match err with
      | .null => .set
      | err => err

/-- `err != NULL || sc == NULL`: print the error and free it. -/
def reportError : ErrVar → Run ErrVar
  | .null => pure .null
  | .set => pure .dangling
  | .dangling => Prog.fail (.useAfterFree .gerror)

/-- The loop of `handle_session_initiate` over the contents of the invitation. `sess` is
NULL when the stanza has no `to`.
-/
def addContents (sess : Option SessionPtr) : ErrVar → List JingleContent → Run Unit
  | _, [] => pure ()
  | err, cn :: rest => do
      let s ← Prog.get
      if (jingleGetAppfuncs s (cn.description.getAttribute "xmlns")).isNone
          || (jingleGetTransportfuncs s (cn.transport.getAttribute "xmlns")).isNone then
        addContents sess err rest
      else
        let p ← deref .session sess
        let error ← sessionAddContentFromJinglecontent env w p cn .pending
        let err ← reportError (err.propagate error)
        addContents sess err rest

/-- The loop that shows the contents to the user. -/
def showContents : List SessionContent → Run Unit
  | [] => pure ()
  | sc :: rest => do
      let _ ← deref .appfuncs sc.appfuncs
      FileTransfer.info (← deref .description sc.description)
      let transfuncs ← deref .transfuncs sc.transfuncs
      transfuncs.info (← deref .transport sc.transport)
      showContents rest

/-- Ask the user; `evs_new` keeps the session pointer for the answer. -/
def evsNew (p : SessionPtr) : Run Unit :=
  if w.evsNew then
    Prog.modify (fun s => { s with events := s.events.alloc p })
  else
    pure ()

/-- `handle_session_initiate` once the session is there, or NULL. -/
def fillSession (sess : Option SessionPtr) (jn : JingleNode) (err : Option GError)
    : Run Unit := do
  addContents env w sess (if err.isSome then .set else .null) jn.content
  let p ← deref .session sess
  let js ← readSession p
  if js.content.isEmpty then
    jingleSendSessionTerminate p "unsupported-applications"
    sessionDelete w p
  else
    showContents js.content
    evsNew w p

/-- `handle_session_initiate` after the checks: create the session and fill it. -/
def createSession (jn : JingleNode) (err : Option GError) : Run Unit := do
  jingleAckIq jn.message
  let sess ← sessionNewFromJinglenode jn
  fillSession env w sess jn err

def validDisposition (cn : JingleContent) : Bool :=
  cn.disposition == none || cn.disposition == some "session"

/-- `handle_session_initiate`; the node is returned with what `check_contents` put in it. -/
def handleSessionInitiate (jn : JingleNode) : Run JingleNode := do
  -- `jidtodisp` scans a copy of the sender, which may be missing
  let sender ← deref .string jn.message.getFrom
  if w.rosterFind (env.jidtodisp sender) = false then
    jingleSendIqError jn.message "cancel" "service-unavailable" none
    pure jn
  else
    let checked := checkContents jn
    if checked.ok = false then
      let _ ← deref .gerror checked.err
      jingleSendIqError jn.message "cancel" "bad-request" none
      pure checked.jn
    else if checked.jn.content.length < 1 then
      jingleSendIqError jn.message "cancel" "bad-request" none
      pure checked.jn
    else if checked.jn.content.any validDisposition = false then
      jingleSendIqError jn.message "cancel" "bad-request" none
      pure checked.jn
    else if (sessionFind (← Prog.get) jn).isSome then
      jingleSendIqError jn.message "cancel" "unexpected-request" (some "out-of-order")
      pure checked.jn
    else
      createSession env w checked.jn checked.err
      pure checked.jn

-----------------------------------------------------------------------------------------
-- session-info, session-accept, session-terminate and transport-info
-----------------------------------------------------------------------------------------

/-- The loop of `handle_session_info`: whether some handler's status tested as true. The
status HANDLED is 0.
-/
def offerInfo (child : LmMessageNode) : List SessionContent → Run Bool
  | [] => pure false
  | sc :: rest => do
      let _ ← deref .appfuncs sc.appfuncs
      let description ← deref .description sc.description
      let status ← FileTransfer.handle .sessionInfo description child
      if status.toNat ≠ 0 then
        pure true
      else
        offerInfo child rest

def handleSessionInfo (jn : JingleNode) : Run JingleNode := do
  match sessionFind (← Prog.get) jn with
  | none => do
      jingleSendIqError jn.message "cancel" "item-not-found" (some "unknown-session")
      pure jn
  | some (_, sess) =>
      match jn.node.children with
      | [] => do
          jingleAckIq jn.message
          pure jn
      | child :: _ => do
          if ← offerInfo child sess.content then
            jingleAckIq jn.message
          else
            jingleSendIqError jn.message "modify" "feature-not-implemented"
              (some "unsupported-info")
          pure jn

/-- `transfuncs->handle (...)`, recorded before it runs. -/
def runHandle (transfuncs : JingleTransportFuncs) (action : JingleAction) (data : TransportPtr)
    (node : LmMessageNode)
    : Run JingleHandleStatus := do
  Prog.modify (fun s => { s with handles := s.handles ++ [(data, node)] })
  transfuncs.handle env action data node

/-- The state with one more run of a transport's `handle` recorded. -/
def State.handling (s : State) (t : TransportPtr) (node : LmMessageNode) : State :=
  { s with handles := s.handles ++ [(t, node)] }

theorem runHandle_eq (transfuncs : JingleTransportFuncs) (action : JingleAction)
    (t : TransportPtr) (node : LmMessageNode) (s : State)
    : runHandle env transfuncs action t node s
      = transfuncs.handle env action t node (s.handling t node) :=
  rfl

/-- The loop of `handle_session_accept`; each `init` is recorded before it runs. -/
def acceptContents (p : SessionPtr) : List JingleContent → Run Unit
  | [] => pure ()
  | jc :: rest => do
      match sessionFindSessioncontent (← readSession p) jc.name with
      | none => acceptContents p rest
      | some sc => do
          sessionChangestateSessioncontent p jc.name .active
          let transfuncs ← deref .transfuncs sc.transfuncs
          let transport ← deref .transport sc.transport
          let _ ← runHandle env transfuncs .sessionAccept transport jc.transport
          let sc2 : SessionContentRef := { owner := p, name := jc.name }
          Prog.modify (fun s => { s with inits := s.inits ++ [(sc2, transport)] })
          transfuncs.init sc2 transport
          acceptContents p rest

def handleSessionAccept (jn : JingleNode) : Run JingleNode := do
  match sessionFindBySid (← Prog.get) jn.sid jn.message.getFrom with
  | none => do
      jingleSendIqError jn.message "cancel" "item-not-found" (some "unknown-session")
      pure jn
  | some (p, _) => do
      let checked := checkContents jn
      if checked.ok = false then
        let _ ← deref .gerror checked.err
        jingleSendIqError jn.message "cancel" "bad-request" none
        pure checked.jn
      else
        jingleAckIq jn.message
        acceptContents env p checked.jn.content
        pure checked.jn

/-- `handle_transport_initialize`, which a transport calls for a `session_content` that its
`init` was given; the `start` is recorded before it runs. The failure branch calls a function
`gfree` that does not exist.
-/
def handleTransportInitialize (correct : Bool) (sc2 : SessionContentRef) : Run Unit := do
  let (p, sess) ← deref .session (← sessionFindByRef sc2)
  let sc ← deref .content (sessionFindSessioncontent sess sc2.name)
  if correct then
    let _ ← deref .appfuncs sc.appfuncs
    Prog.modify (fun s => { s with starts := s.starts ++ [sc2] })
    ftStart env w sc2
  else
    let _ ← sessionRemoveSessioncontent p sc.name
    Prog.fail .undefinedSymbol

/-- The loop of `handle_session_terminate`: stop the content when the sender is spelled
exactly as in the session, unlink it, and follow the `next` of the unlinked node.
-/
def terminateContents (p : SessionPtr) (sender : Option String)
    : List SessionContent → Run Unit
  | [] => pure ()
  | sc :: rest => do
      let js ← readSession p
      if sender = some js.recipient then
        let _ ← deref .appfuncs sc.appfuncs
        FileTransfer.stop env w (← deref .description sc.description)
      let _ ← sessionRemoveSessioncontent p sc.name
      if ← readFreedLink w then
        terminateContents p sender rest

def handleSessionTerminate (jn : JingleNode) : Run JingleNode := do
  match sessionFind (← Prog.get) jn with
  | none => do
      jingleSendIqError jn.message "cancel" "item-not-found" (some "unknown-session")
      pure jn
  | some (p, sess) => do
      terminateContents env w p jn.message.getFrom sess.content
      sessionDelete w p
      jingleAckIq jn.message
      Prog.modify (fun s => { s with closedByPeer := s.closedByPeer ++ [p] })
      pure jn

/-- `handle_transport_info`: nothing has filled `jn->content` here, and the content's
application is asked, with the transport's object.
-/
def handleTransportInfo (jn : JingleNode) : Run JingleNode := do
  match sessionFind (← Prog.get) jn with
  | none => do
      jingleSendIqError jn.message "cancel" "item-not-found" (some "unknown-session")
      pure jn
  | some (_, sess) =>
      match jn.content with
      | [] => do
          jingleSendIqError jn.message "modify" "bad-request" none
          pure jn
      | jc :: _ =>
          match sessionFindSessioncontent sess jc.name with
          | none => do
              jingleSendIqError jn.message "modify" "bad-request" none
              pure jn
          | some sc => do
              let _ ← deref .appfuncs sc.appfuncs
              let transport ← deref .transport sc.transport
              let _ ← FileTransfer.handle .transportInfo transport jc.transport
              pure jn

end McabberJingle
