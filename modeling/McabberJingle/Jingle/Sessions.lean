import McabberJingle.FileTransfer.Data
import McabberJingle.Ibb.Transport
import McabberJingle.S5b.Transport
import McabberJingle.Jingle.Register

/-! sessions.c: the session list, its lookups, and the contents of a session. -/

namespace McabberJingle

open Program

variable (env : Env) (w : World)

-----------------------------------------------------------------------------------------
-- Function tables
-----------------------------------------------------------------------------------------

def JingleAppFuncs.newFromMessage (cn : JingleContent)
    : JingleAppFuncs → Run (Except GError FtPtr)
  | .fileTransfer => FileTransfer.newFromMessage env w cn

def JingleTransportFuncs.newFromMessage (cn : JingleContent)
    : JingleTransportFuncs → Run (Except GError TransportPtr)
  | .ibb => Ibb.newFromMessage cn
  | .s5b => S5b.newFromMessage env w cn

def JingleTransportFuncs.new : JingleTransportFuncs → Run TransportPtr
  | .ibb => Ibb.new w
  | .s5b => S5b.new w

def JingleTransportFuncs.handle (action : JingleAction) (data : TransportPtr)
    (node : LmMessageNode)
    : JingleTransportFuncs → Run JingleHandleStatus
  | .ibb => Ibb.handle action data node
  | .s5b => S5b.handle env action data node

def JingleTransportFuncs.tomessage (data : TransportPtr) (node : LmMessageNode)
    : JingleTransportFuncs → Run LmMessageNode
  | .ibb => Ibb.tomessage data node
  | .s5b => S5b.tomessage data node

def JingleTransportFuncs.init (sc : SessionContentRef) (data : TransportPtr)
    : JingleTransportFuncs → Run Unit
  | .ibb => Ibb.init sc data
  | .s5b => S5b.init sc data

/-- `info` of the transport table; the SOCKS5 module prints a fixed text. -/
def JingleTransportFuncs.info (data : TransportPtr) : JingleTransportFuncs → Run Unit
  | .ibb => Ibb.info data
  | .s5b => pure ()

-----------------------------------------------------------------------------------------
-- Sessions
-----------------------------------------------------------------------------------------

/-- `session_new`: a session without contents at the end of the list. -/
def sessionNew (sid fromJid toJid : String) (origin : SessionOrigin) : Run SessionPtr := do
  let p := (← Prog.get).sessions.next
  Prog.modify (fun s =>
    { s with
      sessions := s.sessions.alloc { sid, origin, fromJid, toJid, content := [] } })
  pure p

/-- `session_new_from_jinglenode`, NULL when a JID is missing. -/
def sessionNewFromJinglenode (jn : JingleNode) : Run (Option SessionPtr) :=
  match jn.message.getFrom, jn.message.getTo with
  | some fromJid, some toJid => do
      let p ← sessionNew jn.sid fromJid toJid .incoming
      pure (some p)
  | _, _ => pure none

/-- `session_find_by_sid`: the first session with that sid whose remote party is `from` up
to ASCII case. Listed sessions are never freed, so every session it looks at can be read.
-/
def sessionFindBySid (s : State) (sid : String) (fromJid : Option String)
    : Option (SessionPtr × JingleSession) :=
  s.sessions.cells.find? (fun cell =>
    cell.2.sid == sid && gAsciiStrcaseeq (some cell.2.recipient) fromJid)

/-- `session_find`. -/
def sessionFind (s : State) (jn : JingleNode) : Option (SessionPtr × JingleSession) :=
  sessionFindBySid s jn.sid jn.message.getFrom

/-- `session_find_by_sid (sc->sid, sc->from)`: the borrowed strings are only read when some
session is there to be compared with them.
-/
def sessionFindByRef (sc : SessionContentRef) : Run (Option (SessionPtr × JingleSession)) := do
  let s ← Prog.get
  if s.sessions.cells.isEmpty then
    pure none
  else
    let owner ← readSession sc.owner
    pure (sessionFindBySid s owner.sid (some owner.recipient))

/-- `session_find_by_app`. -/
def sessionFindByApp (s : State) (data : FtPtr) : Option (SessionPtr × JingleSession) :=
  s.sessions.cells.find? (fun cell =>
    cell.2.content.any (fun sc => sc.description == some data))

/-- `sessioncontent_find_by_transport`. -/
def sessioncontentFindByTransport (s : State) (data : TransportPtr)
    : Option SessionContent :=
  s.sessions.cells.findSome? (fun cell =>
    cell.2.content.find? (fun sc => sc.transport == some data))

-----------------------------------------------------------------------------------------
-- Contents
-----------------------------------------------------------------------------------------

/-- Rewrite the first content with a name, as the functions that search by name do. -/
def updateFirst (name : String) (f : SessionContent → SessionContent)
    : List SessionContent → List SessionContent
  | [] => []
  | sc :: rest => if sc.name = name then f sc :: rest else sc :: updateFirst name f rest

/-- Unlink the first content with a name. -/
def removeFirst (name : String) : List SessionContent → List SessionContent
  | [] => []
  | sc :: rest => if sc.name = name then rest else sc :: removeFirst name rest

/-- Rewrite the content that was appended last. -/
def updateLast (f : SessionContent → SessionContent)
    : List SessionContent → List SessionContent
  | [] => []
  | [sc] => [f sc]
  | sc :: rest => sc :: updateLast f rest

/-- `session_find_sessioncontent`. -/
def sessionFindSessioncontent (js : JingleSession) (name : String) : Option SessionContent :=
  js.content.find? (fun sc => sc.name == name)

/-- `g_new0` of a content. -/
def SessionContent.new (name : String) (state : SessionState) : SessionContent where
  name := name
  state := state
  xmlnsDesc := none
  description := none
  appfuncs := none
  xmlnsTrans := none
  transport := none
  transfuncs := none
  suppliedApp := none
  suppliedTrans := none

/-- `session_add_content`. -/
def sessionAddContent (p : SessionPtr) (name : String) (state : SessionState) : Run Unit := do
  let _ ← readSession p
  modifyContent p (fun content => content ++ [.new name state])

/-- `session_add_app`, on the first content with that name. -/
def sessionAddApp (p : SessionPtr) (name xmlns : String) (data : FtPtr) : Run Unit := do
  let _ ← deref .content (sessionFindSessioncontent (← readSession p) name)
  let appfuncs := jingleGetAppfuncs (← Prog.get) (some xmlns)
  modifyContent p (updateFirst name (fun sc =>
    { sc with xmlnsDesc := some xmlns, appfuncs, description := some data }))

/-- `session_add_trans`, on the first content with that name. -/
def sessionAddTrans (p : SessionPtr) (name xmlns : String) (data : TransportPtr)
    : Run Unit := do
  let _ ← deref .content (sessionFindSessioncontent (← readSession p) name)
  let transfuncs := jingleGetTransportfuncs (← Prog.get) (some xmlns)
  modifyContent p (updateFirst name (fun sc =>
    { sc with xmlnsTrans := some xmlns, transfuncs, transport := some data }))

/-- The transport half of `session_add_content_from_jinglecontent`. -/
def addTransFromJinglecontent (p : SessionPtr) (cn : JingleContent) : Run (Option GError) := do
  let xmlns := cn.transport.getAttribute "xmlns"
  let transfuncs ← deref .transfuncs (jingleGetTransportfuncs (← Prog.get) xmlns)
  match ← transfuncs.newFromMessage env w cn with
  | .error err => do
      modifyContent p List.dropLast
      pure (some err)
  | .ok data => do
      modifyContent p (updateLast (fun sc => { sc with suppliedTrans := some (transfuncs, data) }))
      sessionAddTrans p cn.name (xmlns.getD "") data
      pure none

/-- `session_add_content_from_jinglecontent`: none, or the error with the content unlinked
again. The new content is filled by name, and dropped as the object just appended.
-/
def sessionAddContentFromJinglecontent (p : SessionPtr) (cn : JingleContent)
    (state : SessionState)
    : Run (Option GError) := do
  sessionAddContent p cn.name state
  let xmlns := cn.description.getAttribute "xmlns"
  let appfuncs ← deref .appfuncs (jingleGetAppfuncs (← Prog.get) xmlns)
  match ← appfuncs.newFromMessage env w cn with
  | .error err => do
      modifyContent p List.dropLast
      pure (some err)
  | .ok data => do
      modifyContent p (updateLast (fun sc => { sc with suppliedApp := some (appfuncs, data) }))
      sessionAddApp p cn.name (xmlns.getD "") data
      addTransFromJinglecontent env w p cn

/-- `session_remove_sessioncontent`: the number of contents left, 0 also when there was no
content with that name.
-/
def sessionRemoveSessioncontent (p : SessionPtr) (name : String) : Run Nat := do
  let js ← readSession p
  match sessionFindSessioncontent js name with
  | none => pure 0
  | some _ => do
      modifyContent p (removeFirst name)
      pure (removeFirst name js.content).length

/-- `session_changestate_sessioncontent`. -/
def sessionChangestateSessioncontent (p : SessionPtr) (name : String) (state : SessionState)
    : Run Unit := do
  let _ ← readSession p
  modifyContent p (updateFirst name (fun sc => { sc with state }))

/-- The loop of `session_free`. Each round unlinks and frees the node it stands on, since
that is the first one with its name, and then follows its `next`.
-/
def sessionFreeContents : List SessionContent → Run Unit
  | [] => pure ()
  | _ :: rest => do
      if ← readFreedLink w then
        sessionFreeContents rest
      else
        pure ()

/-- `session_delete`: unlink the session, then free it with its contents. -/
def sessionDelete (p : SessionPtr) : Run Unit := do
  let js ← readSession p
  Prog.modify (fun s => { s with sessions := s.sessions.erase p })
  sessionFreeContents w js.content

-----------------------------------------------------------------------------------------
-- The stanza of a session
-----------------------------------------------------------------------------------------

/-- `lm_insert_sessioncontent`: the `<content/>` element of one content. -/
def lmInsertSessioncontent (content : SessionContent) : Run LmMessageNode := do
  let node := element "content" [("name", content.name)] []
  let transfuncs ← deref .transfuncs content.transfuncs
  let transport ← deref .transport content.transport
  let node ← transfuncs.tomessage transport node
  let _ ← deref .appfuncs content.appfuncs
  let description ← deref .description content.description
  FileTransfer.tomessage env description node

def lmInsertSessioncontents : List SessionContent → Run (List LmMessageNode)
  | [] => pure []
  | content :: rest => do
      let node ← lmInsertSessioncontent env content
      let nodes ← lmInsertSessioncontents rest
      pure (node :: nodes)

/-- The stanza of a session for an action, given its `<content/>` elements. -/
def jinglesessionIq (js : JingleSession) (action : JingleAction)
    (contents : List LmMessageNode)
    : LmMessage :=
  (LmMessage.newWithSubType (some js.recipient) .set).addChild
    (element "jingle" [("xmlns", NS_JINGLE), ("action", action.name), ("sid", js.sid)]
      contents)

/-- `lm_message_from_jinglesession`. -/
def lmMessageFromJinglesession (js : JingleSession) (action : JingleAction)
    : Run LmMessage := do
  let contents ← lmInsertSessioncontents env js.content
  pure (jinglesessionIq js action contents)

end McabberJingle
