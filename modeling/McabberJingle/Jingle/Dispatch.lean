import McabberJingle.FileTransfer.Flush
import McabberJingle.Jingle.ActionHandlers

/-! The entry points: jingle.c's IQ handler, ack handler, timeout checker and event callback,
ibb.c's IQ handler, and the commands of filetransfer.c.
-/

namespace McabberJingle

open Program

variable (env : Env) (w : World)

inductive LmHandlerResult where
  | removeMessage | allowMoreHandlers
  deriving DecidableEq

-----------------------------------------------------------------------------------------
-- Incoming IQs
-----------------------------------------------------------------------------------------

/-- `jingle_action_list[action].handler`. -/
def actionHandler : JingleAction → Option (JingleNode → Run JingleNode)
  | .sessionAccept => some (handleSessionAccept env)
  | .sessionInfo => some handleSessionInfo
  | .sessionInitiate => some (handleSessionInitiate env w)
  | .sessionTerminate => some (handleSessionTerminate env w)
  | .transportInfo => some handleTransportInfo
  | _ => none

/-- `jingle_free_jinglenode`: the content list is freed here, for the second time if
`check_contents` did so already.
-/
def jingleFreeJinglenode (jn : JingleNode) : Run Unit :=
  if jn.contentFreed then
    Prog.fail (.useAfterFree .listNode)
  else
    pure ()

def jingleHandleIq (message : LmMessage) : Run LmHandlerResult := do
  if message.subType ≠ .set then
    pure .allowMoreHandlers
  else
    match message.node.getChild "jingle" with
    | none => pure .allowMoreHandlers
    | some jnode =>
        if jnode.getAttribute "xmlns" ≠ some NS_JINGLE then
          pure .removeMessage
        else
          match checkJingle env.checkJidSyntax message jnode with
          | .error _ => do
              jingleSendIqError message "cancel" "bad-request" none
              pure .removeMessage
          | .ok jn =>
              match actionHandler env w jn.action with
              | none => do
                  jingleSendIqError message "cancel" "feature-not-implemented" none
                  jingleFreeJinglenode jn
                  pure .removeMessage
              | some handler => do
                  let jn ← handler jn
                  jingleFreeJinglenode jn
                  pure .removeMessage

/-- `handle_trans_data`, given the decoded payload; a missing payload leaves `len`
uninitialised.
-/
def handleTransData (data : TransportPtr) (data2 : Option (List UInt8)) : Run Unit := do
  match sessioncontentFindByTransport (← Prog.get) data with
  | none => pure ()
  | some sc => do
      let _ ← deref .appfuncs sc.appfuncs
      let description ← deref .description sc.description
      match data2 with
      | none => Prog.fail .uninitialised
      | some data2 => do
          let _ ← FileTransfer.handleData w description data2

/-- `jingle_ibb_handle_iq`. -/
def jingleIbbHandleIq (message : LmMessage) : Run LmHandlerResult := do
  if message.subType ≠ .set then
    pure .allowMoreHandlers
  else
    match message.node.getChild "data" with
    | none => pure .allowMoreHandlers
    | some dnode =>
        if dnode.getAttribute "xmlns" ≠ some NS_TRANSPORT_IBB then
          pure .allowMoreHandlers
        else
          let sid ← deref .string (dnode.getAttribute "sid")
          match Ibb.lookup (← Prog.get) sid with
          | none => pure .allowMoreHandlers
          | some jibb2 => do
              jingleAckIq message
              -- into the packet's own `JingleIBB`, which nobody reads
              let _ := gAsciiStrtoll (dnode.getAttribute "seq")
              handleTransData w jibb2 (dnode.value.map env.base64Decode)
              pure .removeMessage

-----------------------------------------------------------------------------------------
-- Replies and timeouts
-----------------------------------------------------------------------------------------

/-- The part after the subtype test that `jingle_handle_ack_iq_sa` and
`jingle_handle_ack_iq_si` share: describe an error reply, then delete the session.
-/
def deleteOnReply (sess : SessionPtr) (mess : LmMessage) : Run Unit := do
  if mess.subType = .result then
    pure ()
  else
    if mess.subType = .error then
      -- `node->children` of a reply without an `<error/>` child
      let _ ← deref .message (mess.node.getChild "error")
    sessionDelete w sess

/-- `jingle_handle_ack_iq_sa`; `mess` is none on a timeout. -/
def jingleHandleAckIqSa (mess : Option LmMessage) (sess : SessionPtr) : Run Unit :=
  match mess with
  | none => sessionDelete w sess
  | some mess => deleteOnReply w sess mess

/-- `jingle_handle_ack_iq_si`; `mess` is none on a timeout. -/
def jingleHandleAckIqSi (mess : Option LmMessage) (sess : SessionPtr) : Run Unit :=
  match mess with
  | none => sessionDelete w sess
  | some mess => deleteOnReply w sess mess

/-- A callback applied to its `user_data`. -/
def AckCallback.run (mess : Option LmMessage) : AckCallback → Run Unit
  | .sessionInitiate sess => jingleHandleAckIqSi w mess sess
  | .sessionAccept sess => jingleHandleAckIqSa w mess sess
  | .ibbSend sc => jingleIbbHandleAckIqSend env w sc

/-- `ah->callback (type, message, ah->user_data)`, recorded before it runs. -/
def runCallback (ah : AckPtr) (type : JingleAckType) (mess : Option LmMessage)
    : Option AckCallback → Run Unit
  | none => pure ()
  | some callback => do
      Prog.modify (fun s => { s with fired := s.fired ++ [(ah, type)] })
      callback.run env w mess

/-- `ah->...` through the handle's pointer. -/
def readAck (ah : AckPtr) : Run JingleAckHandle := do
  alive .ackHandle ((← Prog.get).ackHandlers.get? ah)

/-- `jingle_handle_ack_iq`, called by loudmouth with the handle it was given; afterwards
loudmouth forgets the request.
-/
def jingleHandleAckIq (ah : AckPtr) (message : LmMessage) : Run Unit := do
  let handle ← readAck ah
  runCallback env w ah .response (some message) handle.callback
  jingleAckHandlerFree ah
  Prog.modify (fun s => { s with idHandlers := s.idHandlers.erase ah })

/-- Where the trailing pointer `prev` of the timeout checker points. -/
inductive Trail where
  /-- at `el` itself, the head of the list -/
  | head
  /-- at a node before `el` that is still linked -/
  | live
  /-- at the freed head of the list -/
  | freed

/-- `ah->timeout != 0 && ah->_inserted + ah->timeout <= now`. -/
def JingleAckHandle.expired (handle : JingleAckHandle) (now : Nat) : Bool :=
  handle.timeout != 0 && decide (handle.inserted + handle.timeout ≤ now)

/-- What the checker does with an expired handle. -/
def expireHandle (ah : AckPtr) (handle : JingleAckHandle) : Run Unit := do
  runCallback env w ah .timeout none handle.callback
  jingleAckHandlerFree ah

/-- The loop of `jingle_ack_timeout_checker` over the handles from `el` on. After freeing
`el` it goes on from `prev`, which is the freed node itself when `el` was the head.
-/
def timeoutLoop (now : Nat) (prev : Trail) : List AckPtr → Run Unit
  | [] => pure ()
  | ah :: rest => do
      let handle ← readAck ah
      if handle.expired now then
        expireHandle env w ah handle
        if (← Prog.get).ackHandlers.cells.isEmpty then
          pure ()
        else
          match prev with
          | .live => timeoutLoop now .live rest
          | .head => do
              if ← readFreedLink w then
                timeoutLoop now .freed rest
          | .freed => do
              -- the freed head still points at `el`, whose handle was just freed
              if ← readFreedLink w then
                let _ ← readAck ah
      else
        timeoutLoop now .live rest

def jingleAckTimeoutChecker : Run Unit := do
  let s ← Prog.get
  timeoutLoop env w s.clock .head (s.ackHandlers.cells.map Prod.fst)

-----------------------------------------------------------------------------------------
-- The user's answer to an invitation
-----------------------------------------------------------------------------------------

inductive EvsContext where
  | timeout | cancel | accept | reject | other
  deriving DecidableEq

/-- `evscallback_jingle`; returning FALSE, it is never called again for this event. -/
def evscallbackJingle (evcontext : EvsContext) (js : SessionPtr) : Run Unit := do
  -- every branch prints `js->from`
  let _ ← readSession js
  match evcontext with
  | .accept => do
      Prog.modify (fun s => { s with accepted := s.accepted ++ [js] })
      jingleSendSessionAccept env js
  | .reject => jingleSendSessionTerminate js "decline"
  | _ => pure ()

-----------------------------------------------------------------------------------------
-- /jft send, /jft retry and /jft flush
-----------------------------------------------------------------------------------------

/-- One entry of the parallel arrays `names`, `datas` and `ns`. -/
structure AppEntry where
  name : String
  data : FtPtr
  ns : String

/-- The loop of `new_session_with_apps`. -/
def addApps (p : SessionPtr) : List AppEntry → Run Unit
  | [] => pure ()
  | entry :: rest => do
      sessionAddContent p entry.name .pending
      let appfuncs := jingleGetAppfuncs (← Prog.get) (some entry.ns)
      modifyContent p (updateLast (fun sc =>
        { sc with suppliedApp := appfuncs.map (fun funcs => (funcs, entry.data)) }))
      sessionAddApp p entry.name entry.ns entry.data
      addApps p rest

/-- `new_session_with_apps`. -/
def newSessionWithApps (recipientjid : String) (entries : List AppEntry) : Run Unit := do
  let p ← sessionNew w.generateSid w.myJid recipientjid .outgoing
  addApps p entries

/-- `jingle_handle_app`. Without a transport it only prints a line. -/
def jingleHandleApp (name xmlnsApp : String) (app : FtPtr) : Run Unit := do
  let sess := sessionFindByApp (← Prog.get) app
  let (xmlns, _) ← jingleTransportForApp xmlnsApp none
  match jingleGetTransportfuncs (← Prog.get) xmlns with
  | none => pure ()
  | some transfuncs => do
      let data ← transfuncs.new w
      let (p, _) ← deref .session sess
      modifyContent p (fun content => content.map (fun sc =>
        if sc.description = some app then { sc with suppliedTrans := some (transfuncs, data) }
        else sc))
      sessionAddTrans p name (xmlns.getD "") data
      jingleSendSessionInitiate env w p

/-- `_jft_send` once it has a transfer. -/
def jftSendTransfer (jft : FtPtr) : Run Unit :=
  match w.currentJid with
  | none => modifyFt jft (fun ft => { ft with state := .error })
  | some currentJid =>
      match w.compatibleRes with
      | none => modifyFt jft (fun ft => { ft with state := .error })
      | some ressource => do
          newSessionWithApps w (currentJid ++ "/" ++ ressource)
            [{ name := "file", data := jft, ns := NS_JINGLE_APP_FT }]
          jingleHandleApp env w "file" NS_JINGLE_APP_FT jft

/-- `/jft send arg`. -/
def jftSend (arg : Option String) : Run Unit := do
  match arg with
  | none => pure ()
  | some name =>
      match ← FileTransfer.new env w name with
      | none => pure ()
      | some jft => jftSendTransfer env w jft

/-- `/jft retry arg`: the search loop always stops at the first transfer of the list. -/
def jftRetry (arg : Option String) : Run Unit := do
  let _ := gAsciiStrtoll arg
  match arg, (← Prog.get).infoList.cells with
  | some _, (jft, _) :: _ => do
      modifyFt jft (fun ft =>
        { ft with
          hash := none
          size := 0
          transmit := 0
          outfile := none
          state := .pending
          desc := none
          md5 := .null })
      jftSendTransfer env w jft
  | _, _ => pure ()

/-- `/jft flush`. A round passes an entry, or deletes one and goes back to the entry before it, so
these are rounds enough.
-/
def jftFlush : Run Unit := do
  let s ← Prog.get
  match loopFor FileTransfer.flushRound (2 * s.infoList.cells.length + 1) (.start s.infoList) with
  | none => Prog.fail .outOfFuel
  | some (.error fault) => Prog.fail fault
  | some (.ok f) => Prog.modify (fun s => { s with infoList := f.list })

end McabberJingle
