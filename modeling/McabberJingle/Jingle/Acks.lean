import McabberJingle.Jingle.Sessions

/-! jingle.c and send.c: handles for the replies to our own IQs, and the IQs that are sent
for a session.
-/

namespace McabberJingle

open Program

variable (env : Env)

/-- `jingle_new_ack_handler`: the handle joins `ack_handlers` with the current time. -/
def jingleNewAckHandler (callback : Option AckCallback) (timeout : Nat) : Run AckPtr := do
  let p := (← Prog.get).ackHandlers.next
  Prog.modify (fun s =>
    { s with ackHandlers := s.ackHandlers.alloc { callback, timeout, inserted := s.clock } })
  pure p

/-- `lm_connection_send_with_reply`: loudmouth keeps the handler for the reply's id whether
or not the stanza could be sent.
-/
def lmConnectionSendWithReply (ident : SessionIdent) (iq : LmMessage) (handler : AckPtr)
    (sendOk : Bool)
    : Run Unit :=
  Prog.modify (fun s =>
    { s with
      idHandlers := s.idHandlers ++ [handler]
      sent := if sendOk then s.sent ++ [.request ident iq] else s.sent })

/-- Send an IQ-set for a session and wait for its reply. -/
def sendRequest (ident : SessionIdent) (iq : LmMessage) (callback : Option AckCallback)
    (timeout : Nat) (sendOk : Bool)
    : Run Unit := do
  let handler ← jingleNewAckHandler callback timeout
  lmConnectionSendWithReply ident iq handler sendOk

/-- The state after an IQ-set with a handle for its reply. -/
def State.requested (s : State) (ident : SessionIdent) (iq : LmMessage)
    (callback : Option AckCallback) (timeout : Nat) (sendOk : Bool)
    : State :=
  { s with
    ackHandlers := s.ackHandlers.alloc { callback, timeout, inserted := s.clock }
    idHandlers := s.idHandlers ++ [s.ackHandlers.next]
    sent := if sendOk then s.sent ++ [.request ident iq] else s.sent }

/-- What `sendRequest` leaves behind, as one change of the state. -/
theorem sendRequest_done {s : State} (ident : SessionIdent) (iq : LmMessage)
    (callback : Option AckCallback) (timeout : Nat) (sendOk : Bool)
    : sendRequest ident iq callback timeout sendOk s
      = .done () (s.requested ident iq callback timeout sendOk) :=
  rfl

/-- `jingle_ack_handler_free`: only our own list forgets the handle. -/
def jingleAckHandlerFree (ah : AckPtr) : Run Unit :=
  Prog.modify (fun s => { s with ackHandlers := s.ackHandlers.erase ah })

def sendReply (query answer : LmMessage) : Run Unit :=
  Prog.modify (fun s => { s with sent := s.sent ++ [.reply query answer] })

/-- The answer to an incoming IQ, with that IQ. -/
def Sent.answer? : Sent → Option (LmMessage × LmMessage)
  | .reply query answer => some (query, answer)
  | .request _ _ => none

/-- All answers to incoming IQs so far. -/
def State.replies (s : State) : List (LmMessage × LmMessage) := s.sent.filterMap Sent.answer?

theorem State.replies_requested (s : State) (ident : SessionIdent) (iq : LmMessage)
    (callback : Option AckCallback) (timeout : Nat) (sendOk : Bool)
    : (s.requested ident iq callback timeout sendOk).replies = s.replies := by
  cases sendOk with
  | false => rfl
  | true => simp [State.replies, State.requested, Sent.answer?]

/-- The state after an IQ was answered. -/
def State.replied (s : State) (query answer : LmMessage) : State :=
  { s with sent := s.sent ++ [.reply query answer] }

@[simp]
theorem State.replies_replied (s : State) (query answer : LmMessage)
    : (s.replied query answer).replies = s.replies ++ [(query, answer)] := by
  simp [State.replies, State.replied, Sent.answer?]

/-- `jingle_ack_iq`. -/
def jingleAckIq (m : LmMessage) : Run Unit :=
  sendReply m (m.newIqFromQuery .result)

/-- `jingle_new_iq_error`. -/
def jingleNewIqError (m : LmMessage) (errtype cond : String) (jinglecond : Option String)
    : LmMessage :=
  let err := element "error" [("type", errtype)] [element cond [("xmlns", NS_XMPP_STANZAS)] []]
  let err :=
    match jinglecond with
    | none => err
    | some jinglecond => err.addChild (element jinglecond [("xmlns", NS_JINGLE_ERRORS)] [])
  (m.newIqFromQuery .error).addChild err

/-- `jingle_send_iq_error`. -/
def jingleSendIqError (m : LmMessage) (errtype cond : String) (jinglecond : Option String)
    : Run Unit :=
  sendReply m (jingleNewIqError m errtype cond jinglecond)

/-- The stanza of `jingle_send_session_terminate`. It always goes to `js->to`. -/
def sessionTerminateIq (js : JingleSession) (reason : String) : LmMessage :=
  (LmMessage.newWithSubType (some js.toJid) .set).addChild
    (element "jingle"
      [("xmlns", NS_JINGLE), ("action", "session-terminate"), ("sid", js.sid)]
      [element "reason" [] [element reason [] []]])

def jingleSendSessionTerminate (p : SessionPtr) (reason : String) : Run Unit := do
  let js ← readSession p
  sendRequest (js.ident p) (sessionTerminateIq js reason) none 0 true

def jingleSendSessionAccept (p : SessionPtr) : Run Unit := do
  let js ← readSession p
  let mess ← lmMessageFromJinglesession env js .sessionAccept
  sendRequest (js.ident p) mess (some (.sessionAccept p)) 60 true

/-- The message of `jingle_send_session_initiate`: the initiator is added afterwards. -/
def setInitiator (mess : LmMessage) (initiator : String) : LmMessage :=
  { mess with
    node := { mess.node with
      children := mess.node.children.map (fun child =>
        if child.name = "jingle" then child.setAttribute "initiator" initiator else child) } }

/-- `jingle_send_session_initiate`: if the stanza cannot be sent the session is deleted, but
the handle that was made for its reply stays.
-/
def jingleSendSessionInitiate (w : World) (p : SessionPtr) : Run Unit := do
  let js ← readSession p
  let mess ← lmMessageFromJinglesession env js .sessionInitiate
  sendRequest (js.ident p) (setInitiator mess js.fromJid) (some (.sessionInitiate p)) 60
    w.sendOk
  if w.sendOk then
    pure ()
  else
    sessionDelete w p

end McabberJingle
