import McabberJingle.Jingle.Acks

/-! The sending side of a transfer: filetransfer.c `send` and `start`, sessions.c
`handle_app_data`, ibb.c `send`, `end` and its ack callback, and jingle.c
`handle_trans_next`. They call each other in a circle; each function takes the next one as
a parameter, and `ftSend` ties the knot.
-/

namespace McabberJingle

open Program

variable (env : Env) (w : World)

-----------------------------------------------------------------------------------------
-- ibb.c
-----------------------------------------------------------------------------------------

/-- The stanza of `_send_internal`. -/
def ibbDataIq (recipient : String) (buf : List UInt8) (sid : String) (seq : Nat) : LmMessage :=
  (LmMessage.newWithSubType (some recipient) .set).addChild
    (textElement "data" [("xmlns", NS_TRANSPORT_IBB), ("sid", sid), ("seq", toString seq)]
      (some (env.base64Encode buf)))

/-- `_send_internal`: one data packet, then the next sequence number. -/
def ibbSendInternal (sc : SessionContentRef) (p : SessionPtr) (js : JingleSession)
    (t : TransportPtr) (buf : List UInt8)
    : Run Unit := do
  let jibb ← readIbb t
  let iq := ibbDataIq env js.toJid buf jibb.sid jibb.seq
  sendRequest (js.ident p) iq (some (.ibbSend sc)) 0 true
  Prog.modify (fun s => { s with packets := s.packets ++ [(t, iq)] })
  modifyTransport t (fun _ => .ibb { jibb with seq := jibb.seq + 1 })

/-- Cut one block off the front of the buffer and send it. -/
def ibbSendBlock (sc : SessionContentRef) (p : SessionPtr) (js : JingleSession)
    (t : TransportPtr)
    : Run Unit := do
  let jibb ← readIbb t
  writeIbb t { jibb with buf := jibb.buf.drop jibb.blocksize }
  ibbSendInternal env sc p js t (jibb.buf.take jibb.blocksize)

/-- The buffer of `send` with the new bytes at its end, grown when it is too small. -/
def JingleIBB.push (jibb : JingleIBB) (buf : List UInt8) : JingleIBB :=
  { jibb with
    buf := jibb.buf ++ buf
    sizeBuf := if jibb.sizeBuf ≥ buf.length + jibb.dataleft then jibb.sizeBuf
      else buf.length + jibb.dataleft }

/-- `send` of the IBB table. -/
def ibbSend (handleTransNext : SessionContentRef → Run Unit) (sc : SessionContentRef)
    (t : TransportPtr) (buf : List UInt8)
    : Run Unit := do
  let jibb ← readIbb t
  if jibb.bufFreed then
    Prog.fail (.useAfterFree .buffer)
  else
    let jibb := jibb.push buf
    writeIbb t jibb
    if jibb.dataleft < jibb.blocksize then
      handleTransNext sc
    else
      let (p, js) ← deref .session (← sessionFindByRef sc)
      ibbSendBlock env sc p js t

/-- The last packet of `end`: what is left in the buffer, if anything is. -/
def ibbSendRest (sc : SessionContentRef) (sess : Option (SessionPtr × JingleSession))
    (t : TransportPtr) (jibb : JingleIBB)
    : Run Unit :=
  if jibb.dataleft > 0 then do
    let (p, js) ← deref .session sess
    ibbSendInternal env sc p js t jibb.buf
  else
    pure ()

/-- `g_free (jibb->buf)`, which does nothing to NULL. -/
def Transport.freeBuf : Transport → Transport
  | .ibb jibb => .ibb { jibb with bufFreed := decide (0 < jibb.sizeBuf) }
  | .s5b js5b => .s5b js5b

/-- `end` of the IBB table. -/
def ibbEnd (sc : SessionContentRef) (t : TransportPtr) : Run Unit := do
  let sess ← sessionFindByRef sc
  let jibb ← readIbb t
  if jibb.bufFreed then
    Prog.fail (.useAfterFree .buffer)
  else
    ibbSendRest env sc sess t jibb
    modifyTransport t Transport.freeBuf

-----------------------------------------------------------------------------------------
-- sessions.c and jingle.c
-----------------------------------------------------------------------------------------

/-- `handle_app_data`, with `sid`, `from` and `name` taken from one `session_content`. An
empty `data` is the end of the file.
-/
def handleAppData (handleTransNext : SessionContentRef → Run Unit) (ref : SessionContentRef)
    (data : List UInt8)
    : Run Unit := do
  match ← sessionFindByRef ref with
  | none => pure ()
  | some (p, js) => do
      let sc ← deref .content (sessionFindSessioncontent js ref.name)
      let sc2 : SessionContentRef := { owner := p, name := sc.name }
      match ← deref .transfuncs sc.transfuncs with
      -- `_send` and `end` of the SOCKS5 table are empty
      | .s5b => pure ()
      | .ibb => do
          let transport ← deref .transport sc.transport
          if data = [] then
            ibbEnd env sc2 transport
          else
            ibbSend env handleTransNext sc2 transport data

/-- `handle_trans_next`: ask the application for more. -/
def handleTransNext (appSend : SessionContentRef → Run Unit) (sc2 : SessionContentRef)
    : Run Unit := do
  match ← sessionFindByRef sc2 with
  | none => pure ()
  | some (_, sess) => do
      let sc ← deref .content (sessionFindSessioncontent sess sc2.name)
      let _ ← deref .appfuncs sc.appfuncs
      appSend sc2

-----------------------------------------------------------------------------------------
-- filetransfer.c
-----------------------------------------------------------------------------------------

inductive GIOStatus where
  | error | normal (data : List UInt8) | eof | again

/-- The read loop of `send`: at most ten tries while the channel answers AGAIN. -/
def readChars : Nat → List ReadResult → GIOStatus × List ReadResult
  | _, [] => (.eof, [])
  | _, .error :: rest => (.error, rest)
  | _, .chunk data :: rest => (.normal data.bytes, rest)
  | 0, .again :: rest => (.again, rest)
  | tries + 1, .again :: rest => readChars tries rest

/-- The stanza of `send_hash`. -/
def hashIq (recipient sid : String) (hash : Option String) : LmMessage :=
  (LmMessage.newWithSubType (some recipient) .set).addChild
    (element "jingle" [("xmlns", NS_JINGLE), ("sid", sid), ("action", "session-info")]
      [textElement "hash" [("xmlns", NS_JINGLE_APP_FT_INFO)] hash])

/-- The EOF branch of `send`: flush the transport, announce the hash, drop the content, and
with the last content end the session.
-/
def ftSendEof (handleTransNext : SessionContentRef → Run Unit) (sc : SessionContentRef)
    (p : SessionPtr) (sc2 : SessionContent) (jft : FtPtr)
    : Run Unit := do
  handleAppData env handleTransNext sc []
  let hash ← FileTransfer.checksumGetString env (← readFt jft).md5
  modifyFt jft (fun ft => { ft with hash, state := .ending })
  sessionChangestateSessioncontent p sc2.name .ended
  let sess ← readSession p
  sendRequest (sess.ident p) (hashIq sess.toJid sess.sid hash) none 0 true
  modifyFt jft (fun ft =>
    { ft with
      md5 :=
        match ft.md5 with
        | .null => .null
        | _ => .freed })
  if (← sessionRemoveSessioncontent p sc2.name) = 0 then
    jingleSendSessionTerminate p "success"
    sessionDelete w p

/-- `send` of the application table. -/
def ftSendBody (handleTransNext : SessionContentRef → Run Unit) (sc : SessionContentRef)
    : Run Unit := do
  match ← sessionFindByRef sc with
  | none => pure ()
  | some (p, sess) => do
      let sc2 ← deref .content (sessionFindSessioncontent sess sc.name)
      let jft ← deref .description sc2.description
      let ft ← readFt jft
      if ft.dir ≠ .outgoing then
        pure ()
      else
        match ft.outfile with
        | some (.reading reads) => do
            let (status, reads) := readChars 9 reads
            modifyFt jft (fun ft => { ft with outfile := some (.reading reads) })
            match status with
            | .again => pure ()
            | .error => modifyFt jft (fun ft => { ft with state := .error })
            | .normal data => do
                let md5 ← FileTransfer.checksumUpdate ft.md5 data
                modifyFt jft (fun ft =>
                  { ft with transmit := ft.transmit + data.length, md5 })
                handleAppData env handleTransNext sc data
            | .eof => ftSendEof env w handleTransNext sc p sc2 jft
        -- no channel to read from: GLib returns an error status without an error to print
        | _ => Prog.fail (.nullDeref .gerror)

/-- `send` with the whole circle behind it; each round takes at least one read from a file,
so `fuel` bounds the rounds.
-/
def ftSend : Nat → SessionContentRef → Run Unit
  | 0, _ => Prog.fail .outOfFuel
  | fuel + 1, sc => ftSendBody env w (handleTransNext (ftSend fuel)) sc

/-- Reads that open files may still give. -/
def unreadCount (s : State) : Nat :=
  (s.infoList.values.map (fun ft =>
    match ft.outfile with
    | some (.reading reads) => reads.length
    | _ => 0)).foldr (· + ·) 0

/-- `send` with enough fuel for every file. -/
def ftSendAll (sc : SessionContentRef) : Run Unit := do
  ftSend env w (unreadCount (← Prog.get) + 1) sc

/-- `start` of the application table. -/
def ftStart (sc : SessionContentRef) : Run Unit := do
  match ← sessionFindByRef sc with
  | none => pure ()
  | some (_, sess) => do
      let sc2 ← deref .content (sessionFindSessioncontent sess sc.name)
      let jft ← deref .description sc2.description
      let _ ← readFt jft
      modifyFt jft (fun ft => { ft with state := .starting, md5 := .running [] })
      let _ ← deref .appfuncs sc2.appfuncs
      ftSendAll env w sc

/-- `jingle_ibb_handle_ack_iq_send`: send the next block, or ask for more data. The reply's
subtype is not looked at.
-/
def jingleIbbHandleAckIqSend (sc : SessionContentRef) : Run Unit := do
  match ← sessionFindByRef sc with
  | none => pure ()
  | some (p, sess) => do
      let sc2 ← deref .content (sessionFindSessioncontent sess sc.name)
      let t ← deref .transport sc2.transport
      let jibb ← readIbb t
      if jibb.dataleft > jibb.blocksize then
        if jibb.bufFreed then
          Prog.fail (.useAfterFree .buffer)
        else
          ibbSendBlock env sc p sess t
      else
        handleTransNext (ftSendAll env w) sc

end McabberJingle
