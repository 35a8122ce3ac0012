import McabberJingle.Transfer.Course

/-! What a transfer sends arrives at a second instance: every data packet goes into the file, the
hash into the transfer, and the session-terminate ends both.
-/

namespace McabberJingle

open Program Program.Prog

-----------------------------------------------------------------------------------------
-- Delivery
-----------------------------------------------------------------------------------------

/-- An IQ as the server hands it to the peer: with its sender. -/
def LmMessage.stamped (iq : LmMessage) (fromJid : String) : LmMessage :=
  { iq with node := iq.node.setAttribute "from" fromJid }

/-- The handlers of the modules, until one takes the IQ. -/
def handleIq (env : Env) (w : World) (message : LmMessage) : Run Unit := do
  if (← jingleHandleIq env w message) = .allowMoreHandlers then
    let _ ← jingleIbbHandleIq env w message

/-- IQs from one sender arrive one after the other. -/
def deliver (env : Env) (fromJid : String) : List (World × LmMessage) → Run Unit
  | [] => pure ()
  | (w, iq) :: rest => do
      handleIq env w (iq.stamped fromJid)
      deliver env fromJid rest

section Stamped

variable (iq : LmMessage) (fromJid : String)

@[simp]
theorem LmMessage.getFrom_stamped : (iq.stamped fromJid).getFrom = some fromJid :=
  LmMessageNode.getAttribute_setAttribute ..

@[simp]
theorem LmMessage.getChild_stamped (name : String)
    : (iq.stamped fromJid).node.getChild name = iq.node.getChild name := by
  unfold LmMessageNode.getChild
  rw [LmMessage.stamped, LmMessageNode.children_setAttribute]

end Stamped

/-- By induction on what arrives first. -/
theorem deliver_append (env : Env) (fromJid : String) (first rest : List (World × LmMessage))
    : deliver env fromJid (first ++ rest)
      = (do
          deliver env fromJid first
          deliver env fromJid rest : Run Unit) := by
  induction first with
  | nil =>
      funext s
      rfl
  | cons delivery first ih =>
      obtain ⟨w, iq⟩ := delivery
      rw [List.cons_append, deliver, ih, deliver]
      exact bind_bind _ _ _

-----------------------------------------------------------------------------------------
-- The second instance
-----------------------------------------------------------------------------------------

/-- An incoming session of a second instance with the content that the transfer sends, of which
nothing has arrived.
-/
structure AwaitedTransfer (x : ReadyTransfer) where
  state : State
  q : SessionPtr
  js : JingleSession
  sc : SessionContent
  d : FtPtr
  t : TransportPtr
  ft : JingleFT
  conveys : Conveys state q js sc d t
  origin : js.origin = .incoming
  sid : js.sid = x.js.sid
  sender : js.fromJid = x.js.fromJid
  stream : Ibb.lookup state x.jibb.sid = some t
  carrier : sessioncontentFindByTransport state t = some sc
  transfer : state.infoList.get? d = some ft
  incoming : ft.dir = .incoming
  size : ft.size = x.ft.size
  uncounted : ft.transmit = 0
  closed : ft.outfile = none
  unsummed : ft.md5 = .null

section Awaited

variable {env : Env} {w : World} {x : ReadyTransfer} {y : AwaitedTransfer x} {r : State}
  {pieces : List (List UInt8)}

/-- The transfer after some pieces arrived. -/
def AwaitedTransfer.fed (y : AwaitedTransfer x) (pieces : List (List UInt8)) : JingleFT :=
  if pieces = [] then
    y.ft
  else
    { y.ft with
      md5 := .running pieces.flatten
      outfile := some (.writing [])
      state := .starting
      transmit := pieces.flatten.length }

/-- What the pieces do on disk: the first of them creates the file. -/
def AwaitedTransfer.stored (y : AwaitedTransfer x) (pieces : List (List UInt8)) : List DiskOp :=
  if pieces = [] then [] else .created y.d y.ft.name :: pieces.map (.wrote y.d)

/-- The state after some pieces arrived. -/
structure Fed (y : AwaitedTransfer x) (r : State) (pieces : List (List UInt8)) : Prop where
  sessions : r.sessions = y.state.sessions
  jingleIBBs : r.jingleIBBs = y.state.jingleIBBs
  transfer : r.infoList.get? y.d = some (y.fed pieces)
  disk : r.disk = y.state.disk ++ y.stored pieces
  stopReports : r.stopReports = y.state.stopReports

theorem AwaitedTransfer.fed_nil (y : AwaitedTransfer x) : Fed y y.state [] :=
  ⟨rfl, rfl, y.transfer, (List.append_nil _).symm, rfl⟩

/-- The calls that write a piece succeed. -/
structure Writes (w : World) (length : Nat) : Prop where
  opened : w.write.opened = true
  encoded : w.write.encoded = true
  status : w.write.status = true
  flushed : w.write.flushed = true
  written : w.write.written = length

/-- A piece that is written goes to the end of the file. -/
theorem received_piece (y : AwaitedTransfer x) (pieces : List (List UInt8))
    {block : List UInt8} (writes : Writes w block.length)
    : (received w y.d block (y.fed pieces)).ft = y.fed (pieces ++ [block])
      ∧ y.stored pieces ++ (received w y.d block (y.fed pieces)).ops
        = y.stored (pieces ++ [block]) := by
  have more : pieces ++ [block] ≠ [] := by simp
  cases pieces with
  | nil =>
      simp [received, receivedWrite, AwaitedTransfer.fed, AwaitedTransfer.stored, y.closed,
        y.unsummed, y.uncounted, GChecksum.seen, JingleFT.waiting, FileTransfer.reaching,
        writes.opened, writes.encoded, writes.status, writes.flushed, writes.written]
  | cons first rest =>
      simp [received, receivedWrite, AwaitedTransfer.fed, AwaitedTransfer.stored, GChecksum.seen,
        JingleFT.waiting, FileTransfer.reaching, writes.status, writes.flushed, writes.written,
        Nat.add_assoc]

theorem Fed.streams (fed : Fed y r pieces) : Streams r x.jibb.sid y.d (y.fed pieces) where
  content := by
    refine ⟨y.t, y.sc, ?_, ?_, ?_, y.conveys.description⟩
    · rw [Ibb.lookup, fed.jingleIBBs]
      exact y.stream
    · rw [sessioncontentFindByTransport, fed.sessions]
      exact y.carrier
    · rw [y.conveys.appfuncs]
      rfl
  there := fed.transfer
  incoming := by
    unfold AwaitedTransfer.fed
    split <;> exact y.incoming
  alive := by
    unfold AwaitedTransfer.fed
    split
    · rw [y.unsummed]
      simp
    · simp

/-- A data packet of the stream, stamped with its sender. -/
theorem ibbData_ibbDataIq (env : Env) (recipient : String) (block : List UInt8) (sid : String)
    (seq : Nat) (fromJid : String)
    : ibbData sid ((ibbDataIq env recipient block sid seq).stamped fromJid)
      = some (textElement "data" [("xmlns", NS_TRANSPORT_IBB), ("sid", sid),
          ("seq", toString seq)] (some (env.base64Encode block))) := by
  refine ibbData_eq_some.mpr ⟨rfl, ?_, rfl, rfl⟩
  rw [LmMessage.getChild_stamped]
  rfl

/-- A packet without a `<jingle/>` is left to the other handler. -/
theorem handleIq_data {message : LmMessage} (isSet : message.subType = .set)
    (other : message.node.getChild "jingle" = none)
    : handleIq env w message r
      = (do
          let _ ← jingleIbbHandleIq env w message : Run Unit) r := by
  have left : jingleHandleIq env w message r = .done .allowMoreHandlers r := by
    rw [jingleHandleIq, if_neg (not_not.mpr isSet), other]
    rfl
  rw [handleIq, bind_done left]
  rfl

/-- One data packet. -/
theorem Fed.packet (fed : Fed y r pieces) {block : List UInt8}
    (inverse : env.base64Decode (env.base64Encode block) = block)
    (writes : Writes w block.length) (recipient : String) (seq : Nat) (fromJid : String)
    : ∃ r', handleIq env w ((ibbDataIq env recipient block x.jibb.sid seq).stamped fromJid) r
          = .done () r'
        ∧ Fed y r' (pieces ++ [block]) := by
  let message := (ibbDataIq env recipient block x.jibb.sid seq).stamped fromJid
  have data := ibbData_ibbDataIq env recipient block x.jibb.sid seq fromJid
  have hands := jingleIbbHandleIq_hands env w fed.streams data rfl
  rw [inverse] at hands
  obtain ⟨same, stored⟩ := received_piece y pieces writes
  have other : message.node.getChild "jingle" = none := by
    rw [LmMessage.getChild_stamped]
    rfl
  refine ⟨_, (handleIq_data rfl other).trans (bind_done hands), ?_⟩
  exact {
    sessions := fed.sessions
    jingleIBBs := fed.jingleIBBs
    transfer := by
      rw [same]
      exact State.storing_get? (s := r.replied _ _) fed.transfer _ _
    disk := by
      rw [← stored, ← List.append_assoc, ← fed.disk]
      rfl
    stopReports := fed.stopReports
  }

/-- By induction on the packets, which arrive with worlds that write them. -/
theorem Fed.packets (fed : Fed y r pieces) (blocks : List (List UInt8))
    (inverse : ∀ bytes, env.base64Decode (env.base64Encode bytes) = bytes) {recipient : String}
    {seq : Nat} (fromJid : String) {deliveries : List (World × LmMessage)}
    (all : deliveries.map Prod.snd = dataPackets env recipient x.jibb.sid seq blocks)
    (writes : List.Forall₂ (fun delivery block => Writes delivery.1 block.length) deliveries blocks)
    : ∃ r', deliver env fromJid deliveries r = .done () r' ∧ Fed y r' (pieces ++ blocks) := by
  induction blocks generalizing r pieces seq deliveries with
  | nil =>
      cases writes
      exact ⟨r, rfl, by rwa [List.append_nil]⟩
  | cons block rest ih =>
      cases writes with
      | @cons delivery _ later _ first writes =>
          obtain ⟨w, iq⟩ := delivery
          rw [dataPackets, List.map_cons, List.cons.injEq] at all
          obtain ⟨rfl, all⟩ := all
          obtain ⟨r₁, handled, fed₁⟩ := fed.packet (inverse block) first recipient seq fromJid
          obtain ⟨r₂, delivered, fed₂⟩ := ih fed₁ all writes
          refine ⟨r₂, ?_, ?_⟩
          · rw [deliver, bind_done handled, delivered]
          · rwa [List.append_assoc, List.singleton_append] at fed₂

-----------------------------------------------------------------------------------------
-- The hash and the end
-----------------------------------------------------------------------------------------

/-- The session as the second instance still has it. -/
theorem Fed.conveys (fed : Fed y r pieces) : Conveys r y.q y.js y.sc y.d y.t :=
  y.conveys.congr fed.sessions

/-- The session is addressed with its peer spelled as it has it. -/
theorem AwaitedTransfer.peer (y : AwaitedTransfer x) : y.js.recipient = x.js.fromJid := by
  rw [JingleSession.recipient, y.origin]
  exact y.sender

/-- A request from the sender finds the session. -/
theorem AwaitedTransfer.finds (y : AwaitedTransfer x) {jn : JingleNode}
    (conveys : Conveys r y.q y.js y.sc y.d y.t) (sid : jn.sid = x.js.sid)
    (sender : jn.message.getFrom = some x.js.fromJid)
    : sessionFind r jn = some (y.q, y.js) := by
  have found := conveys.found
  rw [y.sid, y.peer] at found
  rw [sessionFind, sid, sender, found]

/-- A `<jingle/>` request as the peer parses it. -/
theorem jingleRequest_stamped (env : Env) (recipient fromJid sid action : String)
    (jnode : LmMessageNode) (name : jnode.name = "jingle")
    (xmlns : jnode.getAttribute "xmlns" = some NS_JINGLE)
    (named : jnode.getAttribute "action" = some action)
    (numbered : jnode.getAttribute "sid" = some sid)
    (jids : (jnode.getAttribute "initiator").any env.checkJidSyntax = false)
    (known : jingleActionFromStr action ≠ .unknownAction)
    : ∃ jn, jingleRequest env (((LmMessage.newWithSubType (some recipient) .set).addChild
          jnode).stamped fromJid) = some jn
        ∧ jn.action = jingleActionFromStr action ∧ jn.sid = sid
        ∧ jn.message.getFrom = some fromJid ∧ jn.node = jnode := by
  let message := ((LmMessage.newWithSubType (some recipient) .set).addChild jnode).stamped fromJid
  have child : message.node.getChild "jingle" = some jnode := by
    rw [LmMessage.getChild_stamped, LmMessageNode.getChild, LmMessage.children_addChild,
      LmMessage.children_newWithSubType, List.nil_append]
    exact List.find?_cons_of_pos (by simp [name])
  let jn : JingleNode := {
    message
    node := jnode
    action := jingleActionFromStr action
    initiator := jnode.getAttribute "initiator"
    responder := jnode.getAttribute "responder"
    sid
    content := []
    contentFreed := false
  }
  have checked : checkJingle env.checkJidSyntax message jnode = .ok jn := by
    rw [checkJingle, named, numbered]
    dsimp only
    rw [if_neg (by simp [jids]), if_neg known]
  refine ⟨jn, ?_, rfl, rfl, LmMessage.getFrom_stamped _ _, rfl⟩
  have isSet : message.subType = .set := rfl
  change jingleRequest env message = some jn
  rw [jingleRequest, if_neg (not_not.mpr isSet), child]
  dsimp only
  rw [if_neg (not_not.mpr xmlns), checked]
  rfl

/-- A `<jingle/>` request is taken by its handler. -/
theorem handleIq_jingle {message : LmMessage} {r' : State}
    (handled : jingleHandleIq env w message r = .done .removeMessage r')
    : handleIq env w message r = .done () r' := by
  rw [handleIq, bind_done handled]
  rfl

/-- What the hash leaves of the state. -/
structure Hashed (y : AwaitedTransfer x) (r r' : State) (ft : JingleFT) : Prop where
  sessions : r'.sessions = r.sessions
  transfer : r'.infoList.get? y.d = some ft
  disk : r'.disk = r.disk
  stopReports : r'.stopReports = r.stopReports

/-- The session-info sets the hash, and is refused all the same. -/
theorem Fed.hash (fed : Fed y r pieces) (env : Env) (w : World) (hash : Option String)
    : ∃ r', handleIq env w ((hashIq x.js.toJid x.js.sid hash).stamped x.js.fromJid) r = .done () r'
        ∧ Hashed y r r' { y.fed pieces with hash } := by
  let child := textElement "hash" [("xmlns", NS_JINGLE_APP_FT_INFO)] hash
  let message := (hashIq x.js.toJid x.js.sid hash).stamped x.js.fromJid
  obtain ⟨jn, requested, action, sid, sender, node⟩ := jingleRequest_stamped env x.js.toJid
    x.js.fromJid x.js.sid "session-info"
    (element "jingle" [("xmlns", NS_JINGLE), ("sid", x.js.sid), ("action", "session-info")]
      [child]) rfl rfl rfl rfl rfl (by decide)
  have requested : jingleRequest env message = some jn := requested
  have handled : actionHandler env w jn.action = some handleSessionInfo := by
    rw [action]
    rfl
  have found := y.finds fed.conveys sid sender
  let r₁ : State := { r with
    infoList := r.infoList.modify y.d (fun jft => { jft with hash := child.value }) }
  have noted : FileTransfer.handle .sessionInfo y.d child r = .done .handled r₁ := by
    rw [FileTransfer.handle, if_pos ⟨rfl, rfl, rfl⟩, bind_done (readFt_done fed.transfer)]
    rfl
  have offered : offerInfo child y.js.content r = .done false r₁ := by
    rw [y.conveys.only, offerInfo, bind_done (deref_done y.conveys.appfuncs),
      bind_done (deref_done y.conveys.description), bind_done noted]
    rfl
  let r₂ := r₁.replied jn.message (jingleNewIqError jn.message "modify"
    "feature-not-implemented" (some "unsupported-info"))
  have ends : handleSessionInfo jn r = .done jn r₂ := by
    rw [handleSessionInfo, bind_get, found]
    dsimp only
    rw [node]
    change (offerInfo child y.js.content >>= _) r = _
    rw [bind_done offered]
    rfl
  obtain ⟨_, _, notFreed⟩ := jingleRequest_node requested
  refine ⟨r₂, handleIq_jingle ?_, ?_⟩
  · change jingleHandleIq env w message r = _
    rw [jingleHandleIq_request requested handled, bind_done ends, jingleFreeJinglenode, notFreed]
    rfl
  · refine ⟨rfl, ?_, rfl, rfl⟩
    change (r.infoList.modify y.d _).get? y.d = _
    rw [Pool.get?_modify_self, fed.transfer]
    rfl

/-- The session-terminate with which the sender ends. -/
theorem terminate_requested (env : Env) (x : ReadyTransfer)
    : ∃ jn, jingleRequest env ((sessionTerminateIq x.js "success").stamped x.js.fromJid) = some jn
        ∧ jn.action = .sessionTerminate ∧ jn.sid = x.js.sid
        ∧ jn.message.getFrom = some x.js.fromJid := by
  obtain ⟨jn, requested, action, sid, sender, _⟩ := jingleRequest_stamped env x.js.toJid
    x.js.fromJid x.js.sid "session-terminate"
    (element "jingle" [("xmlns", NS_JINGLE), ("action", "session-terminate"), ("sid", x.js.sid)]
      [element "reason" [] [element "success" [] []]]) rfl rfl rfl rfl rfl (by decide)
  exact ⟨jn, requested, action, sid, sender⟩

/-- What the end leaves of the state. -/
structure Ended (env : Env) (y : AwaitedTransfer x) (r r' : State) (ft : JingleFT) : Prop where
  gone : r'.sessions.get? y.q = none
  transfer : r'.infoList.get? y.d = some ft.stopped
  reports : r'.stopReports = r.stopReports ++ [(y.d, ft.report env)]
  disk : r'.disk = r.disk

theorem AwaitedTransfer.ends {ft : JingleFT} (conveys : Conveys r y.q y.js y.sc y.d y.t)
    (transfer : r.infoList.get? y.d = some ft) (rest : ft.AtRest) (env : Env)
    (kept : w.freedLink ≠ .traps)
    : ∃ r', handleIq env w ((sessionTerminateIq x.js "success").stamped x.js.fromJid) r
          = .done () r'
        ∧ Ended env y r r' ft := by
  obtain ⟨jn, requested, action, sid, sender⟩ := terminate_requested env x
  have found := y.finds conveys sid sender
  obtain ⟨r', ends, terminated⟩ :=
    conveys.terminate_runs transfer rest requested action (by rw [found]; rfl) kept
  have exactly : ((sessionTerminateIq x.js "success").stamped x.js.fromJid).getFrom
      = some y.js.recipient := by
    rw [LmMessage.getFrom_stamped, y.peer]
  refine ⟨r', handleIq_jingle ends, ?_⟩
  exact {
    gone := by
      rw [terminated.sessions]
      exact Pool.get?_erase_self _ _
    transfer := by
      rw [terminated.transfer transfer, if_pos exactly]
    reports := terminated.reports exactly
    disk := terminated.disk
  }

theorem AwaitedTransfer.ends_stops {ft : JingleFT} (conveys : Conveys r y.q y.js y.sc y.d y.t)
    (transfer : r.infoList.get? y.d = some ft) (rest : ft.AtRest) (env : Env)
    (traps : w.freedLink = .traps)
    : ∃ error r', handleIq env w ((sessionTerminateIq x.js "success").stamped x.js.fromJid) r
        = .fault error r' := by
  obtain ⟨jn, requested, action, sid, sender⟩ := terminate_requested env x
  have found := y.finds conveys sid sender
  obtain ⟨r', stops⟩ :=
    conveys.terminate_stops transfer rest requested action (by rw [found]; rfl) traps
  exact ⟨_, r', by rw [handleIq, bind_fault stops]⟩

end Awaited

end McabberJingle
