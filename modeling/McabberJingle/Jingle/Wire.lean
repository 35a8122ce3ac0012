import McabberJingle.Jingle.Acks
import McabberJingle.Jingle.Requests

/-! A session on the wire: the stanza that is made of its contents, and what the parsers of a
peer read from it.
-/

namespace McabberJingle

open Program Program.Prog

variable {env : Env} {w : World} {s : State} {js : JingleSession}

-----------------------------------------------------------------------------------------
-- What a content conveys
-----------------------------------------------------------------------------------------

/-- A file over an in-band bytestream, as it is announced to a peer. -/
structure Offer where
  name : String
  transfer : JingleFT
  stream : JingleIBB

/-- The content has this name, this transfer and this stream. -/
structure Announces (s : State) (sc : SessionContent) (offer : Offer) : Prop where
  name : sc.name = offer.name
  appfuncs : sc.appfuncs = some .fileTransfer
  description : ∃ d, sc.description = some d ∧ s.infoList.get? d = some offer.transfer
  transfuncs : sc.transfuncs = some .ibb
  transport : ∃ t, sc.transport = some t ∧ s.transports.get? t = some (.ibb offer.stream)

-----------------------------------------------------------------------------------------
-- The elements
-----------------------------------------------------------------------------------------

/-- The `<file/>` element of a transfer. -/
def fileElement (env : Env) (jft : JingleFT) : LmMessageNode :=
  let file := element "file"
    [("xmlns", NS_SI_FT), ("name", jft.name), ("size", toString jft.size)] []
  let file := file.setOptional "hash" jft.hash
  let file := if jft.date = 0 then file else file.setOptional "date" (env.toIso8601 jft.date)
  match jft.desc with
  | none => file
  | some desc => file.addChild (textElement "desc" [] (some desc))

/-- The `<description/>` element of a transfer. -/
def descriptionElement (env : Env) (jft : JingleFT) : LmMessageNode :=
  let kind :=
    match jft.type with
    | .offer => "offer"
    | .request => "request"
  element "description" [("xmlns", NS_JINGLE_APP_FT)] [element kind [] [fileElement env jft]]

/-- The `<transport/>` element of a stream. -/
def transportElement (jibb : JingleIBB) : LmMessageNode :=
  element "transport"
    [("xmlns", NS_JINGLE_TRANSPORT_IBB), ("sid", jibb.sid),
      ("block-size", toString jibb.blocksize)] []

/-- The `<content/>` element of an offer. -/
def Offer.element (env : Env) (offer : Offer) : LmMessageNode :=
  McabberJingle.element "content" [("name", offer.name)]
    [transportElement offer.stream, descriptionElement env offer.transfer]

/-- The attributes of the file are those of the transfer. -/
theorem fileElement_attributes (env : Env) (jft : JingleFT)
    : (fileElement env jft).getAttribute "xmlns" = some NS_SI_FT
      ∧ (fileElement env jft).getAttribute "name" = some jft.name
      ∧ (fileElement env jft).getAttribute "size" = some (toString jft.size)
      ∧ (fileElement env jft).getAttribute "hash" = jft.hash := by
  let bare := element "file"
    [("xmlns", NS_SI_FT), ("name", jft.name), ("size", toString jft.size)] []
  let hashed := bare.setOptional "hash" jft.hash
  have later (key : String) (apart : key ≠ "date")
      : (fileElement env jft).getAttribute key = hashed.getAttribute key := by
    have dated : (if jft.date = 0 then hashed
        else hashed.setOptional "date" (env.toIso8601 jft.date)).getAttribute key
        = hashed.getAttribute key := by
      split
      · rfl
      · exact LmMessageNode.getAttribute_setOptional_of_ne hashed apart _
    rw [← dated]
    unfold fileElement
    cases jft.desc <;> rfl
  have first (key : String) (apart : key ≠ "hash")
      : hashed.getAttribute key = bare.getAttribute key :=
    LmMessageNode.getAttribute_setOptional_of_ne bare apart _
  refine ⟨?_, ?_, ?_, ?_⟩
  · rw [later _ (by decide), first _ (by decide)]
    rfl
  · rw [later _ (by decide), first _ (by decide)]
    rfl
  · rw [later _ (by decide), first _ (by decide)]
    rfl
  · rw [later _ (by decide)]
    exact LmMessageNode.getAttribute_setOptional bare rfl _

theorem fileElement_name (env : Env) (jft : JingleFT) : (fileElement env jft).name = "file" := by
  have dated (file : LmMessageNode)
      : (if jft.date = 0 then file else file.setOptional "date" (env.toIso8601 jft.date)).name
        = file.name := by
    split
    · rfl
    · exact LmMessageNode.name_setOptional file _ _
  unfold fileElement
  cases jft.desc <;> exact (dated _).trans (LmMessageNode.name_setOptional _ _ _)

theorem tomessage_eq {d : FtPtr} {jft : JingleFT} (there : s.infoList.get? d = some jft)
    {node : LmMessageNode} (absent : node.getChild "description" = none)
    : FileTransfer.tomessage env d node s
      = .done (node.addChild (descriptionElement env jft)) s := by
  rw [FileTransfer.tomessage, bind_done (readFt_done there), absent]
  rfl

theorem ibbTomessage_eq {t : TransportPtr} {jibb : JingleIBB}
    (there : s.transports.get? t = some (.ibb jibb)) {node : LmMessageNode}
    (absent : node.getChild "transport" = none)
    : Ibb.tomessage t node s = .done (node.addChild (transportElement jibb)) s := by
  rw [Ibb.tomessage, bind_done (readIbb_done there), absent]
  rfl

/-- One content. -/
theorem lmInsertSessioncontent_eq {sc : SessionContent} {offer : Offer}
    (announces : Announces s sc offer)
    : lmInsertSessioncontent env sc s = .done (offer.element env) s := by
  obtain ⟨d, described, transfer⟩ := announces.description
  obtain ⟨t, carried, stream⟩ := announces.transport
  rw [lmInsertSessioncontent, bind_done (deref_done announces.transfuncs),
    bind_done (deref_done carried)]
  have inserted : JingleTransportFuncs.ibb.tomessage t (element "content" [("name", sc.name)] []) s
      = .done _ s := ibbTomessage_eq stream rfl
  rw [bind_done inserted, bind_done (deref_done announces.appfuncs),
    bind_done (deref_done described), tomessage_eq transfer rfl, announces.name]
  rfl

/-- By induction on the contents. -/
theorem lmInsertSessioncontents_eq {content : List SessionContent} {offers : List Offer}
    (announced : List.Forall₂ (Announces s) content offers)
    : lmInsertSessioncontents env content s = .done (offers.map (Offer.element env)) s := by
  induction announced with
  | nil => rfl
  | cons first rest ih =>
      rw [lmInsertSessioncontents, bind_done (lmInsertSessioncontent_eq first), bind_done ih]
      rfl

/-- The whole stanza. -/
theorem lmMessageFromJinglesession_eq {offers : List Offer}
    (announced : List.Forall₂ (Announces s) js.content offers) (action : JingleAction)
    : lmMessageFromJinglesession env js action s
      = .done (jinglesessionIq js action (offers.map (Offer.element env))) s := by
  rw [lmMessageFromJinglesession, bind_done (lmInsertSessioncontents_eq announced)]
  rfl

/-- A session that can be written is offered when the connection takes the stanza. -/
theorem jingleSendSessionInitiate_sent {p : SessionPtr} {iq : LmMessage}
    (listed : s.sessions.get? p = some js)
    (written : lmMessageFromJinglesession env js .sessionInitiate s = .done iq s)
    (sendOk : w.sendOk = true)
    : jingleSendSessionInitiate env w p s
      = .done () (s.requested (js.ident p) (setInitiator iq js.fromJid)
          (some (.sessionInitiate p)) 60 true) := by
  rw [jingleSendSessionInitiate, bind_done (readSession_done listed), bind_done written, sendOk,
    bind_done (sendRequest_done _ _ _ _ _)]
  rfl

-----------------------------------------------------------------------------------------
-- What a peer reads
-----------------------------------------------------------------------------------------

/-- What `check_content` makes of the element of an offer. -/
def Offer.content (env : Env) (offer : Offer) : JingleContent where
  creator := some .initiator
  disposition := none
  name := offer.name
  senders := .both
  description := descriptionElement env offer.transfer
  transport := transportElement offer.stream

theorem checkContent_element (env : Env) (offer : Offer) (err : Option GError)
    : checkContent (offer.element env) err = (some (offer.content env), err) :=
  rfl

/-- By induction on the offers: all of them are taken, and no error is set. -/
theorem checkContentsLoop_elements (env : Env) (offers : List Offer) (jn : JingleNode)
    (err : Option GError)
    : checkContentsLoop jn err (offers.map (Offer.element env))
      = { ok := true, err,
          jn := { jn with content := jn.content ++ offers.map (Offer.content env) } } := by
  induction offers generalizing jn with
  | nil => simp [checkContentsLoop]
  | cons offer rest ih =>
      have named : (offer.element env).name = "content" := rfl
      rw [List.map_cons, checkContentsLoop, if_pos named, checkContent_element]
      dsimp only
      rw [ih, List.map_cons, List.append_assoc, List.singleton_append]

/-- What a transfer can be sent with: a number of 64 bits for its size, and a hash of MD5. -/
structure Sendable (env : Env) (w : World) (jft : JingleFT) : Prop where
  kind : jft.type = .offer
  basename : env.pathGetBasename jft.name = jft.name
  path : env.buildFilename (FileTransfer.downloadDir w) jft.name ≠ "."
  size : (jft.size : Int) ≤ G_MAXINT64
  hash : ∀ hash ∈ jft.hash, hash.toList.length = 32 ∧ hash.toList.all gAsciiIsxdigit = true

/-- The transfer that a peer lists for an offer. -/
def Offer.received (env : Env) (w : World) (offer : Offer) : JingleFT where
  date := env.fromIso8601 ((fileElement env offer.transfer).getAttribute "date")
  hash := offer.transfer.hash
  name := env.buildFilename (FileTransfer.downloadDir w) offer.transfer.name
  size := offer.transfer.size
  transmit := 0
  outfile := none
  type := .offer
  dir := .incoming
  state := .pending
  desc := none
  md5 := .null

/-- A hash of 32 digits passes the check. -/
theorem isMd5Hash_of_digits {hash : String} (length : hash.toList.length = 32)
    (digits : hash.toList.all gAsciiIsxdigit = true)
    : FileTransfer.isMd5Hash hash = true := by
  have whole : hash.toList.take 32 = hash.toList := List.take_of_length_le (Nat.le_of_eq length)
  rw [FileTransfer.isMd5Hash, whole, digits, length]
  rfl

theorem parseOffer_element {offer : Offer} (sendable : Sendable env w offer.transfer)
    : FileTransfer.parseOffer env w (offer.content env) = .ok (offer.received env w) := by
  obtain ⟨namespaced, named, sized, hashed⟩ := fileElement_attributes env offer.transfer
  have offered : (descriptionElement env offer.transfer).getChild "offer"
      = some (element "offer" [] [fileElement env offer.transfer]) := by
    rw [descriptionElement, sendable.kind]
    rfl
  have filed : (element "offer" [] [fileElement env offer.transfer]).getChild "file"
      = some (fileElement env offer.transfer) := by
    exact List.find?_cons_of_pos (beq_iff_eq.mpr (fileElement_name env offer.transfer))
  have read : gAsciiStrtoll (some (toString offer.transfer.size)) = offer.transfer.size :=
    gAsciiStrtoll_toString sendable.size
  have passes : (offer.transfer.hash.any (fun hash =>
      hash.toList.length ≠ 32 || !FileTransfer.isMd5Hash hash)) = false := by
    refine (Option.any_eq_false _ _).mpr (fun hash announced => ?_)
    obtain ⟨length, digits⟩ := sendable.hash hash announced
    rw [isMd5Hash_of_digits length digits, length]
    rfl
  rw [FileTransfer.parseOffer]
  simp only [Offer.content, offered, filed, namespaced, named, sized, hashed, read]
  rw [if_neg (by simp), if_neg (by omega), sendable.basename, if_neg sendable.path,
    if_neg (by rw [passes]; exact Bool.false_ne_true)]
  rfl

/-- The stream that a peer enters for an offer. -/
def Offer.accepted (offer : Offer) : JingleIBB where
  blocksize := offer.stream.blocksize
  sid := offer.stream.sid
  buf := []
  sizeBuf := 0
  bufFreed := false
  seq := 0

theorem parseTransport_element {offer : Offer}
    (small : offer.stream.blocksize ≤ IBB_BLOCK_SIZE_MAX)
    : Ibb.parseTransport (transportElement offer.stream) = .ok offer.accepted := by
  have sid : (transportElement offer.stream).getAttribute "sid" = some offer.stream.sid := rfl
  have size : (transportElement offer.stream).getAttribute "block-size"
      = some (toString offer.stream.blocksize) := rfl
  have read : gAsciiStrtoll (some (toString offer.stream.blocksize)) = offer.stream.blocksize := by
    refine gAsciiStrtoll_toString ?_
    rw [G_MAXINT64]
    rw [IBB_BLOCK_SIZE_MAX] at small
    omega
  have whole : min (Ibb.toGuint offer.stream.blocksize) IBB_BLOCK_SIZE_MAX
      = offer.stream.blocksize := by
    rw [IBB_BLOCK_SIZE_MAX] at small ⊢
    rw [Ibb.toGuint]
    omega
  rw [Ibb.parseTransport, sid, size]
  dsimp only
  rw [read, whole]
  rfl

end McabberJingle
