import McabberJingle.Guarantees.Confinement
import McabberJingle.Guarantees.Gate
import McabberJingle.Jingle.Offers
import McabberJingle.Jingle.Wire
import McabberJingle.Transfer.Arrival

/-! Our own offers are understood by our own parser: what a session announces, a second instance
makes a session of, and what that one answers leaves the first as it offered.
-/

namespace McabberJingle

open Program Program.Prog

variable {env : Env} {w : World} {s r : State} {p q : SessionPtr} {js : JingleSession}
  {offers : List Offer}

-----------------------------------------------------------------------------------------
-- The two sessions
-----------------------------------------------------------------------------------------

/-- A listed session, found under its own sid and peer, whose contents are these offers. -/
structure Offering (s : State) (p : SessionPtr) (js : JingleSession) (offers : List Offer)
    : Prop where
  listed : s.sessions.get? p = some js
  found : sessionFindBySid s js.sid (some js.recipient) = some (p, js)
  announced : List.Forall₂ (Announces s) js.content offers

/-- Offers that a session of ours can be opened with. -/
structure Presented (offers : List Offer) : Prop where
  nonempty : offers ≠ []
  names : (offers.map Offer.name).Nodup
  streams : (offers.map (fun offer => offer.stream.sid)).Nodup
  kinds : ∀ offer ∈ offers, offer.transfer.type = .offer
  files : ∀ offer ∈ offers, PlainName offer.transfer.name
  sizes : ∀ offer ∈ offers, (offer.transfer.size : Int) ≤ G_MAXINT64
  hashes : ∀ offer ∈ offers, ∀ hash ∈ offer.transfer.hash,
    hash.toList.length = 32 ∧ hash.toList.all gAsciiIsxdigit = true
  blocksizes : ∀ offer ∈ offers, 1 ≤ offer.stream.blocksize
    ∧ offer.stream.blocksize ≤ IBB_BLOCK_SIZE_MAX

/-- An instance that has both modules. -/
structure Equipped (r : State) : Prop where
  app : jingleGetAppfuncs r (some NS_JINGLE_APP_FT) = some .fileTransfer
  trans : jingleGetTransportfuncs r (some NS_JINGLE_TRANSPORT_IBB) = some .ibb

/-- An instance that also has the sender in its roster, and no session with the sid. -/
structure Receptive (env : Env) (w : World) (r : State) (js : JingleSession) : Prop
    extends Equipped r where
  roster : w.rosterFind (env.jidtodisp js.fromJid) = true
  fresh : ∀ cell ∈ r.sessions.cells, cell.2.sid ≠ js.sid

/-- What the second instance has of an offer. -/
def Offer.answer (env : Env) (w : World) (offer : Offer) : Offer where
  name := offer.name
  transfer := offer.received env w
  stream := offer.accepted

/-- The session of the second instance. -/
def JingleSession.mirror (js : JingleSession) (content : List SessionContent) : JingleSession :=
  { sid := js.sid, origin := .incoming, fromJid := js.fromJid, toJid := js.toJid, content }

-----------------------------------------------------------------------------------------
-- The names of files
-----------------------------------------------------------------------------------------

theorem gPathGetBasename_plain {name : String} (plain : PlainName name)
    : gPathGetBasename name = name := by
  rw [gPathGetBasename, plain.component.basename_eq, String.ofList_toList]

theorem gBuildFilename_ne_dot {name : String} (plain : PlainName name) (dir : String)
    : gBuildFilename dir name ≠ "." := by
  intro same
  have joined : Path.join '/' dir.toList name.toList = ['.'] := by
    have chars := congrArg String.toList same
    rwa [gBuildFilename, String.toList_ofList] at chars
  rw [Path.join_component dir.toList plain.component] at joined
  obtain ⟨_, rest⟩ | ⟨_, none⟩ := List.append_eq_singleton_iff.mp joined
  · exact plain.notDot (String.toList_injective rest)
  · exact plain.component.nonempty none

/-- What is presented can be sent. -/
theorem Presented.sendable (presented : Presented offers) (documented : PathsDocumented env)
    (w : World) {offer : Offer} (member : offer ∈ offers)
    : Sendable env w offer.transfer := by
  have plain := presented.files offer member
  refine ⟨presented.kinds offer member, ?_, ?_, presented.sizes offer member,
    presented.hashes offer member⟩
  · rw [documented.basename, gPathGetBasename_plain plain]
  · rw [documented.join]
    exact gBuildFilename_ne_dot plain _

-----------------------------------------------------------------------------------------
-- The second instance reads the offers
-----------------------------------------------------------------------------------------

section Reading

variable {offer : Offer}

theorem content_app (env : Env) (offer : Offer)
    : (offer.content env).description.getAttribute "xmlns" = some NS_JINGLE_APP_FT :=
  rfl

theorem content_trans (env : Env) (offer : Offer)
    : (offer.content env).transport.getAttribute "xmlns" = some NS_JINGLE_TRANSPORT_IBB :=
  rfl

theorem content_parses (r : State) (small : offer.stream.blocksize ≤ IBB_BLOCK_SIZE_MAX)
    : JingleTransportFuncs.ibb.parse env w r (offer.content env) = .ok (.ibb offer.accepted) := by
  have parsed : Ibb.parseTransport (offer.content env).transport = .ok offer.accepted :=
    parseTransport_element small
  rw [JingleTransportFuncs.parse, parsed]
  rfl

/-- Every offer is kept. -/
theorem Equipped.kept (equipped : Equipped r)
    (sendable : Sendable env w offer.transfer)
    (small : offer.stream.blocksize ≤ IBB_BLOCK_SIZE_MAX)
    : contentKept env w r (offer.content env) = true := by
  rw [contentKept, content_app, equipped.app, content_trans, equipped.trans,
    parseOffer_element sendable, Option.any_some, JingleTransportFuncs.accepts_iff env w r,
    content_parses r small]
  rfl

/-- Every offer asks for its own stream. -/
theorem Equipped.asks (equipped : Equipped r)
    (small : offer.stream.blocksize ≤ IBB_BLOCK_SIZE_MAX)
    : streamSid r (offer.content env) = some offer.stream.sid := by
  have parsed : Ibb.parseTransport (offer.content env).transport = .ok offer.accepted :=
    parseTransport_element small
  rw [streamSid, content_trans, equipped.trans]
  dsimp only
  rw [parsed]
  rfl

/-- A content made of an offer has what was offered. -/
theorem Made.announces {s₀ : State} {sc : SessionContent} (equipped : Equipped s₀)
    (sendable : Sendable env w offer.transfer)
    (small : offer.stream.blocksize ≤ IBB_BLOCK_SIZE_MAX)
    (made : Made env w s₀ s (offer.content env) sc)
    : Announces s sc (offer.answer env w) := by
  obtain ⟨appfuncs, d, jft, known, offered, there, _, described, funcs, _⟩ := made.description
  obtain ⟨transfuncs, t, transport, known', parsed, there', _, _, carried, funcs', _⟩ :=
    made.transport
  rw [content_app, equipped.app] at known
  cases known
  rw [content_trans, equipped.trans] at known'
  cases known'
  rw [parseOffer_element sendable] at offered
  cases offered
  rw [content_parses s₀ small] at parsed
  cases parsed
  exact ⟨made.name, funcs, ⟨d, described, there⟩, funcs', ⟨t, carried, there'⟩⟩

end Reading

theorem Equipped.all_kept (equipped : Equipped r) (presented : Presented offers)
    (sendable : ∀ offer ∈ offers, Sendable env w offer.transfer)
    : (offers.map (Offer.content env)).filter (contentKept env w r)
      = offers.map (Offer.content env) := by
  refine List.filter_eq_self.mpr (fun cn member => ?_)
  obtain ⟨offer, there, rfl⟩ := List.mem_map.mp member
  exact equipped.kept (sendable offer there) (presented.blocksizes offer there).2

/-- The contents of the offers make a session without trouble. -/
theorem Equipped.clean (equipped : Equipped r) (presented : Presented offers)
    (sendable : ∀ offer ∈ offers, Sendable env w offer.transfer)
    : CleanContents env w r (offers.map (Offer.content env)) none := by
  have all := equipped.all_kept presented sendable
  refine ⟨?_, ?_, ?_⟩
  · have kept := List.filter_eq_self.mp all
    exact List.pairwise_of_forall_mem_list (fun cn member _ _ _ _ => kept cn member)
  · rw [all, List.map_map]
    exact presented.names
  · rw [all, List.pairwise_map]
    have apart := List.pairwise_map.mp presented.streams
    refine apart.imp_of_mem (fun {offer offer'} there there' other => ?_)
    rw [StreamsApart, equipped.asks (presented.blocksizes offer there).2,
      equipped.asks (presented.blocksizes offer' there').2]
    intro sid asked same
    cases asked
    exact other (Option.some.inj same).symm

-----------------------------------------------------------------------------------------
-- The session-initiate
-----------------------------------------------------------------------------------------

/-- The IQ that opens a session. -/
def initiateIq (env : Env) (js : JingleSession) (offers : List Offer) : LmMessage :=
  setInitiator (jinglesessionIq js .sessionInitiate (offers.map (Offer.element env))) js.fromJid

theorem Offering.initiates (offering : Offering s p js offers) (env : Env)
    (sendOk : w.sendOk = true)
    : jingleSendSessionInitiate env w p s
      = .done () (s.requested (js.ident p) (initiateIq env js offers) (some (.sessionInitiate p)) 60
          true) :=
  jingleSendSessionInitiate_sent offering.listed
    (lmMessageFromJinglesession_eq offering.announced .sessionInitiate) sendOk

@[simp]
theorem LmMessage.getTo_stamped (iq : LmMessage) (fromJid : String)
    : (iq.stamped fromJid).getTo = iq.getTo :=
  LmMessageNode.getAttribute_setAttribute_of_ne _ (by decide) _

/-- The request as the second instance parses it. -/
structure Parsed (env : Env) (message : LmMessage) (js : JingleSession) (action : JingleAction)
    (fromJid : String) (offers : List Offer) (jn : JingleNode)
    : Prop where
  requested : jingleRequest env message = some jn
  action : jn.action = action
  sid : jn.sid = js.sid
  sender : jn.message.getFrom = some fromJid
  addressee : jn.message.getTo = some js.recipient
  checked : checkContents jn
    = { ok := true, err := none, jn := { jn with content := offers.map (Offer.content env) } }

/-- All offers pass the check of the contents. -/
theorem checkContents_elements {jn : JingleNode} (empty : jn.content = [])
    (children : jn.node.children = offers.map (Offer.element env))
    : checkContents jn
      = { ok := true, err := none,
          jn := { jn with content := offers.map (Offer.content env) } } := by
  rw [checkContents, children, checkContentsLoop_elements, empty, List.nil_append]

theorem initiateIq_parsed (env : Env) (js : JingleSession) (offers : List Offer)
    (jids : env.checkJidSyntax js.fromJid = false)
    : ∃ jn, Parsed env ((initiateIq env js offers).stamped js.fromJid) js .sessionInitiate
        js.fromJid offers jn := by
  let jnode := element "jingle"
    [("xmlns", NS_JINGLE), ("action", "session-initiate"), ("sid", js.sid)]
    (offers.map (Offer.element env))
  obtain ⟨jn, requested, action, sid, sender, node⟩ := jingleRequest_stamped env js.recipient
    js.fromJid js.sid "session-initiate" (jnode.setAttribute "initiator" js.fromJid)
    (LmMessageNode.name_setAttribute jnode _ _) rfl rfl rfl
    (by rw [LmMessageNode.getAttribute_setAttribute, Option.any_some, jids]) (by decide)
  obtain ⟨same, empty, _⟩ := jingleRequest_node requested
  refine ⟨jn, requested, action, sid, sender, ?_, ?_⟩
  · rw [same, LmMessage.getTo_stamped]
    rfl
  · refine checkContents_elements empty ?_
    rw [node, LmMessageNode.children_setAttribute]
    rfl

/-- The second instance has nothing against the request. -/
theorem Receptive.admits (receptive : Receptive env w r js) (presented : Presented offers)
    {message : LmMessage} {jn : JingleNode}
    (parsed : Parsed env message js .sessionInitiate js.fromJid offers jn)
    : refusal env w r jn = none := by
  refine refusal_eq_none_iff.mpr ⟨?_, ?_⟩
  · have filled : (offers.map (Offer.content env)).isEmpty = false := by
      simp [presented.nonempty]
    have disposed : (offers.map (Offer.content env)).any validDisposition = true := by
      obtain ⟨offer, rest, rfl⟩ := List.exists_cons_of_ne_nil presented.nonempty
      rfl
    rw [acceptable, parsed.checked, parsed.sender]
    simp only [Option.any_some, receptive.roster, filled, disposed]
    rfl
  · rw [sessionFind, parsed.sid]
    refine List.find?_eq_none.mpr (fun cell member => ?_)
    simp [receptive.fresh cell member]

/-- What is listed at the end under a sid that no other session has is found. -/
theorem sessionFindBySid_last {js : JingleSession}
    (fresh : ∀ cell ∈ r.sessions.cells, cell.2.sid ≠ js.sid)
    (cells : s.sessions.cells = r.sessions.cells ++ [(q, js)])
    : sessionFindBySid s js.sid (some js.recipient) = some (q, js) := by
  have before : r.sessions.cells.find? (fun cell =>
      cell.2.sid == js.sid && gAsciiStrcaseeq (some cell.2.recipient) (some js.recipient))
      = none := by
    refine List.find?_eq_none.mpr (fun cell member => ?_)
    simp [fresh cell member]
  rw [sessionFindBySid, cells, List.find?_append, before]
  simp [gAsciiStrcaseeq]

theorem Announces.congr {s' : State} {sc : SessionContent} {offer : Offer}
    (announces : Announces s sc offer) (infoList : s'.infoList = s.infoList)
    (transports : s'.transports = s.transports)
    : Announces s' sc offer where
  name := announces.name
  appfuncs := announces.appfuncs
  description := infoList ▸ announces.description
  transfuncs := announces.transfuncs
  transport := transports ▸ announces.transport

/-- The second instance gets the session. -/
theorem Receptive.opens (receptive : Receptive env w r js) (reached : Reachable env r)
    (outgoing : js.origin = .outgoing) (presented : Presented offers)
    (sendable : ∀ offer ∈ offers, Sendable env w offer.transfer) {message : LmMessage}
    {jn : JingleNode} (parsed : Parsed env message js .sessionInitiate js.fromJid offers jn)
    : ∃ r' content, handleIq env w message r = .done () r'
        ∧ Offering r' r.sessions.next (js.mirror content) (offers.map (Offer.answer env w)) := by
  have layout := layout_reached reached
  have passes := receptive.admits presented parsed
  have addressee : jn.message.getTo.isSome = true := by
    rw [parsed.addressee]
    rfl
  have clean := receptive.toEquipped.clean presented sendable
  obtain ⟨r', runs⟩ := handleSessionInitiate_runs layout passes addressee
    (by rw [parsed.checked]; exact clean)
  obtain ⟨fromJid, toJid, content, r₁, served⟩ := handleSessionInitiate_served layout passes runs
  have peer : js.recipient = js.toJid := by rw [JingleSession.recipient, outgoing]
  cases parsed.sender.symm.trans served.sender
  have known : some js.toJid = some toJid := by
    rw [← peer]
    exact parsed.addressee.symm.trans served.addressee
  cases known
  have equipped : Equipped (r.inviting jn js.fromJid js.toJid) :=
    ⟨receptive.app, receptive.trans⟩
  have making := served.making
  rw [parsed.checked] at making
  have made := making.made (by
    refine presented.names.sublist ?_
    have names : (offers.map (Offer.content env)).map JingleContent.name
        = offers.map Offer.name := List.map_map
    rw [← names]
    exact List.filter_sublist.map _)
  rw [equipped.all_kept presented sendable, List.forall₂_map_left_iff] at made
  have announced : List.Forall₂ (Announces r₁) content (offers.map (Offer.answer env w)) := by
    rw [List.forall₂_map_right_iff]
    refine (forall₂_imp_mem made (fun offer sc there made => ?_)).flip
    exact made.announces equipped (sendable offer there) (presented.blocksizes offer there).2
  have filled : content ≠ [] := by
    have length := announced.length_eq
    rw [List.length_map] at length
    have some := List.length_pos_of_ne_nil presented.nonempty
    exact List.ne_nil_of_length_pos (length ▸ some)
  have settled : r' = r₁.asking w r.sessions.next := by
    rw [served.settled, State.settling, if_neg filled]
  have cells : r'.sessions.cells = r.sessions.cells ++ [(r.sessions.next, js.mirror content)] := by
    rw [served.settled, served.making.settled_cells, if_neg filled, invited, parsed.sid]
    rfl
  refine ⟨r', content, ?_, ?_, ?_, ?_⟩
  · refine handleIq_jingle ?_
    have unfreed : (checkContents jn).jn.contentFreed = false := by
      rw [parsed.checked]
      exact (jingleRequest_node parsed.requested).2.2
    have handled : actionHandler env w jn.action = some (handleSessionInitiate env w) := by
      rw [parsed.action]
      rfl
    rw [jingleHandleIq_request parsed.requested handled, bind_done runs, jingleFreeJinglenode,
      unfreed]
    rfl
  · refine Pool.get?_eq_some_iff.mpr ?_
    rw [cells]
    exact List.mem_append_right _ (List.mem_singleton_self _)
  · have last : sessionFindBySid r' (js.mirror content).sid (some (js.mirror content).recipient)
        = some (r.sessions.next, js.mirror content) :=
      sessionFindBySid_last receptive.fresh cells
    exact last
  · refine announced.imp (fun sc offer announces => ?_)
    rw [settled, State.asking]
    split
    · exact announces.congr rfl rfl
    · exact announces

-----------------------------------------------------------------------------------------
-- The session-accept
-----------------------------------------------------------------------------------------

/-- The session has a content of this name, over a stream of this block size. -/
def OverStream (s : State) (js : JingleSession) (offer : Offer) : Prop :=
  ∃ sc t jibb, sessionFindSessioncontent js offer.name = some sc ∧ sc.transfuncs = some .ibb
    ∧ sc.transport = some t ∧ s.transports.get? t = some (.ibb jibb)
    ∧ jibb.blocksize = offer.stream.blocksize

/-- A session-accept with the block size in force leaves the stream. -/
theorem ibbHandle_keeps {t : TransportPtr} {jibb stream : JingleIBB}
    (there : s.transports.get? t = some (.ibb jibb)) (same : jibb.blocksize = stream.blocksize)
    (small : stream.blocksize ≤ IBB_BLOCK_SIZE_MAX)
    : Ibb.handle .sessionAccept t (transportElement stream) s = .done .handled s := by
  have size : (transportElement stream).getAttribute "block-size"
      = some (toString stream.blocksize) := rfl
  have read : Ibb.toGuint64 (gAsciiStrtoll (some (toString stream.blocksize)))
      = jibb.blocksize := by
    rw [IBB_BLOCK_SIZE_MAX] at small
    rw [gAsciiStrtoll_toString (by rw [G_MAXINT64]; omega), Ibb.toGuint64, same]
    omega
  rw [Ibb.handle, if_pos ⟨rfl, rfl⟩, bind_done (readIbb_done there), size, read,
    if_neg (Nat.lt_irrefl _)]
  exact congrArg (Outcome.done _) (State.withIbb_same there)

/-- Making a content ACTIVE leaves the others' streams. -/
theorem OverStream.changeState {offer : Offer} (streams : OverStream s js offer) (name : String)
    (state : SessionState)
    : OverStream s { js with content := updateFirst name (fun sc => { sc with state }) js.content }
        offer := by
  obtain ⟨sc, t, jibb, found, funcs, carried, there, size⟩ := streams
  have same := find?_changeState js.content name offer.name state
  have found : js.content.find? (fun sc => sc.name == offer.name) = some sc := found
  rw [found, Option.map_some] at same
  obtain ⟨sc', found', pointers⟩ := Option.map_eq_some_iff.mp same
  obtain ⟨funcs', carried'⟩ := Prod.mk.inj pointers
  exact ⟨sc', t, jibb, found', funcs'.trans funcs, carried'.trans carried, there, size⟩

/-- What accepting all contents leaves: only the states of the contents change. -/
structure Activates (s s' : State) (p : SessionPtr) (contents : List JingleContent) : Prop where
  sessions : s'.sessions = s.sessions.modify p (fun js =>
    { js with content := activated contents js.content })
  infoList : s'.infoList = s.infoList
  transports : s'.transports = s.transports
  sent : s'.sent = s.sent

/-- By induction on the offers. -/
theorem acceptContents_activates (env : Env) (listed : s.sessions.get? p = some js)
    (small : ∀ offer ∈ offers, offer.stream.blocksize ≤ IBB_BLOCK_SIZE_MAX)
    (streams : ∀ offer ∈ offers, OverStream s js offer)
    : ∃ s', acceptContents env p (offers.map (Offer.content env)) s = .done () s'
        ∧ Activates s s' p (offers.map (Offer.content env)) := by
  induction offers generalizing s js with
  | nil =>
      refine ⟨s, rfl, ?_, rfl, rfl, rfl⟩
      exact (Pool.modify_of_same (fun _ _ => rfl)).symm
  | cons offer rest ih =>
      obtain ⟨sc, t, jibb, found, funcs, carried, there, size⟩ := streams offer List.mem_cons_self
      let active := updateFirst offer.name (fun sc => { sc with state := .active })
      let ref : SessionContentRef := { owner := p, name := offer.name }
      let s₁ := s.withContent p active
      let s₂ := s₁.handling t (transportElement offer.stream)
      let s₃ : State := { s₂ with inits := s₂.inits ++ [(ref, t)] }
      have marked : sessionChangestateSessioncontent p offer.name .active s = .done () s₁ := by
        rw [sessionChangestateSessioncontent, bind_done (readSession_done listed)]
        rfl
      have handles : runHandle env .ibb .sessionAccept t (transportElement offer.stream) s₁
          = .done .handled s₂ :=
        (runHandle_eq env .ibb .sessionAccept t _ s₁).trans
          (ibbHandle_keeps (s := s₂) there size (small offer List.mem_cons_self))
      have recorded : (Prog.modify (fun s => { s with inits := s.inits ++ [(ref, t)] }) : Run Unit)
          s₂ = .done () s₃ := rfl
      have listed₃ : s₃.sessions.get? p = some { js with content := active js.content } :=
        State.withContent_listed listed active
      obtain ⟨s', runs, activates⟩ := ih listed₃
        (fun offer member => small offer (List.mem_cons_of_mem _ member))
        (fun later member =>
          (streams later (List.mem_cons_of_mem _ member)).changeState offer.name .active)
      refine ⟨s', ?_, ?_, activates.infoList, activates.transports, activates.sent⟩
      · have named : sessionFindSessioncontent js (offer.content env).name = some sc := found
        rw [List.map_cons, acceptContents, bind_done (readSession_done listed), named]
        refine (bind_done marked).trans ?_
        rw [bind_done (deref_done funcs), bind_done (deref_done carried)]
        refine (bind_done handles).trans ?_
        refine (bind_done recorded).trans ?_
        exact runs
      · have sessions₃ : s₃.sessions = s.sessions.modify p (fun js =>
            { js with content := active js.content }) := rfl
        rw [activates.sessions, sessions₃, Pool.modify_modify]
        rfl

/-- A content that no element names stays in front. -/
theorem activated_cons {contents : List JingleContent} {sc : SessionContent}
    (unnamed : sc.name ∉ contents.map JingleContent.name) (rest : List SessionContent)
    : activated contents (sc :: rest) = sc :: activated contents rest := by
  induction contents generalizing rest with
  | nil => rfl
  | cons cn more ih =>
      rw [List.map_cons, List.mem_cons, not_or] at unnamed
      rw [activated, updateFirst, if_neg unnamed.1, ih unnamed.2]
      rfl

/-- If all contents are named in their order, all become ACTIVE. -/
theorem activated_all {contents : List JingleContent} {content : List SessionContent}
    (names : content.map SessionContent.name = contents.map JingleContent.name)
    (distinct : (contents.map JingleContent.name).Nodup)
    : activated contents content = content.map (fun sc => { sc with state := .active }) := by
  induction contents generalizing content with
  | nil =>
      rw [List.map_eq_nil_iff.mp names]
      rfl
  | cons cn more ih =>
      obtain ⟨sc, rest, rfl, same, names⟩ := List.map_eq_cons_iff.mp names
      rw [List.map_cons, List.nodup_cons] at distinct
      have unnamed : ({ sc with state := .active } : SessionContent).name
          ∉ more.map JingleContent.name := by
        change sc.name ∉ _
        rw [same]
        exact distinct.1
      rw [activated, updateFirst, if_pos same, activated_cons unnamed, ih names distinct.2]
      rfl

/-- The session when all its contents were accepted. -/
def JingleSession.activate (js : JingleSession) : JingleSession :=
  { js with content := js.content.map (fun sc => { sc with state := .active }) }

/-- An offer's content is found under its name. -/
theorem find?_announces {content : List SessionContent}
    (announced : List.Forall₂ (Announces s) content offers)
    (distinct : (offers.map Offer.name).Nodup) {offer : Offer} (member : offer ∈ offers)
    : ∃ sc, content.find? (fun sc => sc.name == offer.name) = some sc ∧ Announces s sc offer := by
  induction announced with
  | nil => cases member
  | @cons sc first content rest announces _ ih =>
      rw [List.map_cons, List.nodup_cons] at distinct
      cases List.mem_cons.mp member with
      | inl here =>
          subst here
          refine ⟨sc, List.find?_cons_of_pos ?_, announces⟩
          exact beq_iff_eq.mpr announces.name
      | inr later =>
          have other : sc.name ≠ offer.name := by
            intro same
            rw [announces.name] at same
            exact distinct.1 (same ▸ List.mem_map_of_mem later)
          rw [List.find?_cons_of_neg (by simpa using other)]
          exact ih distinct.2 later

/-- The session-accept that answers the offers. -/
def acceptIq (env : Env) (js : JingleSession) (offers : List Offer) : LmMessage :=
  jinglesessionIq js .sessionAccept (offers.map (Offer.element env))

theorem Offering.agrees (offering : Offering s p js offers) (env : Env)
    : jingleSendSessionAccept env p s
      = .done () (s.requested (js.ident p) (acceptIq env js offers) (some (.sessionAccept p)) 60
          true) := by
  rw [jingleSendSessionAccept, bind_done (readSession_done offering.listed),
    bind_done (lmMessageFromJinglesession_eq offering.announced .sessionAccept)]
  rfl

theorem acceptIq_parsed (env : Env) (js : JingleSession) (offers : List Offer) (fromJid : String)
    : ∃ jn, Parsed env ((acceptIq env js offers).stamped fromJid) js .sessionAccept fromJid offers
        jn := by
  obtain ⟨jn, requested, action, sid, sender, node⟩ := jingleRequest_stamped env js.recipient
    fromJid js.sid "session-accept"
    (element "jingle" [("xmlns", NS_JINGLE), ("action", "session-accept"), ("sid", js.sid)]
      (offers.map (Offer.element env))) rfl rfl rfl rfl rfl (by decide)
  obtain ⟨same, empty, _⟩ := jingleRequest_node requested
  refine ⟨jn, requested, action, sid, sender, ?_, ?_⟩
  · rw [same, LmMessage.getTo_stamped]
    rfl
  · exact checkContents_elements empty (by rw [node]; rfl)

theorem announced_names {content : List SessionContent}
    (announced : List.Forall₂ (Announces s) content offers)
    : content.map SessionContent.name = offers.map Offer.name := by
  induction announced with
  | nil => rfl
  | cons first _ ih => rw [List.map_cons, List.map_cons, first.name, ih]

theorem names_answers (env : Env) (w : World) (offers : List Offer)
    : ((offers.map (Offer.answer env w)).map (Offer.content env)).map JingleContent.name
      = offers.map Offer.name := by
  rw [List.map_map, List.map_map]
  rfl

/-- A session in which all contents of an offering session became ACTIVE offers the same. -/
theorem Offering.activate {s' : State} (offering : Offering s p js offers)
    (sessions : s'.sessions = s.sessions.modify p (fun js => js.activate))
    (infoList : s'.infoList = s.infoList) (transports : s'.transports = s.transports)
    : Offering s' p js.activate offers where
  listed := by
    rw [sessions, Pool.get?_modify_self, offering.listed]
    rfl
  found := by
    let g (content : List SessionContent) : List SessionContent :=
      content.map (fun sc => { sc with state := .active })
    have same : s'.sessions = (s.withContent p g).sessions := sessions
    have later := sessionFindBySid_withContent s p g js.sid (some js.recipient)
    rw [offering.found, Option.map_some, if_pos rfl] at later
    rw [sessionFindBySid, same]
    exact later
  announced := by
    refine List.forall₂_map_left_iff.mpr (offering.announced.imp (fun sc offer announces => ?_))
    have kept := announces.congr infoList transports
    exact ⟨kept.name, kept.appfuncs, kept.description, kept.transfuncs, kept.transport⟩

/-- What the first instance makes of the answer to its offers: all its contents are ACTIVE, and
each has what was offered.
-/
theorem Offering.accepted (offering : Offering s p js offers) (presented : Presented offers)
    {w' : World} {js' : JingleSession} (sid : js'.sid = js.sid) {message : LmMessage}
    {jn : JingleNode}
    (parsed : Parsed env message js' .sessionAccept js.recipient
      (offers.map (Offer.answer env w')) jn)
    : ∃ s', handleIq env w message s = .done () s' ∧ Offering s' p js.activate offers
        ∧ s'.sent = s.sent ++ [.reply message (message.newIqFromQuery .result)] := by
  let answers := offers.map (Offer.answer env w')
  let answered := s.replied message (message.newIqFromQuery .result)
  have same : jn.message = message := (jingleRequest_node parsed.requested).1
  have found : sessionFindBySid s jn.sid jn.message.getFrom = some (p, js) := by
    rw [parsed.sid, parsed.sender, sid]
    exact offering.found
  have small : ∀ answer ∈ answers, answer.stream.blocksize ≤ IBB_BLOCK_SIZE_MAX := by
    intro answer member
    obtain ⟨offer, there, rfl⟩ := List.mem_map.mp member
    exact (presented.blocksizes offer there).2
  have streams : ∀ answer ∈ answers, OverStream answered js answer := by
    intro answer member
    obtain ⟨offer, there, rfl⟩ := List.mem_map.mp member
    obtain ⟨sc, found, announces⟩ := find?_announces offering.announced presented.names there
    obtain ⟨t, carried, stream⟩ := announces.transport
    exact ⟨sc, t, offer.stream, found, announces.transfuncs, carried, stream, rfl⟩
  have listed : answered.sessions.get? p = some js := offering.listed
  obtain ⟨s', accepts, activates⟩ := acceptContents_activates env listed small streams
  have handles : handleSessionAccept env jn s = .done (checkContents jn).jn s' := by
    have acked : jingleAckIq jn.message s = .done () answered := by
      rw [same]
      rfl
    rw [handleSessionAccept, bind_get, found]
    dsimp only
    rw [parsed.checked, if_neg (by simp), bind_done acked]
    exact bind_done accepts
  have handled : actionHandler env w jn.action = some (handleSessionAccept env) := by
    rw [parsed.action]
    rfl
  have unfreed : (checkContents jn).jn.contentFreed = false := by
    rw [parsed.checked]
    exact (jingleRequest_node parsed.requested).2.2
  refine ⟨s', handleIq_jingle ?_, offering.activate ?_ activates.infoList activates.transports,
    activates.sent⟩
  · rw [jingleHandleIq_request parsed.requested handled, bind_done handles, jingleFreeJinglenode,
      unfreed]
    rfl
  · rw [activates.sessions]
    refine Pool.modify_congr (fun js₁ there => ?_)
    cases offering.listed.symm.trans there
    have names := names_answers env w' offers
    have all : activated (answers.map (Offer.content env)) js.content
        = js.content.map (fun sc => { sc with state := .active }) := by
      apply activated_all
      · rw [names, announced_names offering.announced]
      · rw [names]
        exact presented.names
    rw [all, JingleSession.activate]

-----------------------------------------------------------------------------------------
-- Both ways
-----------------------------------------------------------------------------------------

/-- What the second instance has for an offer: the same name, size and hash, the file in its
download directory, and the same stream with the same block size.
-/
structure Understood (env : Env) (w : World) (r : State) (offer : Offer) (sc : SessionContent)
    : Prop where
  name : sc.name = offer.name
  file : ∃ d jft, sc.description = some d ∧ r.infoList.get? d = some jft
    ∧ jft.name = gBuildFilename (FileTransfer.downloadDir w) offer.transfer.name
    ∧ jft.size = offer.transfer.size ∧ jft.hash = offer.transfer.hash
  stream : ∃ t jibb, sc.transport = some t ∧ r.transports.get? t = some (.ibb jibb)
    ∧ jibb.sid = offer.stream.sid ∧ jibb.blocksize = offer.stream.blocksize

theorem Announces.understood (documented : PathsDocumented env) {offer : Offer}
    {sc : SessionContent} (announces : Announces r sc (offer.answer env w))
    : Understood env w r offer sc := by
  obtain ⟨d, described, there⟩ := announces.description
  obtain ⟨t, carried, there'⟩ := announces.transport
  exact ⟨announces.name,
    ⟨d, offer.received env w, described, there, documented.join _ _, rfl, rfl⟩,
    ⟨t, offer.accepted, carried, there', rfl, rfl⟩⟩

/-- An IQ that one instance sent is handled by the other, which found nothing wrong with its
contents.
-/
def TakenIntact (env : Env) (w : World) (fromJid : String) (iq : LmMessage) (s s' : State)
    : Prop :=
  handleIq env w (iq.stamped fromJid) s = .done () s'
  ∧ ∃ jn, jingleRequest env (iq.stamped fromJid) = some jn ∧ (checkContents jn).ok = true
    ∧ (checkContents jn).err = none

/-- The session that the second instance made of the offers. -/
structure Opened (env : Env) (w : World) (r : State) (q : SessionPtr) (js : JingleSession)
    (offers : List Offer) (content : List SessionContent)
    : Prop where
  understood : List.Forall₂ (Understood env w r) offers content
  offering : Offering r q (js.mirror content) (offers.map (Offer.answer env w))

/-- From any states in which the two sessions still have what was offered: the second instance
can accept, and then the contents of the first are ACTIVE and have what they had.
-/
def Concludes (env : Env) (w w' : World) (p q : SessionPtr) (js : JingleSession)
    (offers : List Offer) (content : List SessionContent)
    : Prop :=
  ∀ r s, Opened env w' r q js offers content → Offering s p js offers →
    ∃ r' answer, jingleSendSessionAccept env q r = .done () r'
      ∧ r'.requests q = r.requests q ++ [answer]
      ∧ Opened env w' r' q js offers content
      ∧ ∃ s', TakenIntact env w js.toJid answer s s' ∧ Offering s' p js.activate offers

theorem Offering.congr {s' : State} (offering : Offering s p js offers)
    (sessions : s'.sessions = s.sessions) (infoList : s'.infoList = s.infoList)
    (transports : s'.transports = s.transports)
    : Offering s' p js offers where
  listed := sessions ▸ offering.listed
  found := by
    rw [sessionFindBySid, sessions]
    exact offering.found
  announced := offering.announced.imp (fun _ _ announces => announces.congr infoList transports)

theorem Offering.opened (documented : PathsDocumented env) {content : List SessionContent}
    (offering : Offering r q (js.mirror content) (offers.map (Offer.answer env w)))
    : Opened env w r q js offers content := by
  refine ⟨?_, offering⟩
  have announced := List.forall₂_map_right_iff.mp offering.announced
  exact announced.flip.imp (fun offer sc announces => announces.understood documented)

theorem concludes (documented : PathsDocumented env) (outgoing : js.origin = .outgoing)
    (presented : Presented offers) (w w' : World) (p q : SessionPtr)
    (content : List SessionContent)
    : Concludes env w w' p q js offers content := by
  intro r s opened offering
  let mirror := js.mirror content
  let answers := offers.map (Offer.answer env w')
  have sent := opened.offering.agrees env
  have later : Offering (r.requested (mirror.ident q) (acceptIq env mirror answers)
      (some (.sessionAccept q)) 60 true) q mirror answers := opened.offering.congr rfl rfl rfl
  refine ⟨_, _, sent, State.requests_requested _ _, later.opened documented, ?_⟩
  have peer : js.recipient = js.toJid := by rw [JingleSession.recipient, outgoing]
  obtain ⟨jn, parsed⟩ := acceptIq_parsed env mirror answers js.recipient
  have sid : mirror.sid = js.sid := rfl
  obtain ⟨s', handled, accepted, _⟩ := offering.accepted presented sid parsed
  rw [peer] at handled parsed
  refine ⟨s', ⟨handled, jn, parsed.requested, ?_, ?_⟩, accepted⟩
  · rw [parsed.checked]
  · rw [parsed.checked]

/-- The session-initiate can be sent, the second instance makes a session of what it offers, and
its answer is understood in turn.
-/
def RoundTrips (env : Env) (w w' : World) (s : State) (p : SessionPtr) (js : JingleSession)
    (offers : List Offer) (r : State)
    : Prop :=
  ∃ s' iq, jingleSendSessionInitiate env w p s = .done () s'
    ∧ s'.requests p = s.requests p ++ [iq] ∧ Offering s' p js offers
    ∧ ∃ r' content, TakenIntact env w' js.fromJid iq r r'
      ∧ r'.sessions.get? r.sessions.next = some (js.mirror content)
      ∧ Opened env w' r' r.sessions.next js offers content
      ∧ Concludes env w w' p r.sessions.next js offers content

/-- What a session of ours offers, a second instance makes a session of, content by content; and
when that one accepts, the first goes on with what it offered.
-/
theorem offers_understood (env : Env) (documented : PathsDocumented env)
    (offering : Offering s p js offers) (outgoing : js.origin = .outgoing)
    (presented : Presented offers) (jids : env.checkJidSyntax js.fromJid = false)
    (sendOk : w.sendOk = true) (reached : Reachable env r) {w' : World}
    (receptive : Receptive env w' r js)
    : RoundTrips env w w' s p js offers r := by
  have sendable : ∀ offer ∈ offers, Sendable env w' offer.transfer :=
    fun offer member => presented.sendable documented w' member
  refine ⟨_, _, offering.initiates env sendOk, State.requests_requested _ _,
    offering.congr rfl rfl rfl, ?_⟩
  obtain ⟨jn, parsed⟩ := initiateIq_parsed env js offers jids
  obtain ⟨r', content, handled, opens⟩ :=
    receptive.opens reached outgoing presented sendable parsed
  refine ⟨r', content, ⟨handled, jn, parsed.requested, ?_, ?_⟩, opens.listed,
    opens.opened documented, concludes documented outgoing presented w w' p _ content⟩
  · rw [parsed.checked]
  · rw [parsed.checked]

-----------------------------------------------------------------------------------------
-- What `/jft send` offers
-----------------------------------------------------------------------------------------

/-- The offer of a transfer over a new stream. -/
def freshOffer (w : World) (jft : JingleFT) : Offer where
  name := "file"
  transfer := jft
  stream := {
    blocksize := IBB_BLOCK_SIZE_MAX
    sid := w.generateTransportSid
    buf := []
    sizeBuf := 0
    bufFreed := false
    seq := 0
  }

/-- The session of such an offer. -/
def freshSession (w : World) (s : State) (recipientjid : String) (d : FtPtr) : JingleSession :=
  { offerSession w recipientjid with
    content := [readyContent .fileTransfer { name := "file", data := d, ns := NS_JINGLE_APP_FT }
      NS_JINGLE_TRANSPORT_IBB .ibb s.transports.next] }

/-- The session that is made for a transfer offers it. -/
theorem offering_fresh (w : World) {jft : JingleFT} {d : FtPtr} (recipientjid : String)
    (there : s.infoList.get? d = some jft)
    (fresh : ∀ cell ∈ s.sessions.cells, cell.2.sid ≠ w.generateSid)
    : Offering ((s.allocating (JingleTransportFuncs.ibb.fresh w s)).opening
        (freshSession w s recipientjid d)) s.sessions.next (freshSession w s recipientjid d)
        [freshOffer w jft] where
  listed := State.opening_listed _ _
  found := sessionFindBySid_last (r := s) fresh rfl
  announced := by
    refine .cons ⟨rfl, rfl, ⟨d, rfl, there⟩, rfl, ⟨s.transports.next, rfl, ?_⟩⟩ .nil
    exact Pool.get?_alloc_self _ _

/-- A file of plain name and a size of 64 bits can be presented. -/
theorem presented_fresh (w : World) {jft : JingleFT} (kind : jft.type = .offer)
    (plain : PlainName jft.name) (size : (jft.size : Int) ≤ G_MAXINT64) (unhashed : jft.hash = none)
    : Presented [freshOffer w jft] where
  nonempty := List.cons_ne_nil _ _
  names := List.nodup_singleton _
  streams := List.nodup_singleton _
  kinds := by
    intro offer member
    rw [List.mem_singleton.mp member]
    exact kind
  files := by
    intro offer member
    rw [List.mem_singleton.mp member]
    exact plain
  sizes := by
    intro offer member
    rw [List.mem_singleton.mp member]
    exact size
  hashes := by simp [freshOffer, unhashed]
  blocksizes := by simp [freshOffer, IBB_BLOCK_SIZE_MAX]

/-- A file of four bytes that is offered to a peer. -/
def notesFile : JingleFT :=
  { offeredFile 4 with name := "notes", dir := .outgoing, outfile := some (.reading fourBytes) }

/-- Four bytes are offered to an instance that was just loaded. -/
theorem offers_understood_notes
    : RoundTrips pathEnv (offeringWorld fourBytes) plainWorld
        (((loaded.listing notesFile).allocating
          (JingleTransportFuncs.ibb.fresh (offeringWorld fourBytes)
            (loaded.listing notesFile))).opening
          (freshSession (offeringWorld fourBytes) (loaded.listing notesFile) "romeo@verona/a" 1))
        0 (freshSession (offeringWorld fourBytes) (loaded.listing notesFile) "romeo@verona/a" 1)
        [freshOffer (offeringWorld fourBytes) notesFile] loaded := by
  have there : (loaded.listing notesFile).infoList.get? 1 = some notesFile :=
    Pool.get?_alloc_self _ _
  have plain : PlainName notesFile.name := ⟨⟨by decide, by decide⟩, by decide, by decide⟩
  have offering := offering_fresh (offeringWorld fourBytes) "romeo@verona/a" there
    (fun cell member => by cases member)
  exact offers_understood pathEnv pathEnv_documented offering rfl
    (presented_fresh _ rfl plain (by decide) rfl) rfl rfl (loaded_reached pathEnv _)
    ⟨⟨rfl, rfl⟩, rfl, fun cell member => by cases member⟩

end McabberJingle
