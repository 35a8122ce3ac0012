import McabberJingle.Effects.Dialogue
import McabberJingle.Effects.Filing
import McabberJingle.Guarantees.Exchange
import McabberJingle.Guarantees.RoundTrip
import McabberJingle.Guarantees.StreamTable

/-! From the command to the file: `/jft send` at one instance, the question at another one, the
answer back, and then the packets, until the file is there.
-/

namespace McabberJingle

open Program Program.Prog

variable {env : Env} {w : World} {s s' r : State}

-----------------------------------------------------------------------------------------
-- The command
-----------------------------------------------------------------------------------------

/-- A usable file with these reads, and somebody to send it to. -/
structure CanSend (w : World) (peer : String) (mtime : Int) (reads : List ReadResult) : Prop where
  file : w.file = some {
    regular := true
    mtime
    size := (fileBytes reads).length
    opened := some reads
    encoded := true
  }
  recipient : offerRecipient w = some peer
  sendOk : w.sendOk = true

/-- What `/jft send` lists for such a file. -/
def sentFile (env : Env) (name : String) (mtime : Int) (reads : List ReadResult) : JingleFT where
  date := mtime
  hash := none
  name := env.pathGetBasename (env.expandFilename name)
  size := (fileBytes reads).length
  transmit := 0
  outfile := some (.reading reads)
  type := .offer
  dir := .outgoing
  state := .pending
  desc := some name
  md5 := .null

/-- The modules that a file is offered with. -/
structure OffersIbb (s : State) : Prop extends Equipped s where
  chosen : transportForApp s NS_JINGLE_APP_FT = some NS_JINGLE_TRANSPORT_IBB

/-- The session that the file is offered in. -/
def sentSession (env : Env) (w : World) (s : State) (peer name : String) (mtime : Int)
    (reads : List ReadResult)
    : JingleSession :=
  freshSession w (s.listing (sentFile env name mtime reads)) peer s.infoList.next

section Command

variable {peer name : String} {mtime : Int} {reads : List ReadResult}

/-- The file is found, and listed with its size and its reads. -/
theorem new_finds (can : CanSend w peer mtime reads) (name : String)
    : FileTransfer.new env w name s
      = .done (some s.infoList.next) (s.listing (sentFile env name mtime reads)) := by
  let listed : JingleFT :=
    { sentFile env name mtime reads with date := 0, size := 0, outfile := none }
  have lists : FileTransfer.listTransfer listed s = .done s.infoList.next (s.listing listed) := rfl
  refine (bind_done lists).trans ?_
  rw [can.file]
  dsimp only
  rw [if_pos rfl, bind_done (FileTransfer.modifyFt_listing _ _ _),
    bind_done (FileTransfer.modifyFt_listing _ _ _), if_pos rfl]
  rfl

/-- The state in which the session-initiate is sent. -/
def State.offered (s : State) (env : Env) (w : World) (peer name : String) (mtime : Int)
    (reads : List ReadResult)
    : State :=
  let listed := s.listing (sentFile env name mtime reads)
  (listed.allocating (JingleTransportFuncs.ibb.fresh w listed)).opening
    (sentSession env w s peer name mtime reads)

/-- The session that the command makes offers the file. -/
theorem offered_offering (w : World) (idle : s.sessions.cells = []) (peer name : String)
    (mtime : Int) (reads : List ReadResult)
    : Offering (s.offered env w peer name mtime reads) s.sessions.next
        (sentSession env w s peer name mtime reads)
        [freshOffer w (sentFile env name mtime reads)] := by
  have there : (s.listing (sentFile env name mtime reads)).infoList.get? s.infoList.next
      = some (sentFile env name mtime reads) :=
    Pool.get?_alloc_self _ _
  refine offering_fresh w peer there (fun cell member => ?_)
  have member : cell ∈ s.sessions.cells := member
  rw [idle] at member
  cases member

/-- `/jft send` with a file and a buddy sends one session-initiate. -/
theorem jftSend_offers (can : CanSend w peer mtime reads) (name : String) (equipped : OffersIbb s)
    (idle : s.sessions.cells = [])
    : jftSend env w (some name) s
      = .done () ((s.offered env w peer name mtime reads).requested
          ((sentSession env w s peer name mtime reads).ident s.sessions.next)
          (initiateIq env (sentSession env w s peer name mtime reads)
            [freshOffer w (sentFile env name mtime reads)])
          (some (.sessionInitiate s.sessions.next)) 60 true) := by
  have elsewhere : ∀ cell ∈ (s.listing (sentFile env name mtime reads)).sessions.cells,
      ∀ sc ∈ cell.2.content, sc.description ≠ some s.infoList.next := by
    intro cell member
    have member : cell ∈ s.sessions.cells := member
    rw [idle] at member
    cases member
  have sends := jftSendTransfer_eq env (s := s.listing (sentFile env name mtime reads))
    can.recipient equipped.app equipped.chosen equipped.trans elsewhere
  rw [jftSend, bind_done (new_finds can name)]
  dsimp only
  rw [sends]
  exact (offered_offering w idle peer name mtime reads).initiates env can.sendOk

end Command

-----------------------------------------------------------------------------------------
-- The invitation
-----------------------------------------------------------------------------------------

/-- What a session-initiate leaves at the instance that gets it: the session, with its streams in
the table, and a question to the user.
-/
structure Invited (env : Env) (w : World) (r r' : State) (message : LmMessage) (js : JingleSession)
    (offers : List Offer) (content : List SessionContent)
    : Prop where
  handled : handleIq env w message r = .done () r'
  step : Step env r (w, .jingleIq message) r'
  offering : Offering r' r.sessions.next (js.mirror content) (offers.map (Offer.answer env w))
  asked : ∃ id, r'.events.get? id = some r.sessions.next
  sent : r'.sent = r.sent ++ [.reply message (message.newIqFromQuery .result)]
  streams : ∀ sc ∈ content, ∃ sid t, Ibb.lookup r' sid = some t
    ∧ OwnsStream r' sid t r.sessions.next sc

section Invitation

variable {js : JingleSession} {offers : List Offer} {message : LmMessage} {jn : JingleNode}

/-- A request that was handled was taken by its handler. -/
theorem handleIq_taken {handler : JingleNode → Run JingleNode} {r' : State}
    (valid : jingleRequest env message = some jn)
    (handled : actionHandler env w jn.action = some handler)
    (run : handleIq env w message r = .done () r')
    : Step env r (w, .jingleIq message) r' ∧ ∃ jn', handler jn r = .done jn' r' := by
  obtain ⟨result, r₁, first, rest⟩ := of_bind_done run
  have taken : result = .removeMessage := by
    rw [jingleHandleIq_request valid handled] at first
    obtain ⟨_, _, _, first⟩ := of_bind_done first
    obtain ⟨_, _, _, first⟩ := of_bind_done first
    cases first
    rfl
  subst taken
  have same : r₁ = r' := by
    rw [if_neg (by decide)] at rest
    cases rest
    rfl
  subst same
  refine ⟨⟨trivial, ?_⟩, jingleHandleIq_ends valid handled first⟩
  change (jingleHandleIq env w message >>= _) r = _
  rw [bind_done first]
  rfl

theorem Receptive.invites (receptive : Receptive env w r js) (reached : Reachable env r)
    (asks : w.evsNew = true) (outgoing : js.origin = .outgoing) (presented : Presented offers)
    (sendable : ∀ offer ∈ offers, Sendable env w offer.transfer)
    (parsed : Parsed env message js .sessionInitiate js.fromJid offers jn)
    : ∃ r' content, Invited env w r r' message js offers content := by
  have layout := layout_reached reached
  have passes := receptive.admits presented parsed
  obtain ⟨r', content, run, offering⟩ :=
    receptive.opens reached outgoing presented sendable parsed
  have handled : actionHandler env w jn.action = some (handleSessionInitiate env w) := by
    rw [parsed.action]
    rfl
  obtain ⟨step, jn', runs⟩ := handleIq_taken parsed.requested handled run
  obtain ⟨fromJid, toJid, made, r₁, served⟩ := handleSessionInitiate_served layout passes runs
  have filled : made ≠ [] := by
    rintro rfl
    have gone : r'.sessions.get? r.sessions.next = none := by
      rw [served.settled, State.settling, if_pos rfl]
      exact Pool.get?_erase_self _ _
    rw [offering.listed] at gone
    cases gone
  have settled : r' = { r₁ with events := r₁.events.alloc r.sessions.next } := by
    rw [served.settled, State.settling, if_neg filled, State.asking, if_pos asks]
  refine ⟨r', content, run, step, offering, ⟨r₁.events.next, ?_⟩, ?_, ?_⟩
  · rw [settled]
    exact Pool.get?_alloc_self _ _
  · have sent : r'.sent = r₁.sent := by rw [settled]
    rw [sent, served.making.built.sent, ← (jingleRequest_node parsed.requested).1]
    rfl
  · obtain ⟨passable, absent⟩ := refusal_eq_none_iff.mp passes
    have opens : (Input.jingleIq message).invitation env w r = some jn := by
      rw [Input.invitation, Input.request, parsed.requested]
      simp [Option.filter, parsed.action, passable, absent]
    obtain ⟨_, _, content', _, _, filling⟩ := invitation_filled layout opens step
    intro sc member
    have some : content' ≠ [] := by
      rintro rfl
      have gone := filling.deleted rfl
      rw [offering.listed] at gone
      cases gone
    have same := congrArg JingleSession.content
      (Option.some.inj (offering.listed.symm.trans (filling.listed some)))
    have same : content = content' := same
    subst same
    obtain ⟨offer, _, announces⟩ := forall₂_mem_left offering.announced member
    obtain ⟨cn, _, fills⟩ := forall₂_mem_right filling.complete.fills member
    obtain ⟨sid, t, _, entered, owns⟩ := filling.owns rfl member fills announces.transfuncs
    exact ⟨sid, t, entered, owns⟩

end Invitation

-----------------------------------------------------------------------------------------
-- The answers
-----------------------------------------------------------------------------------------

/-- The state after an invitation was accepted. -/
def State.accepting (r : State) (env : Env) (id : Nat) (q : SessionPtr) (js : JingleSession)
    (offers : List Offer)
    : State :=
  { r.requested (js.ident q) (acceptIq env js offers) (some (.sessionAccept q)) 60 true with
    accepted := r.accepted ++ [q]
    events := r.events.erase id }

/-- The user accepts, and the session-accept goes out. -/
theorem Offering.accepts {q : SessionPtr} {js : JingleSession} {offers : List Offer}
    (offering : Offering r q js offers) (env : Env) (w : World) {id : Nat}
    (pending : r.events.get? id = some q)
    : Step env r (w, .event id .accept) (r.accepting env id q js offers) := by
  let decided : State := { r with accepted := r.accepted ++ [q] }
  have offering' : Offering decided q js offers := offering.congr rfl rfl rfl
  refine ⟨by rw [Enabled, pending]; rfl, ?_⟩
  have answered : evscallbackJingle env .accept q r = .done ()
      (decided.requested (js.ident q) (acceptIq env js offers) (some (.sessionAccept q)) 60
        true) := by
    rw [evscallbackJingle, bind_done (readSession_done offering.listed)]
    exact offering'.agrees env
  have known : alive .session (r.events.get? id) r = .done q r := by
    rw [pending]
    rfl
  change (do
    let js ← alive .session (r.events.get? id)
    evscallbackJingle env .accept js
    Prog.modify (fun s => { s with events := s.events.erase id }) : Run Unit) r = _
  rw [bind_done known, bind_done answered]
  rfl

/-- The callbacks of the two requests that open a session. -/
def AckCallback.Opens (callback : AckCallback) : Prop :=
  ∃ p, callback = .sessionInitiate p ∨ callback = .sessionAccept p

/-- A result for one of these requests is noted, and that is all. -/
theorem result_noted {ah : AckPtr} {handle : JingleAckHandle} {callback : AckCallback}
    (id : ah ∈ s.idHandlers) (there : s.ackHandlers.get? ah = some handle)
    (known : handle.callback = some callback) (opens : callback.Opens) (w : World)
    {message : LmMessage} (result : message.subType = .result)
    : Step env s (w, .reply ah message) ((s.fire ah).answered ah) := by
  refine ⟨id, reply_runs there known ?_⟩
  obtain ⟨p, rfl | rfl⟩ := opens
  · change deleteOnReply w p message (s.fire ah) = _
    rw [deleteOnReply, if_pos result]
    rfl
  · change deleteOnReply w p message (s.fire ah) = _
    rw [deleteOnReply, if_pos result]
    rfl

/-- Nothing was sent. -/
theorem State.sentUntil_same {s s' : State} (sent : s'.sent = s.sent) (asked : Option AckPtr)
    : s.sentUntil s' asked = [] := by
  rw [State.sentUntil, sent, List.drop_length]
  rfl

/-- The answer to the only request in which something is asked is taken. -/
theorem request_noted (env : Env) {ident : SessionIdent} {ask : Ask}
    (asked : Asked ident s s' [ask])
    {callback : AckCallback} (known : ask.callback = some callback) (opens : callback.Opens)
    (w : World) (peer : String) (answer : LmMessage) (result : answer.subType = .result)
    : Handles env peer s' w (.answer ask.ah answer) ((s'.fire ask.ah).answered ask.ah) [] := by
  obtain ⟨id, handle, there, same⟩ := asked.waits (List.mem_singleton_self ask)
  have sent : ((s'.fire ask.ah).answered ask.ah).sent = s'.sent := rfl
  exact ⟨result_noted id there (same.trans known) opens w result,
    (State.sentUntil_same sent none).symm⟩

-----------------------------------------------------------------------------------------
-- The two ends
-----------------------------------------------------------------------------------------

/-- No session but `p` is listed. -/
def Alone (p : SessionPtr) (s : State) : Prop := ∀ cell ∈ s.sessions.cells, cell.1 = p

/-- Everything is allowed but to open sessions. -/
def Rights.unopened : Rights := { Rights.all with openSession := fun _ _ => False }

theorem alone_stable (p : SessionPtr) : Stable .unopened (Alone p) := by
  intro s s' alone effect
  cases effect with
  | content q js g listed change =>
      intro cell member
      obtain ⟨old, there, rfl⟩ := Pool.mem_modify.mp member
      split <;> exact alone old there
  | openSession js empty allowed => exact allowed.elim
  | close q allowed => exact fun cell member => alone cell (Pool.mem_erase.mp member).1
  | finish q js reason listed allowed =>
      exact fun cell member => alone cell (Pool.mem_erase.mp member).1
  | _ => exact alone

/-- No packet of the session waits for its answer. -/
def Unawaited (p : SessionPtr) (s : State) : Prop :=
  ∀ ah handle ref, s.ackHandlers.get? ah = some handle → handle.callback = some (.ibbSend ref) →
    ref.owner ≠ p

/-- No packet of a session was ever sent before it was there. -/
theorem unawaited_new (run : Reachable env s) : Unawaited s.sessions.next s := by
  let v : Speech := { utters := fun _ _ => True, serves := fun _ => True }
  have speak : MaySpeak env v := by
    constructor <;> intros <;> trivial
  have awaits : Awaits v.serves s := by
    refine (spoken_reached run ?_).2
    rintro s ⟨w, input⟩ _ _ enabled
    cases input with
    | jingleIq message => exact fun _ _ => trivial
    | ibbIq message => trivial
    | reply ah message => exact speak
    | tick => exact speak
    | wait seconds => trivial
    | event id context => exact fun _ _ => ⟨fun _ _ _ _ _ => trivial, fun _ _ _ => trivial⟩
    | transportInitialize correct ref =>
        obtain ⟨content, found, _⟩ := (Option.any_eq_true _ _).mp enabled
        obtain ⟨js, listed, _⟩ := Option.bind_eq_some_iff.mp found
        exact ⟨speak, refers_of_listed ref.name listed trivial⟩
    | jftSend arg => exact fun _ _ _ _ => trivial
    | jftRetry arg => exact fun _ _ _ _ => trivial
    | jftFlush => trivial
  intro ah handle ref there callback same
  obtain ⟨ident, owner, _, known, _⟩ := awaits ah handle ref there callback
  rw [owner, same] at known
  exact Nat.lt_irrefl _ known

theorem Unawaited.unanswered {p : SessionPtr} (unawaited : Unawaited p s)
    : s.unanswered p = [] := by
  refine List.map_eq_nil_iff.mpr (List.filter_eq_nil_iff.mpr (fun cell member => ?_))
  intro waits
  obtain ⟨ah, handle⟩ := cell
  have there : s.ackHandlers.get? ah = some handle := Pool.get?_eq_some_iff.mpr member
  unfold JingleAckHandle.awaitsData at waits
  split at waits
  · rename_i ref callback
    exact unawaited ah handle ref there callback (by simpa using waits)
  · cases waits

/-- A request of the peer lets no packet wait. -/
theorem Unawaited.handled {p : SessionPtr} (unawaited : Unawaited p s) {message : LmMessage}
    (step : Step env s (w, .jingleIq message) s')
    : Unawaited p s' := by
  let v : Speech := { utters := fun _ _ => True, serves := fun _ => False }
  have speaks : Speaks v (handleInput env w (.jingleIq message)) :=
    speaks_bind (jingleHandleIq_speaks env w message (fun _ _ => trivial)) (fun _ => speaks_pure _)
  have talks : Talks v s (handleInput env w (.jingleIq message)) := speaks.talks
  have ends : handleInput env w (.jingleIq message) s = .done () s' := step.2
  rw [Talks, wp, ends] at talks
  have spoke : Spoke v s s' := talks
  intro ah handle ref there callback
  rcases spoke.awaited ah handle ref there callback with before | ⟨_, _, none, _⟩
  · exact unawaited ah handle ref before callback
  · exact none.elim

section Ends

variable {p q : SessionPtr} {js : JingleSession} {offer : Offer}

/-- The session of the command is the only one. -/
theorem offered_alone (w : World) (idle : s.sessions.cells = []) (peer name : String)
    (mtime : Int) (reads : List ReadResult)
    : Alone s.sessions.next (s.offered env w peer name mtime reads) := by
  intro cell member
  rcases List.mem_append.mp member with before | new
  · have before : cell ∈ s.sessions.cells := before
    rw [idle] at before
    cases before
  · rw [List.mem_singleton.mp new]
    rfl

/-- A session-accept opens no session. -/
theorem Alone.accepting (alone : Alone p s) {message : LmMessage} {jn : JingleNode}
    (valid : jingleRequest env message = some jn) (accept : jn.action = .sessionAccept)
    (step : Step env s (w, .jingleIq message) s')
    : Alone p s' := by
  refine step.keeps (alone_stable p) alone ?_
  intro jn' valid'
  cases valid.symm.trans valid'
  refine ⟨?_, ?_, ?_, ?_⟩
  · intro initiate
    cases accept.symm.trans initiate
  · intro info
    cases accept.symm.trans info
  · exact fun _ _ _ _ _ _ =>
      ⟨trivial, trivial, fun _ _ _ => trivial, fun _ _ _ _ _ _ _ _ => trivial⟩
  · intro terminate
    cases accept.symm.trans terminate

/-- A session with one offer conveys it. -/
theorem Offering.conveys (offering : Offering s p js [offer])
    : ∃ sc d t, Conveys s p js sc d t ∧ s.infoList.get? d = some offer.transfer
        ∧ s.transports.get? t = some (.ibb offer.stream) := by
  obtain ⟨sc, rest, announces, none, only⟩ :=
    List.forall₂_cons_right_iff.mp offering.announced
  cases none
  obtain ⟨d, described, transfer⟩ := announces.description
  obtain ⟨t, carried, stream⟩ := announces.transport
  exact ⟨sc, d, t, ⟨offering.listed, offering.found, only, announces.appfuncs, described,
    announces.transfuncs, carried⟩, transfer, stream⟩

/-- A file that was not touched yet, over a stream that nothing went through. -/
structure Offer.Unsent (offer : Offer) (reads : List ReadResult) : Prop where
  outgoing : offer.transfer.dir = .outgoing
  reading : offer.transfer.outfile = some (.reading reads)
  uncounted : offer.transfer.transmit = 0
  empty : offer.stream.buf = []
  unnumbered : offer.stream.seq = 0
  unfreed : offer.stream.bufFreed = false

/-- When its offer was accepted, the first instance is ready. -/
theorem Offering.ready {reads : List ReadResult} (offering : Offering s p js.activate [offer])
    (outgoing : js.origin = .outgoing) (unsent : offer.Unsent reads) (unawaited : Unawaited p s)
    : ∃ x : ReadyTransfer, x.state = { s with starts := s.starts ++ [x.ref] } ∧ x.p = p
        ∧ x.js = js.activate ∧ x.ft = offer.transfer ∧ x.jibb = offer.stream ∧ x.reads = reads
        ∧ Enabled s (.transportInitialize true x.ref) := by
  obtain ⟨sc, d, t, conveys, transfer, stream⟩ := offering.conveys
  let x : ReadyTransfer := {
    state := { s with starts := s.starts ++ [{ owner := p, name := sc.name }] }
    p
    js := js.activate
    sc
    d
    t
    ft := offer.transfer
    jibb := offer.stream
    reads
    conveys := conveys.congr rfl
    origin := outgoing
    transfer
    outgoing := unsent.outgoing
    reading := unsent.reading
    uncounted := unsent.uncounted
    stream
    empty := unsent.empty
    unnumbered := unsent.unnumbered
    unfreed := unsent.unfreed
    idle := unawaited.unanswered
  }
  refine ⟨x, rfl, rfl, rfl, rfl, rfl, rfl, ?_⟩
  have active : sc.state = .active := by
    have member : sc ∈ js.activate.content := by
      rw [conveys.only]
      exact List.mem_singleton_self sc
    obtain ⟨_, _, rfl⟩ := List.mem_map.mp member
    rfl
  have found : sessionFindSessioncontent js.activate sc.name = some sc := by
    rw [sessionFindSessioncontent, conveys.only]
    simp
  change ((s.sessions.get? p).bind (fun js => sessionFindSessioncontent js sc.name)).any _ = true
  rw [offering.listed, Option.bind_some, found, Option.any_some, active]
  rfl

/-- The second instance awaits the file that it accepted. -/
theorem Offering.awaited {w' : World} {content : List SessionContent} {x : ReadyTransfer}
    (offering : Offering r q (js.mirror content) [offer.answer env w'])
    (layout : Layout r)
    (streams : ∀ sc ∈ content, ∃ sid t, Ibb.lookup r sid = some t ∧ OwnsStream r sid t q sc)
    (same : x.js = js.activate) (transfer : x.ft = offer.transfer) (stream : x.jibb = offer.stream)
    : ∃ y : AwaitedTransfer x, y.state = r ∧ y.q = q ∧ y.ft = offer.received env w' := by
  obtain ⟨sc, d, t, conveys, there, carries⟩ := offering.conveys
  have member : sc ∈ content := by
    have only : content = [sc] := conveys.only
    rw [only]
    exact List.mem_singleton_self sc
  obtain ⟨sid, t', entered, owns⟩ := streams sc member
  have carried : some t' = some t := (Prod.mk.inj owns.link).2.symm.trans conveys.transport
  cases carried
  obtain ⟨jibb, stored, ownSid⟩ := owns.stream
  cases carries.symm.trans stored
  have entered : Ibb.lookup r x.jibb.sid = some t := by
    rw [stream, ← entered, ← ownSid]
    rfl
  let y : AwaitedTransfer x := {
    state := r
    q
    js := js.mirror content
    sc
    d
    t
    ft := offer.received env w'
    conveys
    origin := rfl
    sid := by
      rw [same]
      rfl
    sender := by
      rw [same]
      rfl
    stream := entered
    carrier := owns.found layout
    transfer := there
    incoming := rfl
    size := by
      rw [transfer]
      rfl
    uncounted := rfl
    closed := rfl
    unsummed := rfl
  }
  exact ⟨y, rfl, rfl, rfl⟩

end Ends

-----------------------------------------------------------------------------------------
-- The handshake
-----------------------------------------------------------------------------------------

/-- A request about a session. -/
structure Stanza.Asks (stanza : Stanza) (action : JingleAction) (sid : String) : Prop where
  set : stanza.iq.subType = .set
  jingle : ∃ ah jnode, stanza = .request ah stanza.iq
    ∧ stanza.iq.node.getChild "jingle" = some jnode
    ∧ jnode.getAttribute "action" = some action.name ∧ jnode.getAttribute "sid" = some sid

/-- The result that acknowledges a request. -/
def Stanza.Grants (stanza request : Stanza) : Prop :=
  stanza = .answer request.ah stanza.iq ∧ stanza.iq.subType = .result

/-- `/jft send` at the first instance, the question at the second one, and its answer: the states
that both go through and the four stanzas between them, a session-initiate and a session-accept of
one session, and the result of each.
-/
structure Handshake (env : Env) (w w' : World) (peer name : String) (s r : State) where
  sid : String
  offered : State
  waiting : State
  started : State
  invited : State
  accepted : State
  awaiting : State
  invite : Stanza
  noted : Stanza
  accept : Stanza
  agreed : Stanza
  initiate : invite.Asks .sessionInitiate sid
  taken : noted.Grants invite
  acceptance : accept.Asks .sessionAccept sid
  confirmed : agreed.Grants accept
  offers : Step env s (w, .jftSend (some name)) offered ∧ s.sentUntil offered none = [invite]
  invites : Handles env w.myJid r w' invite invited [noted]
  notes : Handles env peer offered w noted waiting []
  accepts : ∃ id, Step env invited (w', .event id .accept) accepted
    ∧ invited.sentUntil accepted none = [accept]
  starts : Handles env peer waiting w accept started [agreed]
  agrees : Handles env w.myJid accepted w' agreed awaiting []

/-- What the handshake leaves at both. -/
structure Handshake.Leaves {w' : World} {peer name : String}
    (h : Handshake env w w' peer name s r) (p q : SessionPtr) (js : JingleSession) (offer : Offer)
    (content : List SessionContent)
    : Prop where
  started : Offering h.started p js.activate [offer]
  alone : Alone p h.started
  unawaited : Unawaited p h.started
  awaiting : Offering h.awaiting q (js.mirror content) [offer.answer env w']
  streams : ∀ sc ∈ content, ∃ sid t, Ibb.lookup h.awaiting sid = some t
    ∧ OwnsStream h.awaiting sid t q sc

section Handshake

variable {w' : World} {peer name : String}

theorem Handshake.reached_started (h : Handshake env w w' peer name s r) (run : Reachable env s)
    : Reachable env h.started :=
  h.starts.reached (h.notes.reached (.step run trivial h.offers.1))

theorem Handshake.reached_awaiting (h : Handshake env w w' peer name s r)
    (run : Reachable env r)
    : Reachable env h.awaiting := by
  obtain ⟨id, accepts, _⟩ := h.accepts
  exact h.agrees.reached (.step (h.invites.reached run) trivial accepts)

/-- A request after which nothing else was asked. -/
theorem requested_asked (s₁ : State) (old : s.KeepsOld)
    (handles : s₁.ackHandlers = s.ackHandlers) (ids : s₁.idHandlers = s.idHandlers)
    (sent : s₁.sent = s.sent) (ident : SessionIdent) (iq : LmMessage)
    (callback : Option AckCallback) (timeout : Nat)
    : Asked ident s (s₁.requested ident iq callback timeout true)
        [⟨s₁.ackHandlers.next, iq, callback⟩] :=
  (Asked.nothing old handles ids sent).requested iq callback timeout

theorem Unawaited.requested {p : SessionPtr} (s₁ : State) (unawaited : Unawaited p s)
    (handles : s₁.ackHandlers = s.ackHandlers) {callback : AckCallback} (opens : callback.Opens)
    (ident : SessionIdent) (iq : LmMessage) (timeout : Nat) (sendOk : Bool)
    : Unawaited p (s₁.requested ident iq (some callback) timeout sendOk) := by
  intro ah handle ref there known
  rcases Pool.get?_alloc_eq_some.mp there with ⟨_, rfl⟩ | before
  · obtain ⟨_, rfl | rfl⟩ := opens <;> cases known
  · exact unawaited ah handle ref (handles ▸ before) known

theorem Unawaited.noted {p : SessionPtr} (unawaited : Unawaited p s) (ah : AckPtr)
    : Unawaited p ((s.fire ah).answered ah) := by
  intro other handle ref there known
  have before : s.ackHandlers.get? other = some handle := (Pool.get?_erase_eq_some.mp there).2
  exact unawaited other handle ref before known

theorem initiate_asks (env : Env) (js : JingleSession) (offers : List Offer) (ah : AckPtr)
    : (Stanza.request ah (initiateIq env js offers)).Asks .sessionInitiate js.sid :=
  ⟨rfl, ah, _, rfl, rfl, rfl, rfl⟩

theorem accept_asks (env : Env) (js : JingleSession) (offers : List Offer) (ah : AckPtr)
    : (Stanza.request ah (acceptIq env js offers)).Asks .sessionAccept js.sid :=
  ⟨rfl, ah, _, rfl, rfl, rfl, rfl⟩

/-- The answer to an offer is granted: its content becomes ACTIVE, and the session stays alone with
nobody waiting for its packets.
-/
theorem Offering.starts {p : SessionPtr} {js js' : JingleSession} {offer : Offer}
    (offering : Offering s p js [offer]) (presented : Presented [offer]) (alone : Alone p s)
    (unawaited : Unawaited p s) (sid : js'.sid = js.sid) (w w' : World) (ah : AckPtr)
    : ∃ s', Handles env js.recipient s w (.request ah (acceptIq env js' [offer.answer env w'])) s'
          [.answer ah (((acceptIq env js' [offer.answer env w']).stamped
            js.recipient).newIqFromQuery .result)]
        ∧ Offering s' p js.activate [offer] ∧ Alone p s' ∧ Unawaited p s' := by
  obtain ⟨jn, parsed⟩ := acceptIq_parsed env js' [offer.answer env w'] js.recipient
  obtain ⟨s', handled, active, sent⟩ := offering.accepted presented sid parsed
  have taken := (handleIq_taken (w := w) parsed.requested (by rw [parsed.action]; rfl) handled).1
  exact ⟨s', ⟨handled, (State.sentUntil_replied sent _).symm⟩, active,
    alone.accepting parsed.requested parsed.action taken, unawaited.handled taken⟩

end Handshake

/-- What the two instances and their surroundings must be like for the command to work. -/
structure Arranged (env : Env) (w w' : World) (s r : State) (peer name : String) (mtime : Int)
    (reads : List ReadResult)
    : Prop where
  documented : PathsDocumented env
  jids : env.checkJidSyntax w.myJid = false
  can : CanSend w peer mtime reads
  plain : PlainName (env.pathGetBasename (env.expandFilename name))
  size : ((fileBytes reads).length : Int) ≤ G_MAXINT64
  equipped : OffersIbb s
  idle : s.sessions.cells = []
  receptive : Receptive env w' r (sentSession env w s peer name mtime reads)
  asks : w'.evsNew = true

section Arranged

variable {w' : World} {peer name : String} {mtime : Int} {reads : List ReadResult}

/-- The handshake takes place. -/
theorem Arranged.handshake (arranged : Arranged env w w' s r peer name mtime reads)
    (run : Reachable env s) (run' : Reachable env r)
    : ∃ (h : Handshake env w w' peer name s r) (content : List SessionContent),
        h.Leaves s.sessions.next r.sessions.next (sentSession env w s peer name mtime reads)
          (freshOffer w (sentFile env name mtime reads)) content := by
  let p := s.sessions.next
  let q := r.sessions.next
  let js := sentSession env w s peer name mtime reads
  let offer := freshOffer w (sentFile env name mtime reads)
  have presented : Presented [offer] :=
    presented_fresh w rfl arranged.plain arranged.size rfl
  have offering : Offering (s.offered env w peer name mtime reads) p js [offer] :=
    offered_offering w arranged.idle peer name mtime reads
  -- the command
  let offered := (s.offered env w peer name mtime reads).requested (js.ident p)
    (initiateIq env js [offer]) (some (.sessionInitiate p)) 60 true
  have offers : Step env s (w, .jftSend (some name)) offered :=
    ⟨trivial, jftSend_offers arranged.can name arranged.equipped arranged.idle⟩
  have asked : Asked (js.ident p) s offered
      [⟨s.ackHandlers.next, initiateIq env js [offer], some (.sessionInitiate p)⟩] :=
    requested_asked (s.offered env w peer name mtime reads) (keepsOld_reached run) rfl rfl rfl
      _ _ _ _
  -- the question
  obtain ⟨jn, parsed⟩ := initiateIq_parsed env js [offer] arranged.jids
  obtain ⟨invited, content, invitation⟩ := arranged.receptive.invites run' arranged.asks rfl
    presented (fun offer member => presented.sendable arranged.documented w' member) parsed
  obtain ⟨id, pending⟩ := invitation.asked
  -- the first instance knows that it arrived
  let waiting := (offered.fire s.ackHandlers.next).answered s.ackHandlers.next
  have notes := request_noted env asked rfl ⟨p, .inl rfl⟩ w peer
    (((initiateIq env js [offer]).stamped w.myJid).newIqFromQuery .result) rfl
  -- the user accepts
  let mirror := js.mirror content
  let answer := offer.answer env w'
  let accepted := invited.accepting env id q mirror [answer]
  have accepts := invitation.offering.accepts env w' pending
  have asked' : Asked (mirror.ident q) invited accepted
      [⟨invited.ackHandlers.next, acceptIq env mirror [answer], some (.sessionAccept q)⟩] :=
    (requested_asked invited (keepsOld_reached (handleIq_reached run' invitation.handled))
      rfl rfl rfl _ _ _ _).congr rfl rfl rfl
  -- the content becomes ACTIVE
  have alone : Alone p waiting := offered_alone w arranged.idle peer name mtime reads
  have unawaited : Unawaited p waiting :=
    ((unawaited_new run).requested (s.offered env w peer name mtime reads) rfl ⟨p, .inl rfl⟩
      _ _ _ _).noted _
  have still : Offering waiting p js [offer] := offering.congr rfl rfl rfl
  have sid : mirror.sid = js.sid := rfl
  obtain ⟨started, starts, active, alone', unawaited'⟩ :=
    still.starts presented alone unawaited sid w w' invited.ackHandlers.next
  -- the second instance knows that, too
  let awaiting := (accepted.fire invited.ackHandlers.next).answered invited.ackHandlers.next
  have agrees := request_noted env asked' rfl ⟨q, .inr rfl⟩ w' w.myJid
    (((acceptIq env mirror [answer]).stamped peer).newIqFromQuery .result) rfl
  let h : Handshake env w w' peer name s r := {
    offered
    waiting
    started
    invited
    accepted
    awaiting
    invite := _
    noted := _
    accept := _
    agreed := _
    sid := js.sid
    initiate := initiate_asks env js [offer] s.ackHandlers.next
    taken := ⟨rfl, rfl⟩
    acceptance := accept_asks env mirror [answer] invited.ackHandlers.next
    confirmed := ⟨rfl, rfl⟩
    offers := ⟨offers, asked.sentUntil⟩
    invites := ⟨invitation.handled, (State.sentUntil_replied invitation.sent _).symm⟩
    notes
    accepts := ⟨id, accepts, asked'.sentUntil⟩
    starts
    agrees
  }
  refine ⟨h, content, active, alone', unawaited', ?_, ?_⟩
  · exact invitation.offering.congr rfl rfl rfl
  · intro sc member
    obtain ⟨sid, t, entered, owns⟩ := invitation.streams sc member
    exact ⟨sid, t, entered, ⟨owns.member, owns.link, owns.stream⟩⟩

end Arranged

-----------------------------------------------------------------------------------------
-- From the command to the file
-----------------------------------------------------------------------------------------

/-- After the handshake the first instance is ready to send the file, the second one awaits it
under its plain name in the download directory, and it gets there in every order in which the
packets and their answers may arrive.
-/
structure Handshake.Transfers {w' : World} {peer name : String}
    (h : Handshake env w w' peer name s r) (reads : List ReadResult) (x : ReadyTransfer)
    (y : AwaitedTransfer x)
    : Prop where
  sender : x.state = { h.started with starts := h.started.starts ++ [x.ref] }
  receiver : y.state = h.awaiting
  file : x.file = fileBytes reads
  stored : y.ft.name = gBuildFilename (FileTransfer.downloadDir w')
    (env.pathGetBasename (env.expandFilename name))
  begins : ∃ link, Begins env x y h.started link
  delivers : ∀ link, Exchange env x y h.started link → Delivers env y link
  settles : ∀ link, Exchange env x y h.started link →
    ∃ last, Exchange env x y h.started last ∧ last.Quiet
      ∧ Link.Runs (fun first => first = link) (Handles env x.js.toJid)
        (HandlesSmoothly env x.js.fromJid) last

/-- `/jft send` gets the file to an instance that is willing. -/
theorem offered_file_arrives (env : Env) {w w' : World} {peer name : String} {mtime : Int}
    {reads : List ReadResult} (arranged : Arranged env w w' s r peer name mtime reads)
    (run : Reachable env s) (run' : Reachable env r) (steady : Steady reads)
    (inverse : ∀ bytes, env.base64Decode (env.base64Encode bytes) = bytes)
    : ∃ (h : Handshake env w w' peer name s r) (x : ReadyTransfer) (y : AwaitedTransfer x),
        h.Transfers reads x y := by
  obtain ⟨h, content, leaves⟩ := arranged.handshake run run'
  have unsent : (freshOffer w (sentFile env name mtime reads)).Unsent reads :=
    ⟨rfl, rfl, rfl, rfl, rfl, rfl⟩
  obtain ⟨x, state, p, js, ft, jibb, same, enabled⟩ :=
    leaves.started.ready rfl unsent leaves.unawaited
  obtain ⟨y, receiver, _, awaited⟩ := leaves.awaiting.awaited
    (layout_reached (h.reached_awaiting run')) leaves.streams js ft jibb
  subst same
  have begun := h.reached_started run
  have alone : ∀ cell ∈ h.started.sessions.cells, cell.1 = x.p := p ▸ leaves.alone
  have positive : 0 < x.jibb.blocksize := by
    rw [jibb]
    exact Nat.succ_pos _
  have offered : x.ft.size = x.file.length := by
    rw [ft]
    rfl
  have delivers (link : Link State State Stanza Stanza) (exchange : Exchange env x y h.started link)
      : Delivers env y link :=
    exchange_delivers begun state alone steady positive offered inverse exchange
  refine ⟨h, x, y, state, receiver, rfl, ?_, ?_, delivers, ?_⟩
  · rw [awaited]
    exact arranged.documented.join _ _
  · exact exists_begins begun state alone steady positive enabled
  · exact fun link exchange => exchange_settles inverse delivers exchange

/-- Library functions as documented. -/
def documentedEnv : Env :=
  { fileEnv with pathGetBasename := gPathGetBasename, buildFilename := gBuildFilename }

/-- Four bytes are sent to an instance that was just loaded. -/
theorem offered_file_arrives_fourBytes
    : ∃ (h : Handshake documentedEnv (offeringWorld fourBytes) plainWorld "romeo@verona/a" "notes"
          loaded loaded) (x : ReadyTransfer) (y : AwaitedTransfer x),
        h.Transfers fourBytes x y := by
  have arranged : Arranged documentedEnv (offeringWorld fourBytes) plainWorld loaded loaded
      "romeo@verona/a" "notes" 0 fourBytes := {
    documented := ⟨fun _ => rfl, fun _ _ => rfl⟩
    jids := rfl
    can := ⟨rfl, rfl, rfl⟩
    plain := ⟨⟨by decide, by decide⟩, by decide, by decide⟩
    size := by decide
    equipped := { app := rfl, trans := rfl, chosen := rfl }
    idle := rfl
    receptive := ⟨⟨rfl, rfl⟩, rfl, fun cell member => by cases member⟩
    asks := rfl
  }
  exact offered_file_arrives documentedEnv arranged (loaded_reached documentedEnv _)
    (loaded_reached documentedEnv _) (.normal rfl (.eof rfl)) Base64.decode_encode

end McabberJingle
