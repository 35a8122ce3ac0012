import McabberJingle.Jingle.Contents
import McabberJingle.Jingle.Dispatch

/-! The changes the code makes to its state, one constructor for each kind, with what the
code has established where it makes them. An invariant kept by every kind of change is kept
by every function; which objects a function may touch is a parameter.
-/

namespace McabberJingle

open Program

/-- The objects a stretch of code may touch, and what it may do with them. -/
structure Rights where
  /-- contents of the session may become ACTIVE -/
  activate : SessionPtr → Prop
  /-- contents may be appended to the session -/
  grow : SessionPtr → Prop
  /-- contents of the session may be filled and dropped again -/
  build : SessionPtr → Prop
  /-- a content of the session may get this description -/
  describe : SessionPtr → FtPtr → Prop
  /-- a content of the session may get this transport -/
  carry : SessionPtr → TransportPtr → Prop
  /-- the state of the session's contents may change, or a content be unlinked -/
  change : SessionPtr → Prop
  drop : SessionPtr → String → Prop
  /-- the session may be created in this state -/
  openSession : State → JingleSession → Prop
  close : SessionPtr → Prop
  ft : FtPtr → Prop
  newFt : JingleFTDirection → Prop
  /-- the transfer may be deleted once it is over -/
  flush : FtPtr → Prop
  disk : FtPtr → Prop
  transport : TransportPtr → Prop
  /-- an in-band stream may get this block size -/
  blockSize : Nat → Prop
  stream : String → Prop
  /-- IQs for the session may go to its `to` -/
  outward : SessionIdent → Prop
  /-- the session may be told to end and stay listed -/
  decline : SessionIdent → Prop
  /-- a callback may be left behind for a reply -/
  await : AckCallback → Prop
  /-- the user may be asked about the session -/
  ask : SessionPtr → Prop
  accept : SessionPtr → Prop
  fire : AckPtr → Prop
  free : AckPtr → Prop

/-- Everything is allowed. -/
def Rights.all : Rights where
  activate _ := True
  grow _ := True
  build _ := True
  describe _ _ := True
  carry _ _ := True
  change _ := True
  drop _ _ := True
  openSession _ _ := True
  close _ := True
  ft _ := True
  newFt _ := True
  flush _ := True
  disk _ := True
  transport _ := True
  blockSize _ := True
  stream _ := True
  outward _ := True
  decline _ := True
  await _ := True
  ask _ := True
  accept _ := True
  fire _ := True
  free _ := True

/-- Transfers, transports and the disk may be touched, sessions may not. -/
def Rights.storage : Rights :=
  { Rights.all with
    build := fun _ => False
    change := fun _ => False
    openSession := fun _ _ => False
    close := fun _ => False }

/-- Some content of the listed session `p` is ACTIVE. -/
def Active (s : State) (p : SessionPtr) : Prop :=
  ∃ js, s.sessions.get? p = some js ∧ ∃ sc ∈ js.content, sc.state = .active

/-- Some content of the listed session `p` has the transfer as its description. -/
def Describes (s : State) (p : SessionPtr) (d : FtPtr) : Prop :=
  ∃ js, s.sessions.get? p = some js ∧ ∃ sc ∈ js.content, sc.description = some d

/-- Some content of the listed session `p` has the transport. -/
def Carries (s : State) (p : SessionPtr) (t : TransportPtr) : Prop :=
  ∃ js, s.sessions.get? p = some js ∧ ∃ sc ∈ js.content, sc.transport = some t

/-- Only the sessions matter. -/
theorem Carries.congr {s s' : State} {p : SessionPtr} {t : TransportPtr} (carries : Carries s p t)
    (same : s'.sessions = s.sessions)
    : Carries s' p t := by
  rw [Carries, same]
  exact carries

/-- No session carries the transport. -/
def Uncarried (s : State) (t : TransportPtr) : Prop := ∀ q, ¬Carries s q t

/-- No session but `p` carries the transport. -/
def OnlyAt (s : State) (p : SessionPtr) (t : TransportPtr) : Prop :=
  ∀ q, Carries s q t → q = p

/-- The rewrites of a content list in the state `s`. -/
inductive ContentChange (r : Rights) (s : State) (p : SessionPtr) (old : List SessionContent)
    : List SessionContent → Prop
  | changeState (name : String) (state : SessionState) (allowed : r.change p)
    (active : state = .active → r.activate p) (forward : state ≠ .pending)
    : ContentChange r s p old (updateFirst name (fun sc => { sc with state }) old)
  | remove (name : String) (allowed : r.change p) (drop : r.drop p name)
    : ContentChange r s p old (removeFirst name old)
  | append (name : String) (allowed : r.build p) (grow : r.grow p)
    : ContentChange r s p old (old ++ [.new name .pending])
  | dropLast (allowed : r.build p) : ContentChange r s p old old.dropLast
  | supplyApp (suppliedApp : Option (JingleAppFuncs × FtPtr)) (allowed : r.build p)
    : ContentChange r s p old (updateLast (fun sc => { sc with suppliedApp }) old)
  | supplyTrans (suppliedTrans : Option (JingleTransportFuncs × TransportPtr))
    (allowed : r.build p)
    : ContentChange r s p old (updateLast (fun sc => { sc with suppliedTrans }) old)
  | supplyTransFor (app : FtPtr) (suppliedTrans : Option (JingleTransportFuncs × TransportPtr))
    (allowed : r.build p)
    : ContentChange r s p old (old.map (fun sc =>
        if sc.description = some app then { sc with suppliedTrans } else sc))
  | fillApp (name xmlns : String) (appfuncs : Option JingleAppFuncs) (d : FtPtr)
    (allowed : r.build p) (describe : r.describe p d) (known : d < s.infoList.next)
    : ContentChange r s p old (updateFirst name (fun sc =>
        { sc with xmlnsDesc := some xmlns, appfuncs, description := some d }) old)
  | fillTrans (name xmlns : String) (transfuncs : Option JingleTransportFuncs)
    (t : TransportPtr) (allowed : r.build p) (carry : r.carry p t)
    (known : t < s.transports.next) (fresh : Uncarried s t)
    : ContentChange r s p old (updateFirst name (fun sc =>
        { sc with xmlnsTrans := some xmlns, transfuncs, transport := some t }) old)

section ContentChange

variable {r : Rights} {s : State} {p : SessionPtr} {old new : List SessionContent}

theorem ContentChange.allowed (change : ContentChange r s p old new) : r.change p ∨ r.build p := by
  cases change with
  | changeState name state allowed => exact Or.inl allowed
  | remove name allowed => exact Or.inl allowed
  | append name allowed => exact Or.inr allowed
  | dropLast allowed => exact Or.inr allowed
  | supplyApp supplied allowed => exact Or.inr allowed
  | supplyTrans supplied allowed => exact Or.inr allowed
  | supplyTransFor app supplied allowed => exact Or.inr allowed
  | fillApp name xmlns appfuncs d allowed => exact Or.inr allowed
  | fillTrans name xmlns transfuncs t allowed => exact Or.inr allowed

/-- What a content may hold after a rewrite of the list `old`: what some content held before,
or what the rights grant.
-/
structure Inherits (r : Rights) (s : State) (p : SessionPtr) (old : List SessionContent)
    (sc : SessionContent)
    : Prop where
  active : sc.state = .active → (∃ sc' ∈ old, sc'.state = .active) ∨ r.activate p
  description : ∀ d, sc.description = some d →
    (∃ sc' ∈ old, sc'.description = some d) ∨ r.describe p d ∧ d < s.infoList.next
  transport : ∀ t, sc.transport = some t →
    (∃ sc' ∈ old, sc'.transport = some t)
    ∨ r.carry p t ∧ t < s.transports.next ∧ Uncarried s t

/-- A content that differs from an old one in other fields inherits from it. -/
theorem inherits_of_mem {sc sc' : SessionContent} (there : sc' ∈ old)
    (state : sc.state = sc'.state) (description : sc.description = sc'.description)
    (transport : sc.transport = sc'.transport)
    : Inherits r s p old sc :=
  ⟨fun h => Or.inl ⟨sc', there, state ▸ h⟩, fun _ h => Or.inl ⟨sc', there, description ▸ h⟩,
    fun _ h => Or.inl ⟨sc', there, transport ▸ h⟩⟩

theorem ContentChange.inherits (change : ContentChange r s p old new) {sc : SessionContent}
    (member : sc ∈ new)
    : Inherits r s p old sc := by
  have kept (there : sc ∈ old) : Inherits r s p old sc := inherits_of_mem there rfl rfl rfl
  cases change with
  | changeState name state allowed active =>
      rcases mem_updateFirst member with there | ⟨sc', there, _, rfl⟩
      · exact kept there
      · exact { inherits_of_mem (r := r) (s := s) (p := p) there rfl rfl rfl with
          active := fun h => Or.inr (active h) }
  | remove name allowed drop => exact kept ((removeFirst_sublist name old).subset member)
  | append name allowed =>
      rcases List.mem_append.mp member with there | appended
      · exact kept there
      · rw [List.mem_singleton.mp appended]
        refine ⟨fun h => ?_, fun _ h => ?_, fun _ h => ?_⟩ <;> cases h
  | dropLast allowed => exact kept ((List.dropLast_sublist old).subset member)
  | supplyApp supplied allowed =>
      rcases mem_updateLast member with there | ⟨sc', there, rfl⟩
      · exact kept there
      · exact inherits_of_mem there rfl rfl rfl
  | supplyTrans supplied allowed =>
      rcases mem_updateLast member with there | ⟨sc', there, rfl⟩
      · exact kept there
      · exact inherits_of_mem there rfl rfl rfl
  | supplyTransFor app supplied allowed =>
      obtain ⟨sc', there, rfl⟩ := List.mem_map.mp member
      split <;> exact inherits_of_mem there rfl rfl rfl
  | fillApp name xmlns appfuncs d allowed describe known =>
      rcases mem_updateFirst member with there | ⟨sc', there, _, rfl⟩
      · exact kept there
      · exact { inherits_of_mem (r := r) (s := s) (p := p) there rfl rfl rfl with
          description := fun _ h => Or.inr (Option.some.inj h ▸ ⟨describe, known⟩) }
  | fillTrans name xmlns transfuncs t allowed carry known fresh =>
      rcases mem_updateFirst member with there | ⟨sc', there, _, rfl⟩
      · exact kept there
      · exact { inherits_of_mem (r := r) (s := s) (p := p) there rfl rfl rfl with
          transport := fun _ h => Or.inr (Option.some.inj h ▸ ⟨carry, known, fresh⟩) }

/-- Two contents that do not have the same transport. -/
def SessionContent.Apart (sc sc' : SessionContent) : Prop :=
  ∀ t, sc.transport = some t → sc'.transport ≠ some t

/-- Whether contents are apart shows in their transports. -/
theorem apart_of_map {content content' : List SessionContent}
    (same : content'.map SessionContent.transport = content.map SessionContent.transport)
    (apart : content.Pairwise SessionContent.Apart)
    : content'.Pairwise SessionContent.Apart := by
  have transports : (content.map SessionContent.transport).Pairwise
      (fun first second => ∀ t, first = some t → second ≠ some t) :=
    List.pairwise_map.mpr apart
  rw [← same] at transports
  exact (List.pairwise_map.mp transports).imp (fun apart => apart)

/-- No rewrite gives two contents one transport. -/
theorem ContentChange.apart (change : ContentChange r s p old new)
    (apart : old.Pairwise SessionContent.Apart)
    (listed : ∃ js, s.sessions.get? p = some js ∧ js.content = old)
    : new.Pairwise SessionContent.Apart := by
  cases change with
  | changeState name state allowed active forward =>
      refine apart_of_map ?_ apart
      rw [map_updateFirst]
      exact fun _ => rfl
  | remove name allowed drop => exact apart.sublist (removeFirst_sublist name old)
  | append name allowed grow =>
      refine List.pairwise_append.mpr ⟨apart, List.pairwise_singleton _ _, ?_⟩
      intro sc _ sc' member t _ carried
      rw [List.mem_singleton.mp member] at carried
      cases carried
  | dropLast allowed => exact apart.sublist (List.dropLast_sublist old)
  | supplyApp supplied allowed =>
      refine apart_of_map ?_ apart
      rw [map_updateLast]
      exact fun _ => rfl
  | supplyTrans supplied allowed =>
      refine apart_of_map ?_ apart
      rw [map_updateLast]
      exact fun _ => rfl
  | supplyTransFor app supplied allowed =>
      refine apart_of_map ?_ apart
      rw [List.map_map]
      refine List.map_congr_left (fun sc _ => ?_)
      simp only [Function.comp_apply]
      split <;> rfl
  | fillApp name xmlns appfuncs d allowed describe known =>
      refine apart_of_map ?_ apart
      rw [map_updateFirst]
      exact fun _ => rfl
  | fillTrans name xmlns transfuncs t allowed carry known fresh =>
      obtain ⟨js, listed, rfl⟩ := listed
      have absent (sc : SessionContent) (member : sc ∈ js.content) : sc.transport ≠ some t :=
        fun carried => fresh p ⟨js, listed, sc, member, carried⟩
      refine pairwise_updateFirst apart ?_ ?_
      · intro sc _ sc' member' _ t' same
        cases same
        exact absent sc' member'
      · intro sc member sc' _ _ t' carried same
        cases same
        exact absent sc member carried

end ContentChange

/-- Whether an IQ of ours ends its session. -/
def LmMessage.isSessionTerminate (iq : LmMessage) : Bool :=
  (iq.node.getChild "jingle").any (fun jingle =>
    jingle.getAttribute "action" == some "session-terminate")

@[simp]
theorem sessionTerminateIq_isSessionTerminate (js : JingleSession) (reason : String)
    : (sessionTerminateIq js reason).isSessionTerminate = true := by
  simp [LmMessage.isSessionTerminate, sessionTerminateIq, LmMessageNode.getChild, element,
    LmMessageNode.getAttribute]

theorem jinglesessionIq_isSessionTerminate (js : JingleSession) {action : JingleAction}
    (other : action.name ≠ "session-terminate") (contents : List LmMessageNode)
    : (jinglesessionIq js action contents).isSessionTerminate = false := by
  simp [LmMessage.isSessionTerminate, jinglesessionIq, LmMessageNode.getChild, element,
    LmMessageNode.getAttribute, other]

theorem setInitiator_isSessionTerminate (js : JingleSession) {action : JingleAction}
    (other : action.name ≠ "session-terminate") (contents : List LmMessageNode)
    (initiator : String)
    : (setInitiator (jinglesessionIq js action contents) initiator).isSessionTerminate
      = false := by
  simp [LmMessage.isSessionTerminate, setInitiator, jinglesessionIq, LmMessageNode.getChild,
    element, LmMessageNode.setAttribute, LmMessageNode.getAttribute, other]

@[simp]
theorem hashIq_isSessionTerminate (recipient sid : String) (hash : Option String)
    : (hashIq recipient sid hash).isSessionTerminate = false := by
  simp [LmMessage.isSessionTerminate, hashIq, LmMessageNode.getChild, element,
    LmMessageNode.getAttribute]

@[simp]
theorem ibbDataIq_isSessionTerminate (env : Env) (recipient : String) (buf : List UInt8)
    (sid : String) (seq : Nat)
    : (ibbDataIq env recipient buf sid seq).isSessionTerminate = false := by
  simp [LmMessage.isSessionTerminate, ibbDataIq, LmMessageNode.getChild, textElement]

/-- Whether an IQ of ours is a packet of an in-band stream. -/
def LmMessage.isData (iq : LmMessage) : Bool := (iq.node.getChild "data").isSome

@[simp]
theorem sessionTerminateIq_isData (js : JingleSession) (reason : String)
    : (sessionTerminateIq js reason).isData = false := by
  simp [LmMessage.isData, sessionTerminateIq, LmMessageNode.getChild, element]

@[simp]
theorem jinglesessionIq_isData (js : JingleSession) (action : JingleAction)
    (contents : List LmMessageNode)
    : (jinglesessionIq js action contents).isData = false := by
  simp [LmMessage.isData, jinglesessionIq, LmMessageNode.getChild, element]

@[simp]
theorem setInitiator_isData (js : JingleSession) (action : JingleAction)
    (contents : List LmMessageNode) (initiator : String)
    : (setInitiator (jinglesessionIq js action contents) initiator).isData = false := by
  simp [LmMessage.isData, setInitiator, jinglesessionIq, LmMessageNode.getChild, element,
    LmMessageNode.setAttribute]

@[simp]
theorem hashIq_isData (recipient sid : String) (hash : Option String)
    : (hashIq recipient sid hash).isData = false := by
  simp [LmMessage.isData, hashIq, LmMessageNode.getChild, element]

@[simp]
theorem sessionTerminateIq_getTo (js : JingleSession) (reason : String)
    : (sessionTerminateIq js reason).getTo = some js.toJid := by
  simp [sessionTerminateIq]

@[simp]
theorem jinglesessionIq_getTo (js : JingleSession) (action : JingleAction)
    (contents : List LmMessageNode)
    : (jinglesessionIq js action contents).getTo = some js.recipient := by
  simp [jinglesessionIq]

@[simp]
theorem setInitiator_getTo (mess : LmMessage) (initiator : String)
    : (setInitiator mess initiator).getTo = mess.getTo :=
  rfl

@[simp]
theorem hashIq_getTo (recipient sid : String) (hash : Option String)
    : (hashIq recipient sid hash).getTo = some recipient := by
  simp [hashIq]

@[simp]
theorem ibbDataIq_getTo (env : Env) (recipient : String) (buf : List UInt8) (sid : String)
    (seq : Nat)
    : (ibbDataIq env recipient buf sid seq).getTo = some recipient := by
  simp [ibbDataIq]

/-- The bytes waiting in a transport. -/
def Transport.buffered : Transport → List UInt8
  | .ibb jibb => jibb.buf
  | .s5b _ => []

/-- What changes in an in-band stream between its packets: its block size may become smaller. -/
structure SameStream (r : Rights) (old new : JingleIBB) : Prop where
  sid : new.sid = old.sid
  seq : new.seq = old.seq
  blocksize : new.blocksize = old.blocksize
    ∨ new.blocksize < old.blocksize ∧ r.blockSize new.blocksize

/-- An in-band stream comes from one. -/
def StreamsKept (r : Rights) (old new : Transport) : Prop :=
  ∀ jibb', new = .ibb jibb' → ∃ jibb, old = .ibb jibb ∧ SameStream r jibb jibb'

/-- A listed content with an outgoing file carries the transport. -/
def Feeding (s : State) (t : TransportPtr) : Prop :=
  ∃ p js sc d ft,
    s.sessions.get? p = some js ∧ sc ∈ js.content ∧ sc.transport = some t
    ∧ sc.description = some d ∧ s.infoList.get? d = some ft ∧ ft.dir = .outgoing

/-- The session has an outgoing file, or bytes of one waiting in a transport. -/
def Sends (s : State) (js : JingleSession) : Prop :=
  ∃ sc ∈ js.content,
    (∃ d ft, sc.description = some d ∧ s.infoList.get? d = some ft ∧ ft.dir = .outgoing)
    ∨ (∃ t transport, sc.transport = some t ∧ s.transports.get? t = some transport
      ∧ transport.buffered ≠ [])

/-- The IQs sent for a listed session `p` without ending it. -/
inductive Request (r : Rights) (p : SessionPtr) (js : JingleSession)
    : LmMessage → Option AckCallback → Prop
  | addressed {iq : LmMessage} {callback : Option AckCallback}
    (address : iq.getTo = some js.recipient) (more : iq.isSessionTerminate = false)
    (await : ∀ cb, callback = some cb → r.await cb)
    : Request r p js iq callback
  | outward {iq : LmMessage} {callback : Option AckCallback}
    (address : iq.getTo = some js.toJid) (allowed : r.outward (js.ident p))
    (more : iq.isSessionTerminate = false)
    (await : ∀ cb, callback = some cb → r.await cb)
    : Request r p js iq callback
  | decline (reason : String) (allowed : r.outward (js.ident p))
    (decline : r.decline (js.ident p))
    : Request r p js (sessionTerminateIq js reason) none

/-- Who has the file stays, and bytes begin to wait for it only if it may be written. -/
structure FtChange (r : Rights) (d : FtPtr) (f : JingleFT → JingleFT) : Prop where
  direction : ∀ jft, (f jft).dir = jft.dir
  filling : ∀ jft, (f jft).waiting ≠ [] → jft.waiting ≠ [] ∨ r.disk d

section FtChange

variable {r : Rights} {d : FtPtr} {f : JingleFT → JingleFT}

theorem FtChange.kept (same : ∀ jft, (f jft).dir = jft.dir ∧ (f jft).waiting = jft.waiting)
    : FtChange r d f where
  direction jft := (same jft).1
  filling jft some := Or.inl ((same jft).2 ▸ some)

theorem FtChange.emptied (empty : ∀ jft, (f jft).dir = jft.dir ∧ (f jft).waiting = [])
    : FtChange r d f where
  direction jft := (empty jft).1
  filling jft some := absurd (empty jft).2 some

theorem FtChange.filled (direction : ∀ jft, (f jft).dir = jft.dir) (disk : r.disk d)
    : FtChange r d f where
  direction := direction
  filling _ _ := Or.inr disk

end FtChange

/-- One change of the state within the rights `r`. -/
inductive Effect (r : Rights) (s : State) : State → Prop
  | content (p : SessionPtr) (js : JingleSession)
    (g : List SessionContent → List SessionContent) (listed : s.sessions.get? p = some js)
    (change : ContentChange r s p js.content (g js.content))
    : Effect r s { s with
        sessions := s.sessions.modify p (fun js => { js with content := g js.content }) }
  | openSession (js : JingleSession) (empty : js.content = []) (allowed : r.openSession s js)
    (absent : js.origin = .incoming → sessionFindBySid s js.sid (some js.recipient) = none)
    : Effect r s { s with sessions := s.sessions.alloc js }
  | close (p : SessionPtr) (allowed : r.close p)
    : Effect r s { s with sessions := s.sessions.erase p }
  | finish (p : SessionPtr) (js : JingleSession) (reason : String)
    (listed : s.sessions.get? p = some js) (allowed : r.close p)
    (outward : r.outward (js.ident p))
    : Effect r s
        { s.requested (js.ident p) (sessionTerminateIq js reason) none 0 true with
          sessions := s.sessions.erase p }
  | request (p : SessionPtr) (js : JingleSession) (iq : LmMessage)
    (callback : Option AckCallback) (timeout : Nat) (sendOk : Bool)
    (listed : s.sessions.get? p = some js) (request : Request r p js iq callback)
    (timed : timeout ≠ 0 → ∃ q, callback = some (.sessionInitiate q)
      ∨ callback = some (.sessionAccept q))
    (plain : iq.isData = false)
    : Effect r s (s.requested (js.ident p) iq callback timeout sendOk)
  | packet (p : SessionPtr) (js : JingleSession) (t : TransportPtr) (jibb : JingleIBB)
    (sc : SessionContentRef) (env : Env) (buf : List UInt8)
    (listed : s.sessions.get? p = some js) (carries : Carries s p t)
    (found : s.transports.get? t = some (.ibb jibb)) (allowed : r.transport t)
    (outward : r.outward (js.ident p)) (await : r.await (.ibbSend sc))
    : Effect r s
        { s.requested (js.ident p) (ibbDataIq env js.toJid buf jibb.sid jibb.seq)
            (some (.ibbSend sc)) 0 true with
          packets := s.packets ++ [(t, ibbDataIq env js.toJid buf jibb.sid jibb.seq)]
          transports := s.transports.modify t (fun _ => .ibb { jibb with seq := jibb.seq + 1 }) }
  | reply (query answer : LmMessage)
    : Effect r s { s with sent := s.sent ++ [.reply query answer] }
  | ft (d : FtPtr) (f : JingleFT → JingleFT) (allowed : r.ft d) (change : FtChange r d f)
    : Effect r s { s with infoList := s.infoList.modify d f }
  | newFt (jft : JingleFT) (allowed : r.newFt jft.dir) (empty : jft.waiting = [])
    : Effect r s { s with infoList := s.infoList.alloc jft }
  | flush (d : FtPtr) (jft : JingleFT) (there : s.infoList.get? d = some jft)
    (finished : jft.state.isOver = true) (allowed : r.flush d)
    : Effect r s { s with infoList := s.infoList.erase d }
  | disk (op : DiskOp) (allowed : r.disk op.ft) : Effect r s { s with disk := s.disk ++ [op] }
  | stopReport (d : FtPtr) (report : StopReport)
    : Effect r s { s with stopReports := s.stopReports ++ [(d, report)] }
  | newTransport (transport : Transport) (empty : transport.buffered = [])
    (fresh : ∀ jibb, transport = .ibb jibb → jibb.seq = 0
      ∧ jibb.blocksize ≤ IBB_BLOCK_SIZE_MAX ∧ r.blockSize jibb.blocksize)
    : Effect r s { s with transports := s.transports.alloc transport }
  | transport (t : TransportPtr) (f : Transport → Transport) (allowed : r.transport t)
    (buffered : ∀ transport, s.transports.get? t = some transport →
      transport.buffered = [] → (f transport).buffered ≠ [] → Feeding s t)
    (kept : ∀ transport, s.transports.get? t = some transport →
      StreamsKept r transport (f transport))
    : Effect r s { s with transports := s.transports.modify t f }
  | stream (sid : String) (t : TransportPtr) (allowed : r.stream sid)
    (known : t < s.transports.next)
    (replaced : ∀ old, Ibb.lookup s sid = some old → r.transport old)
    : Effect r s { s with
        transports :=
          match Ibb.lookup s sid with
          | some replaced => s.transports.erase replaced
          | none => s.transports
        jingleIBBs := s.jingleIBBs.filter (fun entry => entry.1 != sid) ++ [(sid, t)] }
  | init (sc : SessionContentRef) (t : TransportPtr)
    : Effect r s { s with inits := s.inits ++ [(sc, t)] }
  | start (sc : SessionContentRef) : Effect r s { s with starts := s.starts ++ [sc] }
  | handle (t : TransportPtr) (node : LmMessageNode)
    : Effect r s { s with handles := s.handles ++ [(t, node)] }
  | staleRead : Effect r s { s with staleReads := s.staleReads + 1 }
  | ask (p : SessionPtr) (allowed : r.ask p)
    : Effect r s { s with events := s.events.alloc p }
  | answered (id : Nat) : Effect r s { s with events := s.events.erase id }
  | accept (p : SessionPtr) (allowed : r.accept p)
    : Effect r s { s with accepted := s.accepted ++ [p] }
  | closedByPeer (p : SessionPtr) (gone : s.sessions.get? p = none)
    (known : p < s.sessions.next)
    : Effect r s { s with closedByPeer := s.closedByPeer ++ [p] }
  | fire (ah : AckPtr) (type : JingleAckType) (allowed : r.fire ah)
    : Effect r s { s with fired := s.fired ++ [(ah, type)] }
  | free (ah : AckPtr) (allowed : r.free ah)
    : Effect r s { s with ackHandlers := s.ackHandlers.erase ah }
  | forget (ah : AckPtr) : Effect r s { s with idHandlers := s.idHandlers.erase ah }
  | wait (seconds : Nat) : Effect r s { s with clock := s.clock + seconds }

/-- The invariant survives every change within the rights. -/
def Stable (r : Rights) (inv : State → Prop) : Prop :=
  ∀ s s', inv s → Effect r s s' → inv s'

/-- Code that may touch storage only leaves the session list as it is. -/
theorem storage_sessions (sessions : Pool JingleSession)
    : Stable .storage (fun s => s.sessions = sessions) := by
  intro s s' same effect
  cases effect with
  | content p js g listed change => exact change.allowed.elim id id |>.elim
  | openSession js empty allowed => exact allowed.elim
  | close p allowed => exact allowed.elim
  | finish p js reason listed allowed => exact allowed.elim
  | _ => exact same

/-- The faults of code that goes through no pointer to an ack handle. -/
def NotAckHandle (error : Fault) : Prop := error ≠ .useAfterFree .ackHandle

end McabberJingle
