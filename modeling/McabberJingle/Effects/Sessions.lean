import McabberJingle.Effects.Storage

/-! Changes made by the session list and by the IQs that are sent for sessions. -/

namespace McabberJingle

open Program Program.Prog

variable {r : Rights} {inv : State → Prop} {s : State}

-----------------------------------------------------------------------------------------
-- Function tables
-----------------------------------------------------------------------------------------

/-- What filling the contents of `p` needs: the objects made for it are new. -/
structure MayBuild (r : Rights) (inv : State → Prop) (p : SessionPtr) : Prop where
  layout : ∀ s, inv s → Layout s
  grow : r.grow p
  build : r.build p
  describe : ∀ s, inv s → r.describe p s.infoList.next
  carry : ∀ s, inv s → r.carry p s.transports.next

/-- What entering the stream of a content into the table needs: it happens only once the
description was read and the element names an IBB transport with a sid.
-/
def MayBind (r : Rights) (inv : State → Prop) (env : Env) (w : World) (cn : JingleContent)
    : Prop :=
  ∀ jft, FileTransfer.parseOffer env w cn = .ok jft →
    ∀ jibb, Ibb.parseTransport cn.transport = .ok jibb →
      ∀ s, inv s → jingleGetTransportfuncs s (cn.transport.getAttribute "xmlns") = some .ibb →
        r.stream jibb.sid ∧ r.blockSize jibb.blocksize
        ∧ ∀ old, Ibb.lookup s jibb.sid = some old → r.transport old

theorem MayBuild.mono {inv' : State → Prop} {p : SessionPtr} (build : MayBuild r inv p)
    (stronger : ∀ s, inv' s → inv s)
    : MayBuild r inv' p :=
  ⟨fun s holds => build.layout s (stronger s holds), build.grow, build.build,
    fun s holds => build.describe s (stronger s holds),
    fun s holds => build.carry s (stronger s holds)⟩

theorem MayBind.mono {inv' : State → Prop} {env : Env} {w : World} {cn : JingleContent}
    (bind : MayBind r inv env w cn) (stronger : ∀ s, inv' s → inv s)
    : MayBind r inv' env w cn :=
  fun jft offered jibb parsed s holds => bind jft offered jibb parsed s (stronger s holds)

theorem JingleAppFuncs.newFromMessage_keeps (stable : Stable r inv) (env : Env) (w : World)
    (cn : JingleContent) (appfuncs : JingleAppFuncs) (allowed : r.newFt .incoming)
    (holds : inv s)
    : (appfuncs.newFromMessage env w cn).wp
        (fun result s' => inv s' ∧ ∀ d, result = .ok d →
          d = s.infoList.next ∧ d < s'.infoList.next
          ∧ ∃ jft, FileTransfer.parseOffer env w cn = .ok jft)
        (fun error _ => NotAckHandle error) s := by
  cases appfuncs
  simp only [newFromMessage, FileTransfer.newFromMessage]
  cases parsed : FileTransfer.parseOffer env w cn with
  | error err => exact ⟨holds, fun d same => by cases same⟩
  | ok jft =>
      have direction : jft.dir = .incoming := by
        unfold FileTransfer.parseOffer at parsed
        grind
      refine wp_seq (FileTransfer.listTransfer_done jft) ?_
      rintro d s' ⟨rfl, rfl⟩
      have closed : jft.outfile = none := FileTransfer.parseOffer_closed env w parsed
      have empty : jft.waiting = [] := by rw [JingleFT.waiting, closed]
      refine ⟨stable _ _ holds (.newFt jft (direction ▸ allowed) empty), fun d same => ?_⟩
      cases same
      exact ⟨rfl, Nat.lt_succ_self _, jft, rfl⟩

theorem JingleTransportFuncs.newFromMessage_keeps (stable : Stable r inv) (env : Env)
    (w : World) (cn : JingleContent) (transfuncs : JingleTransportFuncs)
    (holds : inv s)
    (bind : transfuncs = .ibb → ∀ jibb, Ibb.parseTransport cn.transport = .ok jibb →
      r.stream jibb.sid ∧ r.blockSize jibb.blocksize
      ∧ ∀ old, Ibb.lookup s jibb.sid = some old → r.transport old)
    : (transfuncs.newFromMessage env w cn).wp
        (fun result s' => inv s' ∧ ∀ t, result = .ok t →
          t = s.transports.next ∧ t < s'.transports.next)
        (fun error _ => NotAckHandle error) s := by
  cases transfuncs with
  | ibb => exact Ibb.newFromMessage_keeps stable cn holds (bind rfl)
  | s5b => exact S5b.newFromMessage_keeps stable env w cn holds

theorem JingleTransportFuncs.new_keeps (stable : Stable r inv) (w : World)
    (transfuncs : JingleTransportFuncs) (size : r.blockSize IBB_BLOCK_SIZE_MAX) (holds : inv s)
    : (transfuncs.new w).wp
        (fun t s' => inv s' ∧ t = s.transports.next ∧ t < s'.transports.next)
        (fun error _ => NotAckHandle error) s := by
  cases transfuncs with
  | ibb =>
      refine Ibb.newTransport_keeps stable _ rfl ?_ holds
      rintro jibb ⟨⟩
      exact ⟨rfl, Nat.le_refl _, size⟩
  | s5b =>
      refine wp_seq (readOnly_get s) ?_
      rintro s' _ rfl
      exact Ibb.newTransport_keeps stable _ rfl (fun _ same => by cases same) holds

theorem JingleTransportFuncs.handle_keeps (stable : Stable r inv) (env : Env)
    (action : JingleAction) {t : TransportPtr} (node : LmMessageNode)
    (transfuncs : JingleTransportFuncs) (allowed : r.transport t)
    (size : action = .sessionAccept → Ibb.MaySize r node)
    : Keeps inv NotAckHandle (transfuncs.handle env action t node) := by
  cases transfuncs with
  | ibb => exact Ibb.handle_keeps stable action node allowed size
  | s5b => exact S5b.handle_keeps stable env action node allowed

theorem JingleTransportFuncs.tomessage_readOnly (t : TransportPtr) (node : LmMessageNode)
    (transfuncs : JingleTransportFuncs)
    : ReadOnly NotAckHandle (transfuncs.tomessage t node) := by
  cases transfuncs with
  | ibb => exact Ibb.tomessage_readOnly t node
  | s5b => exact S5b.tomessage_readOnly t node

theorem JingleTransportFuncs.init_readOnly (sc : SessionContentRef) (t : TransportPtr)
    (transfuncs : JingleTransportFuncs)
    : ReadOnly NotAckHandle (transfuncs.init sc t) := by
  cases transfuncs with
  | ibb => exact readOnly_pure _
  | s5b => exact readOnly_bind (readS5b_readOnly t) (fun _ => readOnly_pure _)

theorem JingleTransportFuncs.info_readOnly (t : TransportPtr)
    (transfuncs : JingleTransportFuncs)
    : ReadOnly NotAckHandle (transfuncs.info t) := by
  cases transfuncs with
  | ibb => exact readOnly_bind (readIbb_readOnly t) (fun _ => readOnly_pure _)
  | s5b => exact readOnly_pure _

-----------------------------------------------------------------------------------------
-- Lookups
-----------------------------------------------------------------------------------------

/-- What `session_find_by_sid (sc->sid, sc->from)` comes back with. -/
def FindsRef (s : State) (sc : SessionContentRef) (found : Option (SessionPtr × JingleSession))
    : Prop :=
  (s.sessions.cells = [] ∧ found = none)
  ∨ ∃ owner, s.sessions.get? sc.owner = some owner
      ∧ found = sessionFindBySid s owner.sid (some owner.recipient)

theorem sessionFindByRef_known (sc : SessionContentRef)
    : (sessionFindByRef sc).wp (fun found s' => s' = s ∧ FindsRef s sc found)
        (fun error _ => NotAckHandle error) s := by
  refine wp_known rfl ?_
  rw [wp_ite]
  constructor
  · intro none
    exact ⟨rfl, Or.inl ⟨List.isEmpty_iff.mp none, rfl⟩⟩
  · intro some
    refine wp_seq (readSession_known sc.owner) ?_
    rintro owner s' ⟨rfl, listed⟩
    exact ⟨rfl, Or.inr ⟨owner, listed, rfl⟩⟩

/-- A session that is found is listed. -/
theorem sessionFindBySid_listed {sid : String} {fromJid : Option String} {p : SessionPtr}
    {js : JingleSession} (found : sessionFindBySid s sid fromJid = some (p, js))
    : s.sessions.get? p = some js :=
  Pool.get?_eq_some_iff.mpr (List.mem_of_find?_eq_some found)

/-- A session that is found has the sid and, up to case, the peer asked for. -/
theorem sessionFindBySid_key {sid : String} {fromJid : Option String} {p : SessionPtr}
    {js : JingleSession} (found : sessionFindBySid s sid fromJid = some (p, js))
    : js.sid = sid ∧ gAsciiStrcaseeq (some js.recipient) fromJid = true := by
  have hit := List.find?_some found
  simpa only [Bool.and_eq_true, beq_iff_eq] using hit

theorem FindsRef.listed {sc : SessionContentRef} {p : SessionPtr} {js : JingleSession}
    (found : FindsRef s sc (some (p, js)))
    : s.sessions.get? p = some js := by
  rcases found with ⟨_, none⟩ | ⟨owner, _, hit⟩
  · cases none
  · exact sessionFindBySid_listed hit.symm

/-- Looking a found session up under its own sid and peer finds it again. -/
theorem sessionFindBySid_again {sid fromJid : String} {p : SessionPtr} {js : JingleSession}
    (found : sessionFindBySid s sid (some fromJid) = some (p, js))
    : sessionFindBySid s js.sid (some js.recipient) = some (p, js) := by
  obtain ⟨sameSid, samePeer⟩ := sessionFindBySid_key found
  have lower : asciiLower js.recipient = asciiLower fromJid := by
    simpa only [gAsciiStrcaseeq, beq_iff_eq] using samePeer
  rw [← found]
  simp only [sessionFindBySid, sameSid, gAsciiStrcaseeq, lower]

theorem FindsRef.unique {sc : SessionContentRef}
    {found found' : Option (SessionPtr × JingleSession)} (first : FindsRef s sc found)
    (second : FindsRef s sc found')
    : found = found' := by
  rcases first with ⟨empty, rfl⟩ | ⟨owner, listed, rfl⟩
  · rcases second with ⟨_, rfl⟩ | ⟨owner, listed, rfl⟩
    · rfl
    · simp [Pool.get?, empty] at listed
  · rcases second with ⟨empty, rfl⟩ | ⟨owner', listed', rfl⟩
    · simp [Pool.get?, empty] at listed
    · cases listed.symm.trans listed'
      rfl

/-- A reference to a session that was found through a reference finds that session. -/
theorem FindsRef.again {sc : SessionContentRef} {name : String} {p : SessionPtr}
    {js : JingleSession} (found : FindsRef s sc (some (p, js)))
    : FindsRef s { owner := p, name } (some (p, js)) := by
  rcases found with ⟨_, none⟩ | ⟨owner, listed, hit⟩
  · cases none
  · exact Or.inr ⟨js, sessionFindBySid_listed hit.symm, (sessionFindBySid_again hit.symm).symm⟩

-----------------------------------------------------------------------------------------
-- Contents
-----------------------------------------------------------------------------------------

/-- Rewriting the contents of a session that is gone changes nothing. -/
theorem modifyContent_holds (stable : Stable r inv) {p : SessionPtr}
    {g : List SessionContent → List SessionContent} (holds : inv s)
    (change : ∀ old, ContentChange r s p old (g old))
    : (modifyContent p g).wp (fun _ => inv) (fun error _ => NotAckHandle error) s := by
  change inv { s with sessions := _ }
  cases listed : s.sessions.get? p with
  | none =>
      rw [Pool.modify_of_absent _ listed]
      exact holds
  | some js => exact stable _ _ holds (.content p js g listed (change js.content))

theorem modifyContent_keeps (stable : Stable r inv) {p : SessionPtr}
    {g : List SessionContent → List SessionContent}
    (change : ∀ s, inv s → ∀ old, ContentChange r s p old (g old))
    : Keeps inv NotAckHandle (modifyContent p g) :=
  fun s holds => modifyContent_holds stable holds (change s holds)

/-- From here on, addresses handed out so far stay handed out. -/
theorem keeps_from {α : Type} {m : Run α} (stable : Stable r inv) (s : State)
    (keeps : ∀ inv', Stable r inv' → (∀ s', inv' s' → inv s' ∧ Since s s') →
      Keeps inv' NotAckHandle m)
    (holds : inv s)
    : m.wp (fun _ => inv) (fun error _ => NotAckHandle error) s :=
  wp_post (keeps _ (stable.since s) (fun _ holds' => holds') s ⟨holds, .refl s⟩)
    (fun _ _ holds' => holds'.1)

theorem sessionAddContent_keeps (stable : Stable r inv) {p : SessionPtr} (name : String)
    (allowed : r.build p) (grow : r.grow p)
    : Keeps inv NotAckHandle (sessionAddContent p name .pending) :=
  keeps_bind (readSession_readOnly p).keeps (fun _ =>
    modifyContent_keeps stable (fun _ _ _ => .append name allowed grow))

theorem sessionAddApp_keeps (stable : Stable r inv) {p : SessionPtr} (name xmlns : String)
    {d : FtPtr} (allowed : r.build p) (describe : r.describe p d)
    (known : ∀ s, inv s → d < s.infoList.next)
    : Keeps inv NotAckHandle (sessionAddApp p name xmlns d) := by
  refine keeps_bind (readSession_readOnly p).keeps (fun _ => ?_)
  refine keeps_bind (deref_readOnly _ _).keeps (fun _ => ?_)
  refine keeps_bind readOnly_get.keeps (fun _ => ?_)
  exact modifyContent_keeps stable (fun s holds _ =>
    .fillApp name xmlns _ d allowed describe (known s holds))

/-- Between making a transport for a content and filling it in, no content gets one. -/
theorem modifyContent_uncarried {p : SessionPtr} {t : TransportPtr}
    {g : List SessionContent → List SessionContent}
    (keeps : ∀ content, (g content).map SessionContent.transport
      = content.map SessionContent.transport)
    (fresh : Uncarried s t)
    : (modifyContent p g).wp (fun _ s' => s'.transports = s.transports ∧ Uncarried s' t)
        (fun error _ => NotAckHandle error) s := by
  refine ⟨rfl, fun q carries => ?_⟩
  obtain ⟨js, listed, sc, member, carried⟩ := carries
  obtain ⟨old, there, same⟩ := Pool.get?_modify_eq_some.mp listed
  have before : sc.transport ∈ old.content.map SessionContent.transport := by
    by_cases here : q = p
    · rw [if_pos here] at same
      subst same
      rw [← keeps old.content]
      exact List.mem_map_of_mem member
    · rw [if_neg here] at same
      subst same
      exact List.mem_map_of_mem member
  obtain ⟨sc', member', carried'⟩ := List.mem_map.mp before
  exact fresh q ⟨old, there, sc', member', carried'.trans carried⟩

/-- Nobody carries a transport that was just made. -/
theorem uncarried_of_new {s s' : State} {t : TransportPtr} (layout : Layout s)
    (new : t = s.transports.next) (same : s'.sessions = s.sessions)
    : Uncarried s' t := by
  intro q carries
  obtain ⟨js, listed, carried⟩ := carries
  rw [same] at listed
  have known := layout.carried q t ⟨js, listed, carried⟩
  exact absurd known (by simp [new])

/-- Filling in the transport of a content of `p`, when nobody has it. -/
theorem sessionAddTrans_holds (stable : Stable r inv) {p : SessionPtr} (name xmlns : String)
    {t : TransportPtr} (allowed : r.build p) (carry : r.carry p t) (holds : inv s)
    (known : t < s.transports.next) (fresh : Uncarried s t)
    : (sessionAddTrans p name xmlns t).wp (fun _ => inv) (fun error _ => NotAckHandle error)
        s := by
  refine wp_seq (readSession_readOnly p s) ?_
  rintro js s rfl
  refine wp_seq (deref_readOnly _ _ s) ?_
  rintro _ s rfl
  refine wp_seq (readOnly_get s) ?_
  rintro _ s rfl
  exact modifyContent_holds stable holds (fun _ =>
    .fillTrans name xmlns _ t allowed carry known fresh)

theorem addTransFromJinglecontent_keeps (stable : Stable r inv) (env : Env) (w : World)
    {p : SessionPtr} (cn : JingleContent) (build : MayBuild r inv p)
    (bind : MayBind r inv env w cn) {jft : JingleFT}
    (offered : FileTransfer.parseOffer env w cn = .ok jft)
    : Keeps inv NotAckHandle (addTransFromJinglecontent env w p cn) := by
  intro s holds
  refine wp_known rfl ?_
  refine wp_seq (deref_known .transfuncs _) ?_
  rintro transfuncs s ⟨rfl, registered⟩
  have bind' (isIbb : transfuncs = .ibb) (jibb : JingleIBB)
      (parsed : Ibb.parseTransport cn.transport = .ok jibb)
      : r.stream jibb.sid ∧ r.blockSize jibb.blocksize
        ∧ ∀ old, Ibb.lookup s jibb.sid = some old → r.transport old :=
    bind jft offered jibb parsed s holds (isIbb ▸ registered)
  have made := transfuncs.newFromMessage_keeps stable env w cn holds bind'
  have untouched := transfuncs.newFromMessage_keeps (storage_sessions s.sessions) env w cn
    (s := s) rfl (fun _ _ _ => ⟨trivial, trivial, fun _ _ => trivial⟩)
  refine wp_seq (wp_mono (wp_and made untouched) (fun _ _ both => both)
    (fun _ _ both => both.1)) ?_
  rintro result s' ⟨⟨holds', known⟩, sameSessions, _⟩
  cases result with
  | error err =>
      exact keeps_bind (modifyContent_keeps stable (fun _ _ _ => .dropLast build.build))
        (fun _ => keeps_pure _) s' holds'
  | ok t =>
      obtain ⟨new, below⟩ := known t rfl
      have fresh : Uncarried s' t := uncarried_of_new (build.layout s holds) new sameSessions
      have supplied := modifyContent_holds stable holds'
        (fun _ => .supplyTrans (some (transfuncs, t)) build.build)
      have kept (content : List SessionContent) := map_updateLast
        (f := fun sc : SessionContent => { sc with suppliedTrans := some (transfuncs, t) })
        (g := SessionContent.transport) (fun _ => rfl) content
      refine wp_seq (wp_mono (wp_and supplied (modifyContent_uncarried kept fresh))
        (fun _ _ both => both) (fun _ _ both => both.1)) ?_
      rintro _ s'' ⟨holds'', sameTransports, fresh'⟩
      refine wp_seq (sessionAddTrans_holds stable _ _ build.build (new ▸ build.carry s holds)
        holds'' (sameTransports ▸ below) fresh') ?_
      exact fun _ _ holds''' => holds'''

theorem sessionAddContentFromJinglecontent_keeps (stable : Stable r inv) (env : Env)
    (w : World) {p : SessionPtr} (cn : JingleContent) (build : MayBuild r inv p)
    (bind : MayBind r inv env w cn) (allowed : r.newFt .incoming)
    : Keeps inv NotAckHandle (sessionAddContentFromJinglecontent env w p cn .pending) := by
  refine keeps_bind (sessionAddContent_keeps stable cn.name build.build build.grow) (fun _ => ?_)
  refine keeps_bind readOnly_get.keeps (fun _ => ?_)
  refine keeps_bind (deref_readOnly _ _).keeps (fun appfuncs => ?_)
  intro s holds
  refine wp_seq (appfuncs.newFromMessage_keeps stable env w cn allowed holds) ?_
  rintro result s' ⟨holds', known⟩
  cases result with
  | error err =>
      exact keeps_bind (modifyContent_keeps stable (fun _ _ _ => .dropLast build.build))
        (fun _ => keeps_pure _) s' holds'
  | ok d =>
      obtain ⟨rfl, below, jft, offered⟩ := known d rfl
      refine keeps_from stable s' (fun inv' stable' weaker => ?_) holds'
      have weaken (s'' : State) (holds'' : inv' s'') : inv s'' := (weaker s'' holds'').1
      refine keeps_bind (modifyContent_keeps stable' (fun _ _ _ => .supplyApp _ build.build))
        (fun _ => ?_)
      refine keeps_bind (sessionAddApp_keeps stable' _ _ build.build (build.describe s holds)
        (fun s'' holds'' => Nat.lt_of_lt_of_le below (weaker s'' holds'').2.infoList))
        (fun _ => ?_)
      exact addTransFromJinglecontent_keeps stable' env w cn (build.mono weaken)
        (bind.mono weaken) offered

theorem sessionRemoveSessioncontent_keeps (stable : Stable r inv) {p : SessionPtr}
    (name : String) (allowed : r.change p) (drop : r.drop p name)
    : Keeps inv NotAckHandle (sessionRemoveSessioncontent p name) := by
  refine keeps_bind (readSession_readOnly p).keeps (fun js => ?_)
  split
  · exact keeps_pure _
  · exact keeps_bind (modifyContent_keeps stable (fun _ _ _ => .remove name allowed drop))
      (fun _ => keeps_pure _)

theorem sessionChangestateSessioncontent_keeps (stable : Stable r inv) {p : SessionPtr}
    (name : String) (state : SessionState) (allowed : r.change p)
    (active : state = .active → r.activate p) (forward : state ≠ .pending)
    : Keeps inv NotAckHandle (sessionChangestateSessioncontent p name state) :=
  keeps_bind (readSession_readOnly p).keeps (fun _ =>
    modifyContent_keeps stable (fun _ _ _ => .changeState name state allowed active forward))

/-- By induction on the contents: only freed links are read. -/
theorem sessionFreeContents_frame {inv : State → Prop} (w : World)
    (content : List SessionContent)
    (stale : ∀ s, inv s → inv { s with staleReads := s.staleReads + 1 })
    : Keeps inv NotAckHandle (sessionFreeContents w content) := by
  induction content with
  | nil => exact keeps_pure _
  | cons sc rest ih =>
      refine keeps_bind (fun s holds => ?_) (fun link => keeps_ite ih (keeps_pure _))
      refine wp_post (readFreedLink_known w) ?_
      rintro link _ ⟨rfl, _⟩
      exact stale s holds

/-- Deleting a session touches the session list and reads freed links, nothing else. -/
theorem sessionDelete_frame {inv : State → Prop} (w : World) (p : SessionPtr)
    (erase : ∀ s, inv s → inv { s with sessions := s.sessions.erase p })
    (stale : ∀ s, inv s → inv { s with staleReads := s.staleReads + 1 })
    : Keeps inv NotAckHandle (sessionDelete w p) := by
  refine keeps_bind (readSession_readOnly p).keeps (fun js => ?_)
  exact keeps_bind (keeps_modify erase) (fun _ => sessionFreeContents_frame w js.content stale)

theorem sessionFreeContents_keeps (stable : Stable r inv) (w : World)
    (content : List SessionContent)
    : Keeps inv NotAckHandle (sessionFreeContents w content) :=
  sessionFreeContents_frame w content (fun _ holds => stable _ _ holds .staleRead)

theorem sessionDelete_keeps (stable : Stable r inv) (w : World) {p : SessionPtr}
    (allowed : r.close p)
    : Keeps inv NotAckHandle (sessionDelete w p) := by
  refine keeps_bind (readSession_readOnly p).keeps (fun js => ?_)
  refine keeps_bind (keeps_modify (fun _ holds => ?_)) (fun _ => ?_)
  · exact stable _ _ holds (.close p allowed)
  · exact sessionFreeContents_keeps stable w js.content

-----------------------------------------------------------------------------------------
-- IQs
-----------------------------------------------------------------------------------------

theorem sendReply_keeps (stable : Stable r inv) (query answer : LmMessage)
    : Keeps inv NotAckHandle (sendReply query answer) :=
  keeps_modify (fun _ holds => stable _ _ holds (.reply query answer))

theorem jingleAckIq_keeps (stable : Stable r inv) (m : LmMessage)
    : Keeps inv NotAckHandle (jingleAckIq m) :=
  sendReply_keeps stable m _

theorem jingleSendIqError_keeps (stable : Stable r inv) (m : LmMessage)
    (errtype cond : String) (jinglecond : Option String)
    : Keeps inv NotAckHandle (jingleSendIqError m errtype cond jinglecond) :=
  sendReply_keeps stable m _

theorem sendRequest_holds (stable : Stable r inv) {p : SessionPtr} {js : JingleSession}
    {iq : LmMessage} {callback : Option AckCallback} {timeout : Nat} (sendOk : Bool)
    (holds : inv s) (listed : s.sessions.get? p = some js)
    (request : Request r p js iq callback)
    (timed : timeout ≠ 0 → ∃ q, callback = some (.sessionInitiate q)
      ∨ callback = some (.sessionAccept q))
    (plain : iq.isData = false)
    : (sendRequest (js.ident p) iq callback timeout sendOk).wp (fun _ => inv)
        (fun error _ => NotAckHandle error) s :=
  stable _ _ holds (.request p js iq callback timeout sendOk listed request timed plain)

/-- A session-terminate that leaves the session listed. -/
theorem jingleSendSessionTerminate_holds (stable : Stable r inv) {p : SessionPtr}
    (reason : String) (holds : inv s)
    (allowed : ∀ js, s.sessions.get? p = some js →
      r.outward (js.ident p) ∧ r.decline (js.ident p))
    : (jingleSendSessionTerminate p reason).wp (fun _ => inv)
        (fun error _ => NotAckHandle error) s := by
  refine wp_seq (readSession_known p) ?_
  rintro js s ⟨rfl, listed⟩
  obtain ⟨outward, decline⟩ := allowed js listed
  exact sendRequest_holds stable true holds listed (.decline reason outward decline)
    (fun untimed => absurd rfl untimed) (by simp)

/-- A session-terminate followed by the removal of the session: nothing happens between
them, so no state in which the session is told to end and still listed is left.
-/
theorem terminateAndDelete_keeps (stable : Stable r inv) (w : World) {p : SessionPtr}
    (reason : String) (close : r.close p)
    (outward : ∀ s, inv s → ∀ js, s.sessions.get? p = some js → r.outward (js.ident p))
    : Keeps inv NotAckHandle
        (do jingleSendSessionTerminate p reason; sessionDelete w p : Run Unit) := by
  intro s holds
  refine wp_cut
    (fun _ s' => ∃ js, s.sessions.get? p = some js
      ∧ s' = s.requested (js.ident p) (sessionTerminateIq js reason) none 0 true) ?_ ?_
  · refine wp_seq (readSession_known p) ?_
    rintro js s' ⟨rfl, listed⟩
    exact ⟨js, listed, rfl⟩
  · rintro _ s' ⟨js, listed, rfl⟩
    refine wp_seq (readSession_known p) ?_
    rintro js' s' ⟨rfl, _⟩
    have finished := stable _ _ holds
      (.finish p js reason listed close (outward s holds js listed))
    exact sessionFreeContents_keeps stable w js'.content _ finished

theorem lmInsertSessioncontent_readOnly (env : Env) (content : SessionContent)
    : ReadOnly NotAckHandle (lmInsertSessioncontent env content) := by
  refine readOnly_bind (deref_readOnly _ _) (fun transfuncs => ?_)
  refine readOnly_bind (deref_readOnly _ _) (fun transport => ?_)
  refine readOnly_bind (transfuncs.tomessage_readOnly transport _) (fun node => ?_)
  refine readOnly_bind (deref_readOnly _ _) (fun _ => ?_)
  refine readOnly_bind (deref_readOnly _ _) (fun description => ?_)
  exact FileTransfer.tomessage_readOnly env description node

theorem lmInsertSessioncontents_readOnly (env : Env) (contents : List SessionContent)
    : ReadOnly NotAckHandle (lmInsertSessioncontents env contents) := by
  induction contents with
  | nil => exact readOnly_pure _
  | cons content rest ih =>
      refine readOnly_bind (lmInsertSessioncontent_readOnly env content) (fun node => ?_)
      exact readOnly_bind ih (fun nodes => readOnly_pure _)

theorem lmMessageFromJinglesession_known (env : Env) (js : JingleSession)
    (action : JingleAction)
    : (lmMessageFromJinglesession env js action).wp
        (fun mess s' => s' = s ∧ ∃ contents, mess = jinglesessionIq js action contents)
        (fun error _ => NotAckHandle error) s := by
  refine wp_seq (lmInsertSessioncontents_readOnly env js.content s) ?_
  rintro contents s' rfl
  exact ⟨rfl, contents, rfl⟩

/-- A session-accept of ours. -/
theorem jingleSendSessionAccept_keeps (stable : Stable r inv) (env : Env) {p : SessionPtr}
    (await : r.await (.sessionAccept p))
    : Keeps inv NotAckHandle (jingleSendSessionAccept env p) := by
  intro s holds
  refine wp_seq (readSession_known p) ?_
  rintro js s' ⟨rfl, listed⟩
  refine wp_seq (lmMessageFromJinglesession_known env js .sessionAccept) ?_
  rintro mess s' ⟨rfl, contents, rfl⟩
  refine sendRequest_holds stable true holds listed (.addressed (by simp) ?_ ?_)
    (fun _ => ⟨p, .inr rfl⟩) (by simp)
  · exact jinglesessionIq_isSessionTerminate js (by decide) contents
  · rintro cb same
    cases same
    exact await

/-- A session-initiate of ours; the session is deleted when it cannot be sent. -/
theorem jingleSendSessionInitiate_keeps (stable : Stable r inv) (env : Env) (w : World)
    {p : SessionPtr} (await : r.await (.sessionInitiate p))
    (close : w.sendOk = false → r.close p)
    : Keeps inv NotAckHandle (jingleSendSessionInitiate env w p) := by
  intro s holds
  refine wp_seq (readSession_known p) ?_
  rintro js s' ⟨rfl, listed⟩
  refine wp_seq (lmMessageFromJinglesession_known env js .sessionInitiate) ?_
  rintro mess s' ⟨rfl, contents, rfl⟩
  refine wp_seq (sendRequest_holds stable w.sendOk holds listed
    (.addressed (by simp) ?_ ?_) (fun _ => ⟨p, .inl rfl⟩) (by simp)) ?_
  · exact setInitiator_isSessionTerminate js (by decide) contents js.fromJid
  · rintro cb same
    cases same
    exact await
  · intro _ s' holds'
    rw [wp_ite]
    refine ⟨fun _ => holds', fun failed => ?_⟩
    exact sessionDelete_keeps stable w (close (by simpa using failed)) s' holds'

end McabberJingle
