import McabberJingle.Effects.Machine

/-! What the code says: the IQs it sends for sessions, and what it leaves behind in order to go
on sending. A listener does not notice anything else.
-/

namespace McabberJingle

open Program Program.Prog

-----------------------------------------------------------------------------------------
-- What is heard
-----------------------------------------------------------------------------------------

/-- The IQs that may be sent for sessions, and the sessions that data may be sent for once
more when a packet was answered.
-/
structure Speech where
  utters : SessionIdent → LmMessage → Prop
  serves : SessionIdent → Prop

/-- The `session_content` borrows from a session that is served. -/
def Refers (serves : SessionIdent → Prop) (s : State) (ref : SessionContentRef) : Prop :=
  ∃ ident, ident.ptr = ref.owner ∧ serves ident ∧ Identified ident s

/-- What was heard since `s`; who a session is stays as it is. -/
structure Spoke (v : Speech) (s s' : State) : Prop where
  sent : ∀ ident iq, .request ident iq ∈ s'.sent →
    .request ident iq ∈ s.sent ∨ v.utters ident iq
  awaited : ∀ ah handle ref, s'.ackHandlers.get? ah = some handle →
    handle.callback = some (.ibbSend ref) →
      s.ackHandlers.get? ah = some handle ∨ Refers v.serves s' ref
  known : ∀ ident, Identified ident s → Identified ident s'

/-- Nothing was heard. -/
structure Hushed (s s' : State) : Prop where
  sent : s'.sent = s.sent
  handles : ∀ ah handle, s'.ackHandlers.get? ah = some handle →
    s.ackHandlers.get? ah = some handle
  known : ∀ ident, Identified ident s → Identified ident s'

variable {v : Speech} {s₀ s s' : State} {α β : Type}

theorem Refers.later {serves : SessionIdent → Prop} {ref : SessionContentRef}
    (refers : Refers serves s ref) (known : ∀ ident, Identified ident s → Identified ident s')
    : Refers serves s' ref := by
  obtain ⟨ident, owner, served, identified⟩ := refers
  exact ⟨ident, owner, served, known ident identified⟩

theorem Spoke.refl (v : Speech) (s : State) : Spoke v s s :=
  ⟨fun _ _ before => Or.inl before, fun _ _ _ before _ => Or.inl before, fun _ known => known⟩

theorem Spoke.hushed (spoke : Spoke v s₀ s) (hushed : Hushed s s') : Spoke v s₀ s' where
  sent ident iq := by
    rw [hushed.sent]
    exact spoke.sent ident iq
  awaited ah handle ref there callback :=
    (spoke.awaited ah handle ref (hushed.handles ah handle there) callback).imp_right
      (fun refers => refers.later hushed.known)
  known ident before := hushed.known ident (spoke.known ident before)

theorem Spoke.trans {s'' : State} (first : Spoke v s s') (second : Spoke v s' s'')
    : Spoke v s s'' where
  sent ident iq member := by
    rcases second.sent ident iq member with earlier | uttered
    · exact first.sent ident iq earlier
    · exact Or.inr uttered
  awaited ah handle ref there callback := by
    rcases second.awaited ah handle ref there callback with earlier | refers
    · exact (first.awaited ah handle ref earlier callback).imp_right
        (fun refers => refers.later second.known)
    · exact Or.inr refers
  known ident identified := second.known ident (first.known ident identified)

/-- Only the sessions matter for who they are. -/
theorem Identified.congr {ident : SessionIdent} (identified : Identified ident s)
    (same : s'.sessions = s.sessions)
    : Identified ident s' := by
  rw [Identified, same]
  exact identified

/-- Changes of the storage are not heard. -/
theorem hushed_of_same (sent : s'.sent = s.sent) (handles : s'.ackHandlers = s.ackHandlers)
    (sessions : s'.sessions = s.sessions)
    : Hushed s s' where
  sent := sent
  handles ah handle there := by rwa [handles] at there
  known _ identified := identified.congr sessions

theorem Spoke.replied (spoke : Spoke v s₀ s) (query answer : LmMessage)
    : Spoke v s₀ (s.replied query answer) where
  sent ident iq member := by
    rcases List.mem_append.mp member with before | new
    · exact spoke.sent ident iq before
    · cases List.mem_singleton.mp new
  awaited := spoke.awaited
  known := spoke.known

/-- One more IQ of ours. -/
theorem Spoke.requested (spoke : Spoke v s₀ s) {ident : SessionIdent} {iq : LmMessage}
    {callback : Option AckCallback} (utters : v.utters ident iq)
    (serves : ∀ ref, callback = some (.ibbSend ref) → Refers v.serves s ref) (timeout : Nat)
    (sendOk : Bool)
    : Spoke v s₀ (s.requested ident iq callback timeout sendOk) where
  sent ident' iq' member := by
    cases sendOk with
    | false => exact spoke.sent ident' iq' member
    | true =>
        rcases List.mem_append.mp member with before | new
        · exact spoke.sent ident' iq' before
        · cases List.mem_singleton.mp new
          exact Or.inr utters
  awaited ah handle ref there same := by
    rcases Pool.get?_alloc_eq_some.mp there with ⟨_, new⟩ | before
    · subst new
      exact Or.inr ((serves ref same).later (fun _ known => known))
    · exact spoke.awaited ah handle ref before same
  known := spoke.known

-----------------------------------------------------------------------------------------
-- Programs
-----------------------------------------------------------------------------------------

/-- What a run of the program lets hear, whether or not it comes to its end. -/
def Speaks (v : Speech) (m : Run α) : Prop := ∀ s₀, Keeps (Spoke v s₀) AnyFault m

theorem speaks_pure (value : α) : Speaks v (pure value : Run α) :=
  fun _ => keeps_pure value

theorem speaks_fail (error : Fault) : Speaks v (Prog.fail error : Run α) :=
  fun _ => keeps_fail trivial

theorem speaks_bind {m : Run α} {next : α → Run β} (first : Speaks v m)
    (rest : ∀ value, Speaks v (next value))
    : Speaks v (m >>= next) :=
  fun s₀ => keeps_bind (first s₀) (fun value => rest value s₀)

theorem speaks_ite {c : Prop} [Decidable c] {m n : Run α} (yes : Speaks v m) (no : Speaks v n)
    : Speaks v (if c then m else n) :=
  fun s₀ => keeps_ite (yes s₀) (no s₀)

theorem speaks_readOnly {faults : Fault → Prop} {m : Run α} (readOnly : ReadOnly faults m)
    : Speaks v m :=
  fun _ => readOnly.keeps.widen (fun _ _ => trivial)

theorem speaks_get : Speaks v (Prog.get : Run State) :=
  fun _ => readOnly_get.keeps

theorem speaks_modify {f : State → State} (hushed : ∀ s, Hushed s (f s))
    : Speaks v (Prog.modify f) :=
  fun _ => keeps_modify (fun s spoke => spoke.hushed (hushed s))

theorem speaks_deref (what : Object) (pointer : Option α) : Speaks v (deref what pointer) :=
  speaks_readOnly (deref_readOnly what pointer)

theorem speaks_readSession (p : SessionPtr) : Speaks v (readSession p) :=
  speaks_readOnly (readSession_readOnly p)

theorem speaks_modifyFt (d : FtPtr) (f : JingleFT → JingleFT) : Speaks v (modifyFt d f) :=
  speaks_modify (fun _ => hushed_of_same rfl rfl rfl)

theorem speaks_modifyTransport (t : TransportPtr) (f : Transport → Transport)
    : Speaks v (modifyTransport t f) :=
  speaks_modify (fun _ => hushed_of_same rfl rfl rfl)

theorem speaks_readFreedLink (w : World) : Speaks v (readFreedLink w) := by
  unfold readFreedLink
  split
  · exact speaks_fail _
  · exact speaks_bind (speaks_modify (fun _ => hushed_of_same rfl rfl rfl)) (fun _ => speaks_pure _)
  · exact speaks_bind (speaks_modify (fun _ => hushed_of_same rfl rfl rfl)) (fun _ => speaks_pure _)

-----------------------------------------------------------------------------------------
-- Storage
-----------------------------------------------------------------------------------------

namespace FileTransfer

variable (env : Env) (w : World)

theorem listTransfer_speaks (jft : JingleFT) : Speaks v (listTransfer jft) :=
  speaks_bind speaks_get (fun _ =>
    speaks_bind (speaks_modify (fun _ => hushed_of_same rfl rfl rfl)) (fun _ => speaks_pure _))

theorem newFromMessage_speaks (cn : JingleContent) : Speaks v (newFromMessage env w cn) := by
  unfold newFromMessage
  split
  · exact speaks_pure _
  · exact speaks_bind (listTransfer_speaks _) (fun _ => speaks_pure _)

theorem handle_speaks (action : JingleAction) (d : FtPtr) (node : LmMessageNode)
    : Speaks v (handle action d node) :=
  speaks_ite
    (speaks_bind (speaks_readOnly (readFt_readOnly d)) (fun _ =>
      speaks_bind (speaks_modifyFt d _) (fun _ => speaks_pure _)))
    (speaks_pure _)

theorem diskOp_speaks (op : DiskOp) : Speaks v (diskOp op) :=
  speaks_modify (fun _ => hushed_of_same rfl rfl rfl)

theorem writeData_speaks (d : FtPtr) (data : List UInt8) : Speaks v (writeData w d data) := by
  refine speaks_bind (speaks_modifyFt d _) (fun _ => ?_)
  refine speaks_bind (speaks_readOnly (readFt_readOnly d)) (fun _ => ?_)
  refine speaks_bind (speaks_modifyFt d _) (fun _ => ?_)
  refine speaks_bind (diskOp_speaks _) (fun _ => ?_)
  exact speaks_ite (speaks_bind (speaks_modifyFt d _) (fun _ => speaks_pure _)) (speaks_pure _)

theorem handleData_speaks (d : FtPtr) (data : List UInt8) : Speaks v (handleData w d data) := by
  refine speaks_bind (speaks_readOnly (readFt_readOnly d)) (fun jft => ?_)
  refine speaks_ite (speaks_pure _) ?_
  refine speaks_bind (speaks_readOnly (checksumUpdate_readOnly _ data)) (fun md5 => ?_)
  refine speaks_bind (speaks_modifyFt d _) (fun _ => ?_)
  cases jft.outfile with
  | some channel => exact writeData_speaks w d data
  | none =>
      refine speaks_ite ?_ (speaks_pure _)
      refine speaks_bind (speaks_modifyFt d _) (fun _ => ?_)
      refine speaks_bind (diskOp_speaks _) (fun _ => ?_)
      exact speaks_ite (writeData_speaks w d data) (speaks_pure _)

theorem stopReport_speaks (d : FtPtr) (report : StopReport) : Speaks v (stopReport d report) :=
  speaks_modify (fun _ => hushed_of_same rfl rfl rfl)

theorem shutdown_speaks (d : FtPtr) (jft : JingleFT) : Speaks v (shutdown w d jft) := by
  unfold shutdown
  split
  · exact speaks_pure _
  · exact speaks_bind (speaks_modifyFt d _) (fun _ => diskOp_speaks _)

theorem stop_speaks (d : FtPtr) : Speaks v (stop env w d) := by
  refine speaks_bind (speaks_readOnly (readFt_readOnly d)) (fun jft => ?_)
  refine speaks_bind (shutdown_speaks w d jft) (fun _ => ?_)
  refine speaks_ite (speaks_bind (speaks_modifyFt d _) (fun _ => stopReport_speaks d _)) ?_
  refine speaks_bind (speaks_modifyFt d _) (fun _ => ?_)
  split
  · exact stopReport_speaks d _
  · refine speaks_bind (speaks_readOnly (checkHash_readOnly env _ _)) (fun same => ?_)
    exact speaks_ite (stopReport_speaks d _) (stopReport_speaks d _)
  · exact stopReport_speaks d _

theorem new_speaks (name : String) : Speaks v (new env w name) := by
  have failed (d : FtPtr) : Speaks v (do
      modifyFt d (fun jft => { jft with state := .error })
      pure none : Run (Option FtPtr)) :=
    speaks_bind (speaks_modifyFt d _) (fun _ => speaks_pure _)
  refine speaks_bind (listTransfer_speaks _) (fun d => ?_)
  cases w.file with
  | none => exact failed d
  | some info =>
      refine speaks_ite (speaks_bind (speaks_modifyFt d _) (fun _ => ?_)) (failed d)
      cases info.opened with
      | none => exact failed d
      | some reads =>
          exact speaks_bind (speaks_modifyFt d _) (fun _ => speaks_ite (speaks_pure _) (failed d))

end FileTransfer

namespace Ibb

theorem newTransport_speaks (transport : Transport) : Speaks v (newTransport transport) :=
  speaks_bind speaks_get (fun _ =>
    speaks_bind (speaks_modify (fun _ => hushed_of_same rfl rfl rfl)) (fun _ => speaks_pure _))

theorem newFromMessage_speaks (cn : JingleContent) : Speaks v (newFromMessage cn) := by
  unfold newFromMessage
  split
  · exact speaks_pure _
  · refine speaks_bind (newTransport_speaks _) (fun _ => ?_)
    exact speaks_bind (speaks_modify (fun _ => hushed_of_same rfl rfl rfl)) (fun _ => speaks_pure _)

theorem handle_speaks (action : JingleAction) (t : TransportPtr) (node : LmMessageNode)
    : Speaks v (handle action t node) :=
  speaks_ite
    (speaks_bind (speaks_readOnly (readIbb_readOnly t)) (fun _ =>
      speaks_bind (speaks_modifyTransport t _) (fun _ => speaks_pure _)))
    (speaks_pure _)

end Ibb

namespace S5b

variable (env : Env) (w : World)

theorem newFromMessage_speaks (cn : JingleContent) : Speaks v (newFromMessage env w cn) := by
  unfold newFromMessage
  split
  · exact speaks_pure _
  · refine speaks_bind speaks_get (fun _ => ?_)
    exact speaks_bind (Ibb.newTransport_speaks _) (fun _ => speaks_pure _)

theorem handle_speaks (action : JingleAction) (t : TransportPtr) (node : LmMessageNode)
    : Speaks v (handle env action t node) := by
  refine speaks_ite ?_ (speaks_ite ?_ (speaks_pure _))
  · refine speaks_bind (speaks_readOnly (readS5b_readOnly t)) (fun _ => ?_)
    exact speaks_bind (speaks_modifyTransport t _) (fun _ => speaks_pure _)
  · exact speaks_bind (speaks_readOnly (readS5b_readOnly t)) (fun _ => speaks_pure _)

end S5b

section Tables

variable (env : Env) (w : World)

theorem JingleAppFuncs.newFromMessage_speaks (cn : JingleContent) (appfuncs : JingleAppFuncs)
    : Speaks v (appfuncs.newFromMessage env w cn) := by
  cases appfuncs
  exact FileTransfer.newFromMessage_speaks env w cn

theorem JingleTransportFuncs.newFromMessage_speaks (cn : JingleContent)
    (transfuncs : JingleTransportFuncs)
    : Speaks v (transfuncs.newFromMessage env w cn) := by
  cases transfuncs with
  | ibb => exact Ibb.newFromMessage_speaks cn
  | s5b => exact S5b.newFromMessage_speaks env w cn

theorem JingleTransportFuncs.new_speaks (transfuncs : JingleTransportFuncs)
    : Speaks v (transfuncs.new w) := by
  cases transfuncs with
  | ibb => exact Ibb.newTransport_speaks _
  | s5b => exact speaks_bind speaks_get (fun _ => Ibb.newTransport_speaks _)

theorem JingleTransportFuncs.handle_speaks (action : JingleAction) (t : TransportPtr)
    (node : LmMessageNode) (transfuncs : JingleTransportFuncs)
    : Speaks v (transfuncs.handle env action t node) := by
  cases transfuncs with
  | ibb => exact Ibb.handle_speaks action t node
  | s5b => exact S5b.handle_speaks env action t node

end Tables

-----------------------------------------------------------------------------------------
-- Sessions
-----------------------------------------------------------------------------------------

/-- Changes of the session list after which every session is who it was are not heard. -/
theorem hushed_of_sessions (sent : s'.sent = s.sent) (handles : s'.ackHandlers = s.ackHandlers)
    (next : s.sessions.next ≤ s'.sessions.next)
    (same : ∀ p js', s'.sessions.get? p = some js' → p < s.sessions.next →
      ∃ js, s.sessions.get? p = some js ∧ js'.ident p = js.ident p)
    : Hushed s s' where
  sent := sent
  handles ah handle there := by rwa [handles] at there
  known ident identified := by
    obtain ⟨below, who⟩ := identified
    refine ⟨Nat.lt_of_lt_of_le below next, fun js' listed => ?_⟩
    obtain ⟨js, before, unchanged⟩ := same ident.ptr js' listed below
    exact unchanged.trans (who js before)

theorem speaks_modifyContent (p : SessionPtr)
    (f : List SessionContent → List SessionContent)
    : Speaks v (modifyContent p f) := by
  refine speaks_modify (fun s => hushed_of_sessions rfl rfl (Nat.le_refl _) ?_)
  intro q js' listed _
  obtain ⟨js, before, same⟩ := Pool.get?_modify_eq_some.mp listed
  refine ⟨js, before, ?_⟩
  rw [same]
  split <;> rfl

theorem speaks_eraseSession (p : SessionPtr)
    : Speaks v (Prog.modify (fun s => { s with sessions := s.sessions.erase p }) : Run Unit) := by
  refine speaks_modify (fun s => hushed_of_sessions rfl rfl (Nat.le_refl _) ?_)
  intro q js' listed _
  exact ⟨js', (Pool.get?_erase_eq_some.mp listed).2, rfl⟩

theorem sessionNew_speaks (sid fromJid toJid : String) (origin : SessionOrigin)
    : Speaks v (sessionNew sid fromJid toJid origin) := by
  refine speaks_bind speaks_get (fun _ => speaks_bind (speaks_modify (fun s => ?_))
    (fun _ => speaks_pure _))
  refine hushed_of_sessions rfl rfl (Nat.le_succ _) ?_
  intro q js' listed below
  rcases Pool.get?_alloc_eq_some.mp listed with ⟨rfl, _⟩ | before
  · exact absurd below (Nat.lt_irrefl _)
  · exact ⟨js', before, rfl⟩

theorem sessionNewFromJinglenode_speaks (jn : JingleNode)
    : Speaks v (sessionNewFromJinglenode jn) := by
  unfold sessionNewFromJinglenode
  split
  · exact speaks_bind (sessionNew_speaks _ _ _ _) (fun _ => speaks_pure _)
  · exact speaks_pure _

theorem sessionDelete_speaks (w : World) (p : SessionPtr) : Speaks v (sessionDelete w p) := by
  have freed (content : List SessionContent) : Speaks v (sessionFreeContents w content) := by
    induction content with
    | nil => exact speaks_pure _
    | cons sc rest ih =>
        exact speaks_bind (speaks_readFreedLink w) (fun _ => speaks_ite ih (speaks_pure _))
  refine speaks_bind (speaks_readSession p) (fun js => ?_)
  exact speaks_bind (speaks_eraseSession p) (fun _ => freed js.content)

theorem sessionAddContent_speaks (p : SessionPtr) (name : String) (state : SessionState)
    : Speaks v (sessionAddContent p name state) :=
  speaks_bind (speaks_readSession p) (fun _ => speaks_modifyContent p _)

theorem sessionAddApp_speaks (p : SessionPtr) (name xmlns : String) (d : FtPtr)
    : Speaks v (sessionAddApp p name xmlns d) :=
  speaks_bind (speaks_readSession p) (fun _ => speaks_bind (speaks_deref _ _) (fun _ =>
    speaks_bind speaks_get (fun _ => speaks_modifyContent p _)))

theorem sessionAddTrans_speaks (p : SessionPtr) (name xmlns : String) (t : TransportPtr)
    : Speaks v (sessionAddTrans p name xmlns t) :=
  speaks_bind (speaks_readSession p) (fun _ => speaks_bind (speaks_deref _ _) (fun _ =>
    speaks_bind speaks_get (fun _ => speaks_modifyContent p _)))

theorem addTransFromJinglecontent_speaks (env : Env) (w : World) (p : SessionPtr)
    (cn : JingleContent)
    : Speaks v (addTransFromJinglecontent env w p cn) := by
  refine speaks_bind speaks_get (fun _ => speaks_bind (speaks_deref _ _) (fun transfuncs => ?_))
  refine speaks_bind (transfuncs.newFromMessage_speaks env w cn) (fun result => ?_)
  cases result with
  | error err => exact speaks_bind (speaks_modifyContent p _) (fun _ => speaks_pure _)
  | ok t =>
      refine speaks_bind (speaks_modifyContent p _) (fun _ => ?_)
      exact speaks_bind (sessionAddTrans_speaks p _ _ t) (fun _ => speaks_pure _)

theorem sessionAddContentFromJinglecontent_speaks (env : Env) (w : World) (p : SessionPtr)
    (cn : JingleContent) (state : SessionState)
    : Speaks v (sessionAddContentFromJinglecontent env w p cn state) := by
  refine speaks_bind (sessionAddContent_speaks p _ _) (fun _ => ?_)
  refine speaks_bind speaks_get (fun _ => speaks_bind (speaks_deref _ _) (fun appfuncs => ?_))
  refine speaks_bind (appfuncs.newFromMessage_speaks env w cn) (fun result => ?_)
  cases result with
  | error err => exact speaks_bind (speaks_modifyContent p _) (fun _ => speaks_pure _)
  | ok d =>
      refine speaks_bind (speaks_modifyContent p _) (fun _ => ?_)
      refine speaks_bind (sessionAddApp_speaks p _ _ d) (fun _ => ?_)
      exact addTransFromJinglecontent_speaks env w p cn

theorem sessionRemoveSessioncontent_speaks (p : SessionPtr) (name : String)
    : Speaks v (sessionRemoveSessioncontent p name) := by
  refine speaks_bind (speaks_readSession p) (fun js => ?_)
  split
  · exact speaks_pure _
  · exact speaks_bind (speaks_modifyContent p _) (fun _ => speaks_pure _)

theorem sessionChangestateSessioncontent_speaks (p : SessionPtr) (name : String)
    (state : SessionState)
    : Speaks v (sessionChangestateSessioncontent p name state) :=
  speaks_bind (speaks_readSession p) (fun _ => speaks_modifyContent p _)

-----------------------------------------------------------------------------------------
-- IQs
-----------------------------------------------------------------------------------------

theorem sendReply_speaks (query answer : LmMessage) : Speaks v (sendReply query answer) :=
  fun _ => keeps_modify (fun _ spoke => spoke.replied query answer)

theorem jingleAckIq_speaks (m : LmMessage) : Speaks v (jingleAckIq m) := sendReply_speaks m _

theorem jingleSendIqError_speaks (m : LmMessage) (errtype cond : String)
    (jinglecond : Option String)
    : Speaks v (jingleSendIqError m errtype cond jinglecond) :=
  sendReply_speaks m _

/-- A session-terminate for whatever session is there. -/
theorem jingleSendSessionTerminate_spoke {p : SessionPtr} {reason : String}
    (spoke : Spoke v s₀ s)
    (utters : ∀ js, s.sessions.get? p = some js →
      v.utters (js.ident p) (sessionTerminateIq js reason))
    : (jingleSendSessionTerminate p reason).wp (fun _ => Spoke v s₀)
        (fun error _ => AnyFault error) s := by
  refine wp_seq (anyFault (readSession_known p)) ?_
  rintro js s ⟨rfl, listed⟩
  exact spoke.requested (utters js listed) (fun _ none => by cases none) 0 true

/-- The `<content/>` element of a session's content: its name, transport and description. -/
def IsContentNode (node : LmMessageNode) : Prop :=
  ∃ name transport description,
    transport.name = "transport" ∧ description.name = "description"
    ∧ node = element "content" [("name", name)] [transport, description]

theorem JingleTransportFuncs.tomessage_adds (t : TransportPtr) {node : LmMessageNode}
    (absent : node.getChild "transport" = none) (transfuncs : JingleTransportFuncs)
    : (transfuncs.tomessage t node).wp
        (fun node' s' => s' = s
          ∧ ∃ transport, transport.name = "transport" ∧ node' = node.addChild transport)
        (fun error _ => NotAckHandle error) s := by
  have unwritten : ¬(node.getChild "transport").isSome = true := by simp [absent]
  cases transfuncs with
  | ibb =>
      refine wp_seq (readIbb_readOnly t s) ?_
      rintro jibb s rfl
      rw [if_neg unwritten]
      exact ⟨rfl, _, rfl, rfl⟩
  | s5b =>
      refine wp_seq (readS5b_readOnly t s) ?_
      rintro js5b s rfl
      rw [if_neg unwritten]
      refine wp_cut (fun _ s' => s' = s) ?_ ?_
      · cases js5b.mode with
        | none => exact fail_known (by decide)
        | some mode => cases mode <;> rfl
      · rintro mode s rfl
        exact ⟨rfl, _, rfl, rfl⟩

theorem lmInsertSessioncontent_written (env : Env) (content : SessionContent)
    : (lmInsertSessioncontent env content).wp (fun node s' => s' = s ∧ IsContentNode node)
        (fun error _ => NotAckHandle error) s := by
  refine wp_seq (deref_readOnly _ _ s) ?_
  rintro transfuncs s rfl
  refine wp_seq (deref_readOnly _ _ s) ?_
  rintro t s rfl
  refine wp_seq (transfuncs.tomessage_adds t rfl) ?_
  rintro _ s ⟨rfl, transport, named, rfl⟩
  refine wp_seq (deref_readOnly _ _ s) ?_
  rintro _ s rfl
  refine wp_seq (deref_readOnly _ _ s) ?_
  rintro d s rfl
  refine wp_seq (readFt_readOnly d s) ?_
  rintro jft s rfl
  have undescribed : ¬(((element "content" [("name", content.name)] []).addChild
      transport).getChild "description").isSome = true := by
    simp [LmMessageNode.getChild, LmMessageNode.addChild, element, named]
  rw [if_neg undescribed]
  exact ⟨rfl, content.name, transport, _, named, rfl, rfl⟩

/-- By induction on the contents. -/
theorem lmInsertSessioncontents_written (env : Env) (contents : List SessionContent)
    : (lmInsertSessioncontents env contents).wp
        (fun nodes s' => s' = s ∧ ∀ node ∈ nodes, IsContentNode node)
        (fun error _ => NotAckHandle error) s := by
  induction contents with
  | nil => exact ⟨rfl, fun _ member => by cases member⟩
  | cons content rest ih =>
      refine wp_seq (lmInsertSessioncontent_written env content) ?_
      rintro node s ⟨rfl, first⟩
      refine wp_seq ih ?_
      rintro nodes s ⟨rfl, others⟩
      exact ⟨rfl, List.forall_mem_cons.mpr ⟨first, others⟩⟩

theorem lmMessageFromJinglesession_written (env : Env) (js : JingleSession)
    (action : JingleAction)
    : (lmMessageFromJinglesession env js action).wp
        (fun mess s' => s' = s ∧ ∃ contents, (∀ node ∈ contents, IsContentNode node)
          ∧ mess = jinglesessionIq js action contents)
        (fun error _ => NotAckHandle error) s := by
  refine wp_seq (lmInsertSessioncontents_written env js.content) ?_
  rintro contents s ⟨rfl, written⟩
  exact ⟨rfl, contents, written, rfl⟩

theorem jingleSendSessionAccept_spoke (env : Env) {p : SessionPtr} (spoke : Spoke v s₀ s)
    (utters : ∀ js, s.sessions.get? p = some js → ∀ contents,
      (∀ node ∈ contents, IsContentNode node) →
        v.utters (js.ident p) (jinglesessionIq js .sessionAccept contents))
    : (jingleSendSessionAccept env p).wp (fun _ => Spoke v s₀)
        (fun error _ => AnyFault error) s := by
  refine wp_seq (anyFault (readSession_known p)) ?_
  rintro js s ⟨rfl, listed⟩
  refine wp_seq (anyFault (lmMessageFromJinglesession_written env js _)) ?_
  rintro mess s ⟨rfl, contents, written, rfl⟩
  exact spoke.requested (utters js listed contents written) (fun _ other => by cases other) 60 true

theorem jingleSendSessionInitiate_speaks (env : Env) (w : World) {p : SessionPtr}
    (utters : ∀ js contents, (∀ node ∈ contents, IsContentNode node) →
      v.utters (js.ident p) (setInitiator (jinglesessionIq js .sessionInitiate contents)
        js.fromJid))
    : Speaks v (jingleSendSessionInitiate env w p) := by
  intro s₀ s spoke
  refine wp_seq (anyFault (readSession_known p)) ?_
  rintro js s ⟨rfl, listed⟩
  refine wp_seq (anyFault (lmMessageFromJinglesession_written env js _)) ?_
  rintro mess s ⟨rfl, contents, written, rfl⟩
  refine wp_cut (fun _ => Spoke v s₀) ?_ ?_
  · exact spoke.requested (utters js contents written) (fun _ other => by cases other) 60 w.sendOk
  · exact fun _ s' spoke' =>
      speaks_ite (speaks_pure ()) (sessionDelete_speaks w p) s₀ s' spoke'

end McabberJingle
