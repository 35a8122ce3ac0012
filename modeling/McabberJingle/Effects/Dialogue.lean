import McabberJingle.Effects.Speech

/-! What is said in answer to a stanza, a reply, the timer and the user. -/

namespace McabberJingle

open Program Program.Prog

variable {v : Speech} {s₀ s s' : State} {α β : Type}

-----------------------------------------------------------------------------------------
-- Incoming IQs
-----------------------------------------------------------------------------------------

section Handlers

variable (env : Env) (w : World)

/-- By induction on the contents of the invitation. -/
theorem addContents_speaks (sess : Option SessionPtr) (err : ErrVar)
    (contents : List JingleContent)
    : Speaks v (addContents env w sess err contents) := by
  induction contents generalizing err with
  | nil => exact speaks_pure _
  | cons cn rest ih =>
      refine speaks_bind speaks_get (fun _ => speaks_ite (ih err) ?_)
      refine speaks_bind (speaks_deref _ _) (fun p => ?_)
      refine speaks_bind (sessionAddContentFromJinglecontent_speaks env w p cn _) (fun error => ?_)
      exact speaks_bind (speaks_readOnly (reportError_readOnly _)) (fun err' => ih err')

theorem evsNew_speaks (p : SessionPtr) : Speaks v (evsNew w p) :=
  speaks_ite (speaks_modify (fun _ => hushed_of_same rfl rfl rfl)) (speaks_pure _)

/-- An invitation of which nothing is kept is answered with a session-terminate. -/
theorem handleSessionInitiate_speaks (jn : JingleNode)
    (refuse : ∀ p js, v.utters (js.ident p) (sessionTerminateIq js "unsupported-applications"))
    : Speaks v (handleSessionInitiate env w jn) := by
  have fill (sess : Option SessionPtr) (jn : JingleNode) (err : Option GError)
      : Speaks v (fillSession env w sess jn err) := by
    refine speaks_bind (addContents_speaks env w sess _ _) (fun _ => ?_)
    refine speaks_bind (speaks_deref _ _) (fun p => ?_)
    refine speaks_bind (speaks_readSession p) (fun js => speaks_ite ?_ ?_)
    · refine speaks_bind (fun s₀ s spoke => ?_) (fun _ => sessionDelete_speaks w p)
      exact jingleSendSessionTerminate_spoke spoke (fun js _ => refuse p js)
    · exact speaks_bind (speaks_readOnly (showContents_readOnly _)) (fun _ => evsNew_speaks w p)
  have failed (result : JingleNode) (cond : String) (jinglecond : Option String)
      : Speaks v (do
          jingleSendIqError jn.message "cancel" cond jinglecond
          pure result : Run JingleNode) :=
    speaks_bind (jingleSendIqError_speaks _ _ _ _) (fun _ => speaks_pure _)
  refine speaks_bind (speaks_deref _ _) (fun sender => ?_)
  refine speaks_ite (failed jn _ _) (speaks_ite ?_ (speaks_ite (failed _ _ _)
    (speaks_ite (failed _ _ _) ?_)))
  · exact speaks_bind (speaks_deref _ _) (fun _ => failed _ _ _)
  · refine speaks_bind speaks_get (fun _ => speaks_ite (failed _ _ _) ?_)
    refine speaks_bind ?_ (fun _ => speaks_pure _)
    refine speaks_bind (jingleAckIq_speaks _) (fun _ => ?_)
    exact speaks_bind (sessionNewFromJinglenode_speaks _) (fun sess => fill sess _ _)

/-- By induction on the contents. -/
theorem offerInfo_speaks (child : LmMessageNode) (contents : List SessionContent)
    : Speaks v (offerInfo child contents) := by
  induction contents with
  | nil => exact speaks_pure _
  | cons sc rest ih =>
      refine speaks_bind (speaks_deref _ _) (fun _ => speaks_bind (speaks_deref _ _) (fun d => ?_))
      refine speaks_bind (FileTransfer.handle_speaks _ d child) (fun status => ?_)
      exact speaks_ite (speaks_pure _) ih

theorem handleSessionInfo_speaks (jn : JingleNode) : Speaks v (handleSessionInfo jn) := by
  have answered {reply : Run Unit} (speaks : Speaks v reply)
      : Speaks v (do reply; pure jn : Run JingleNode) :=
    speaks_bind speaks (fun _ => speaks_pure _)
  refine speaks_bind speaks_get (fun s => ?_)
  split
  · exact answered (jingleSendIqError_speaks _ _ _ _)
  · split
    · exact answered (jingleAckIq_speaks _)
    · refine speaks_bind (offerInfo_speaks _ _) (fun handled => ?_)
      split
      · exact answered (jingleAckIq_speaks _)
      · exact answered (jingleSendIqError_speaks _ _ _ _)

/-- By induction on the contents named. -/
theorem acceptContents_speaks (p : SessionPtr) (contents : List JingleContent)
    : Speaks v (acceptContents env p contents) := by
  induction contents with
  | nil => exact speaks_pure _
  | cons jc rest ih =>
      refine speaks_bind (speaks_readSession p) (fun js => ?_)
      split
      · exact ih
      · refine speaks_bind (sessionChangestateSessioncontent_speaks p _ _) (fun _ => ?_)
        refine speaks_bind (speaks_deref _ _) (fun transfuncs => ?_)
        refine speaks_bind (speaks_deref _ _) (fun t => ?_)
        refine speaks_bind (speaks_bind (speaks_modify (fun _ => hushed_of_same rfl rfl rfl))
          (fun _ => transfuncs.handle_speaks env _ t _)) (fun _ => ?_)
        refine speaks_bind (speaks_modify (fun _ => hushed_of_same rfl rfl rfl)) (fun _ => ?_)
        exact speaks_bind (speaks_readOnly (transfuncs.init_readOnly _ t)) (fun _ => ih)

theorem handleSessionAccept_speaks (jn : JingleNode) : Speaks v (handleSessionAccept env jn) := by
  refine speaks_bind speaks_get (fun s => ?_)
  split
  · exact speaks_bind (jingleSendIqError_speaks _ _ _ _) (fun _ => speaks_pure _)
  · rename_i p _ _
    refine speaks_ite ?_ ?_
    · refine speaks_bind (speaks_deref _ _) (fun _ => ?_)
      exact speaks_bind (jingleSendIqError_speaks _ _ _ _) (fun _ => speaks_pure _)
    · refine speaks_bind (jingleAckIq_speaks _) (fun _ => ?_)
      exact speaks_bind (acceptContents_speaks env p _) (fun _ => speaks_pure _)

/-- By induction on the contents. -/
theorem terminateContents_speaks (p : SessionPtr) (sender : Option String)
    (contents : List SessionContent)
    : Speaks v (terminateContents env w p sender contents) := by
  induction contents with
  | nil => exact speaks_pure _
  | cons sc rest ih =>
      refine speaks_bind (speaks_readSession p) (fun js => ?_)
      have unlink : Speaks v (do
          let _ ← sessionRemoveSessioncontent p sc.name
          if ← readFreedLink w then
            terminateContents env w p sender rest : Run Unit) :=
        speaks_bind (sessionRemoveSessioncontent_speaks p _) (fun _ =>
          speaks_bind (speaks_readFreedLink w) (fun _ => speaks_ite ih (speaks_pure _)))
      refine speaks_ite ?_ unlink
      refine speaks_bind (speaks_deref _ _) (fun _ => speaks_bind (speaks_deref _ _) (fun d => ?_))
      exact speaks_bind (FileTransfer.stop_speaks env w d) (fun _ => unlink)

theorem handleSessionTerminate_speaks (jn : JingleNode)
    : Speaks v (handleSessionTerminate env w jn) := by
  refine speaks_bind speaks_get (fun s => ?_)
  split
  · exact speaks_bind (jingleSendIqError_speaks _ _ _ _) (fun _ => speaks_pure _)
  · rename_i p _ _
    refine speaks_bind (terminateContents_speaks env w p _ _) (fun _ => ?_)
    refine speaks_bind (sessionDelete_speaks w p) (fun _ => ?_)
    refine speaks_bind (jingleAckIq_speaks _) (fun _ => ?_)
    exact speaks_bind (speaks_modify (fun _ => hushed_of_same rfl rfl rfl)) (fun _ => speaks_pure _)

theorem handleTransportInfo_speaks (jn : JingleNode) : Speaks v (handleTransportInfo jn) := by
  have failed (errtype cond : String) (jinglecond : Option String)
      : Speaks v (do
          jingleSendIqError jn.message errtype cond jinglecond
          pure jn : Run JingleNode) :=
    speaks_bind (jingleSendIqError_speaks _ _ _ _) (fun _ => speaks_pure _)
  refine speaks_bind speaks_get (fun s => ?_)
  split
  · exact failed _ _ _
  · split
    · exact failed _ _ _
    · split
      · exact failed _ _ _
      · refine speaks_bind (speaks_deref _ _) (fun _ => ?_)
        refine speaks_bind (speaks_deref _ _) (fun t => ?_)
        exact speaks_bind (FileTransfer.handle_speaks _ t _) (fun _ => speaks_pure _)

theorem actionHandler_speaks {action : JingleAction} {handler : JingleNode → Run JingleNode}
    (handled : actionHandler env w action = some handler)
    (refuse : ∀ p js, v.utters (js.ident p) (sessionTerminateIq js "unsupported-applications"))
    (jn : JingleNode)
    : Speaks v (handler jn) := by
  cases action <;> cases handled
  case sessionAccept => exact handleSessionAccept_speaks env jn
  case sessionInfo => exact handleSessionInfo_speaks jn
  case sessionInitiate => exact handleSessionInitiate_speaks env w jn refuse
  case sessionTerminate => exact handleSessionTerminate_speaks env w jn
  case transportInfo => exact handleTransportInfo_speaks jn

theorem jingleHandleIq_speaks (message : LmMessage)
    (refuse : ∀ p js, v.utters (js.ident p) (sessionTerminateIq js "unsupported-applications"))
    : Speaks v (jingleHandleIq env w message) := by
  have freed (jn : JingleNode)
      : Speaks v (do
          jingleFreeJinglenode jn
          pure .removeMessage : Run LmHandlerResult) :=
    speaks_bind (speaks_readOnly (jingleFreeJinglenode_readOnly jn)) (fun _ => speaks_pure _)
  refine speaks_ite (speaks_pure _) ?_
  split
  · exact speaks_pure _
  · refine speaks_ite (speaks_pure _) ?_
    split
    · exact speaks_bind (jingleSendIqError_speaks _ _ _ _) (fun _ => speaks_pure _)
    · split
      · exact speaks_bind (jingleSendIqError_speaks _ _ _ _) (fun _ => freed _)
      · rename_i handled
        exact speaks_bind (actionHandler_speaks env w handled refuse _) (fun jn => freed jn)

theorem jingleIbbHandleIq_speaks (message : LmMessage)
    : Speaks v (jingleIbbHandleIq env w message) := by
  have handled (t : TransportPtr) (data : Option (List UInt8))
      : Speaks v (handleTransData w t data) := by
    refine speaks_bind speaks_get (fun s => ?_)
    split
    · exact speaks_pure _
    · refine speaks_bind (speaks_deref _ _) (fun _ => speaks_bind (speaks_deref _ _) (fun d => ?_))
      split
      · exact speaks_fail _
      · exact speaks_bind (FileTransfer.handleData_speaks w d _) (fun _ => speaks_pure _)
  refine speaks_ite (speaks_pure _) ?_
  split
  · exact speaks_pure _
  · refine speaks_ite (speaks_pure _) ?_
    refine speaks_bind (speaks_deref _ _) (fun sid => speaks_bind speaks_get (fun s => ?_))
    split
    · exact speaks_pure _
    · refine speaks_bind (jingleAckIq_speaks _) (fun _ => ?_)
      exact speaks_bind (handled _ _) (fun _ => speaks_pure _)

end Handlers

-----------------------------------------------------------------------------------------
-- The sending side
-----------------------------------------------------------------------------------------

/-- What a run of the program from `s` lets hear. -/
abbrev Talks (v : Speech) (s : State) (m : Run α) : Prop :=
  m.wp (fun _ s' => Spoke v s s') (fun error _ => AnyFault error) s

theorem Speaks.talks {m : Run α} (speaks : Speaks v m) : Talks v s m := speaks s s (.refl v s)

/-- What is heard from `s'` on is heard after what was heard before. -/
theorem Spoke.onward {m : Run α} (spoke : Spoke v s s') (talks : Talks v s' m)
    : m.wp (fun _ s'' => Spoke v s s'') (fun error _ => AnyFault error) s' :=
  wp_post talks (fun _ _ spoke' => spoke.trans spoke')

/-- Sequencing: the rest starts from what was heard so far. -/
theorem talks_bind {m : Run α} {next : α → Run β} (first : Talks v s m)
    (rest : ∀ value s', Spoke v s s' → Talks v s' (next value))
    : Talks v s (m >>= next) :=
  wp_seq first (fun value s' spoke => spoke.onward (rest value s' spoke))

theorem talks_ite {c : Prop} [Decidable c] {m n : Run α} (yes : c → Talks v s m)
    (no : ¬c → Talks v s n)
    : Talks v s (if c then m else n) :=
  (wp_ite m n).mpr ⟨yes, no⟩

/-- What is said for a session that data is sent for; sessions with its sid and peer are sent
for as well.
-/
structure MaySpeak (env : Env) (v : Speech) : Prop where
  same : ∀ ident ident', v.serves ident → ident'.sid = ident.sid →
    asciiLower ident'.recipient = asciiLower ident.recipient → v.serves ident'
  data : ∀ p (js : JingleSession) buf sid seq, v.serves (js.ident p) →
    v.utters (js.ident p) (ibbDataIq env js.toJid buf sid seq)
  hash : ∀ p (js : JingleSession) hash, v.serves (js.ident p) →
    v.utters (js.ident p) (hashIq js.toJid js.sid hash)
  success : ∀ p (js : JingleSession), v.serves (js.ident p) →
    v.utters (js.ident p) (sessionTerminateIq js "success")

section Circle

variable {ref : SessionContentRef} {p : SessionPtr} {js : JingleSession}

theorem Refers.listed {serves : SessionIdent → Prop} (refers : Refers serves s ref)
    (listed : s.sessions.get? ref.owner = some js)
    : serves (js.ident ref.owner) := by
  obtain ⟨ident, owner, served, _, who⟩ := refers
  rw [← owner] at listed ⊢
  rw [who js listed]
  exact served

/-- The session that is found through a `session_content` is served. -/
theorem Refers.found {env : Env} (may : MaySpeak env v) (refers : Refers v.serves s ref)
    (finds : FindsRef s ref (some (p, js)))
    : v.serves (js.ident p) := by
  rcases finds with ⟨_, none⟩ | ⟨owner, listed, hit⟩
  · cases none
  · obtain ⟨sid, peer⟩ := sessionFindBySid_key hit.symm
    have lower : asciiLower js.recipient = asciiLower owner.recipient := by
      simpa only [gAsciiStrcaseeq, beq_iff_eq] using peer
    exact may.same _ _ (refers.listed listed) sid lower

theorem refers_of_listed {serves : SessionIdent → Prop} (name : String)
    (listed : s.sessions.get? p = some js) (served : serves (js.ident p))
    : Refers serves s { owner := p, name } :=
  ⟨js.ident p, rfl, served, identified_of_listed listed⟩

variable (env : Env) (may : MaySpeak env v)

include may

theorem ibbSendInternal_talks (t : TransportPtr) (buf : List UInt8)
    (refers : Refers v.serves s ref) (serves : v.serves (js.ident p))
    : Talks v s (ibbSendInternal env ref p js t buf) := by
  refine wp_seq (anyFault (readIbb_known t)) ?_
  rintro jibb s ⟨rfl, _⟩
  refine talks_bind ?_ (fun _ s' _ => ?_)
  · exact (Spoke.refl v s).requested (may.data p js buf _ _ serves)
      (fun _ same => by cases same; exact refers) 0 true
  · have counted := speaks_bind (v := v)
      (speaks_modify (f := fun s : State =>
        { s with packets := s.packets ++ [(t, ibbDataIq env js.toJid buf jibb.sid jibb.seq)] })
        (fun _ => hushed_of_same rfl rfl rfl))
      (fun _ => speaks_modifyTransport t (fun _ => .ibb { jibb with seq := jibb.seq + 1 }))
    exact counted.talks

theorem ibbSendBlock_talks (t : TransportPtr) (refers : Refers v.serves s ref)
    (serves : v.serves (js.ident p))
    : Talks v s (ibbSendBlock env ref p js t) := by
  refine wp_seq (anyFault (readIbb_known t)) ?_
  rintro jibb s ⟨rfl, _⟩
  refine talks_bind (speaks_modifyTransport t _).talks (fun _ s' spoke => ?_)
  exact ibbSendInternal_talks env may t _ (refers.later spoke.known) serves

/-- `send` of the IBB table. -/
theorem ibbSend_talks {next : SessionContentRef → Run Unit} (t : TransportPtr)
    (data : List UInt8) (asks : ∀ s, Refers v.serves s ref → Talks v s (next ref))
    (refers : Refers v.serves s ref)
    : Talks v s (ibbSend env next ref t data) := by
  refine wp_seq (anyFault (readIbb_known t)) ?_
  rintro jibb s ⟨rfl, _⟩
  rw [wp_ite]
  refine ⟨fun _ => trivial, fun _ => ?_⟩
  refine talks_bind (speaks_modifyTransport t _).talks (fun _ s' spoke => ?_)
  have refers' := refers.later spoke.known
  refine talks_ite (fun _ => asks s' refers') (fun _ => ?_)
  refine wp_seq (anyFault (sessionFindByRef_known ref)) ?_
  rintro sess s' ⟨rfl, finds⟩
  refine wp_seq (anyFault (deref_known .session sess)) ?_
  rintro ⟨p, js⟩ s' ⟨rfl, rfl⟩
  exact ibbSendBlock_talks env may t refers' (refers'.found may finds)

/-- `end` of the IBB table. -/
theorem ibbEnd_talks (t : TransportPtr) (refers : Refers v.serves s ref)
    : Talks v s (ibbEnd env ref t) := by
  refine wp_seq (anyFault (sessionFindByRef_known ref)) ?_
  rintro sess s ⟨rfl, finds⟩
  refine wp_seq (anyFault (readIbb_known t)) ?_
  rintro jibb s ⟨rfl, _⟩
  rw [wp_ite]
  refine ⟨fun _ => trivial, fun _ => ?_⟩
  refine talks_bind ?_ (fun _ _ _ => (speaks_modifyTransport t _).talks)
  refine talks_ite (fun _ => ?_) (fun _ => .refl v s)
  refine wp_seq (anyFault (deref_known .session sess)) ?_
  rintro ⟨p, js⟩ s ⟨rfl, rfl⟩
  exact ibbSendInternal_talks env may t _ refers (refers.found may finds)

/-- The transport gets a reference to the session that was found. -/
theorem handleAppData_talks {next : SessionContentRef → Run Unit} (data : List UInt8)
    (asks : ∀ sc s, Refers v.serves s sc → Talks v s (next sc))
    (refers : Refers v.serves s ref)
    : Talks v s (handleAppData env next ref data) := by
  refine wp_seq (anyFault (sessionFindByRef_known ref)) ?_
  rintro found s ⟨rfl, finds⟩
  rcases found with _ | ⟨p, js⟩
  · exact .refl v s
  refine wp_seq (anyFault (deref_known .content _)) ?_
  rintro sc s ⟨rfl, _⟩
  refine wp_seq (anyFault (deref_known .transfuncs _)) ?_
  rintro transfuncs s ⟨rfl, _⟩
  have onward := refers_of_listed sc.name finds.listed (refers.found may finds)
  cases transfuncs with
  | s5b => exact .refl v s
  | ibb =>
      refine wp_seq (anyFault (deref_known .transport _)) ?_
      rintro t s ⟨rfl, _⟩
      rw [wp_ite]
      constructor
      · intro _
        exact ibbEnd_talks env may t onward
      · intro _
        exact ibbSend_talks env may t data (asks _) onward

omit may in
theorem handleTransNext_talks {appSend : SessionContentRef → Run Unit}
    (sends : ∀ s, Refers v.serves s ref → Talks v s (appSend ref))
    (refers : Refers v.serves s ref)
    : Talks v s (handleTransNext appSend ref) := by
  refine wp_seq (anyFault (sessionFindByRef_known ref)) ?_
  rintro found s ⟨rfl, _⟩
  cases found with
  | none => exact .refl v s
  | some cell =>
      refine talks_bind (speaks_deref _ _).talks (fun _ s₁ spoke => ?_)
      refine talks_bind (speaks_deref _ _).talks (fun _ s₂ spoke' => ?_)
      exact sends s₂ (refers.later (spoke.trans spoke').known)

variable (w : World)

/-- The EOF branch: the session that was found is told, if it is still there. -/
theorem ftSendEof_talks {next : SessionContentRef → Run Unit} (sc2 : SessionContent) (d : FtPtr)
    (asks : ∀ sc s, Refers v.serves s sc → Talks v s (next sc))
    (refers : Refers v.serves s ref) (finds : FindsRef s ref (some (p, js)))
    : Talks v s (ftSendEof env w next ref p sc2 d) := by
  have here := refers_of_listed sc2.name finds.listed (refers.found may finds)
  refine talks_bind (handleAppData_talks env may [] asks refers) (fun _ s₁ spoke => ?_)
  have here := here.later spoke.known
  refine talks_bind (speaks_readOnly (readFt_readOnly d)).talks (fun ft s₂ spoke => ?_)
  have here := here.later spoke.known
  refine talks_bind (speaks_readOnly (FileTransfer.checksumGetString_readOnly env _)).talks
    (fun hash s₃ spoke => ?_)
  have here := here.later spoke.known
  refine talks_bind (speaks_modifyFt d _).talks (fun _ s₄ spoke => ?_)
  have here := here.later spoke.known
  refine talks_bind (sessionChangestateSessioncontent_speaks p _ _).talks (fun _ s₅ spoke => ?_)
  have here := here.later spoke.known
  refine wp_seq (anyFault (readSession_known p)) ?_
  rintro js s₅ ⟨rfl, listed⟩
  refine talks_bind ?_ (fun _ s₆ spoke => ?_)
  · exact (Spoke.refl v s₅).requested (may.hash p js hash (here.listed listed))
      (fun _ none => by cases none) 0 true
  have here := here.later spoke.known
  refine talks_bind (speaks_modifyFt d _).talks (fun _ s₇ spoke => ?_)
  have here := here.later spoke.known
  refine talks_bind (sessionRemoveSessioncontent_speaks p _).talks (fun left s₈ spoke => ?_)
  have here := here.later spoke.known
  refine talks_ite (fun _ => ?_) (fun _ => .refl v s₈)
  refine talks_bind ?_ (fun _ _ _ => (sessionDelete_speaks w p).talks)
  exact jingleSendSessionTerminate_spoke (.refl v s₈)
    (fun js listed => may.success p js (here.listed listed))

/-- `send` of the application table, given what the rest of the circle says. -/
theorem ftSendBody_talks {next : SessionContentRef → Run Unit}
    (asks : ∀ sc s, Refers v.serves s sc → Talks v s (next sc))
    (refers : Refers v.serves s ref)
    : Talks v s (ftSendBody env w next ref) := by
  refine wp_seq (anyFault (sessionFindByRef_known ref)) ?_
  rintro found s ⟨rfl, finds⟩
  rcases found with _ | ⟨p, js⟩
  · exact .refl v s
  refine wp_seq (anyFault (deref_known .content _)) ?_
  rintro sc2 s ⟨rfl, _⟩
  refine wp_seq (anyFault (deref_known .description _)) ?_
  rintro d s ⟨rfl, _⟩
  refine wp_seq (anyFault (readFt_known d)) ?_
  rintro ft s ⟨rfl, _⟩
  rw [wp_ite]
  refine ⟨fun _ => .refl v s, fun _ => ?_⟩
  split
  · rename_i reads _
    cases readChars 9 reads with
    | mk status rest =>
    refine wp_cut (fun _ s' => Spoke v s s' ∧ s'.sessions = s.sessions)
      ⟨(Spoke.refl v s).hushed (hushed_of_same rfl rfl rfl), rfl⟩ ?_
    rintro _ s₁ ⟨spoke, same⟩
    have refers' := refers.later spoke.known
    have finds' : FindsRef s₁ ref (some (p, js)) := by
      simpa only [FindsRef, sessionFindBySid, same] using finds
    refine spoke.onward ?_
    cases status with
    | again => exact .refl v s₁
    | error => exact (speaks_modifyFt d _).talks
    | eof => exact ftSendEof_talks env may w sc2 d asks refers' finds'
    | normal data =>
        refine talks_bind (speaks_readOnly (FileTransfer.checksumUpdate_readOnly _ data)).talks
          (fun md5 s₂ spoke₂ => ?_)
        refine talks_bind (speaks_modifyFt d _).talks (fun _ s₃ spoke₃ => ?_)
        exact handleAppData_talks env may data asks
          (refers'.later (spoke₂.trans spoke₃).known)
  · trivial

/-- By induction on the fuel, which bounds the rounds of the circle. -/
theorem ftSend_talks (fuel : Nat) (sc : SessionContentRef) (s : State)
    (refers : Refers v.serves s sc)
    : Talks v s (ftSend env w fuel sc) := by
  induction fuel generalizing sc s with
  | zero => trivial
  | succ fuel ih =>
      refine ftSendBody_talks env may w ?_ refers
      exact fun sc s refers => handleTransNext_talks (ih sc) refers

theorem ftSendAll_talks (sc : SessionContentRef) (s : State) (refers : Refers v.serves s sc)
    : Talks v s (ftSendAll env w sc) :=
  wp_known rfl (ftSend_talks env may w _ sc s refers)

theorem ftStart_talks (refers : Refers v.serves s ref) : Talks v s (ftStart env w ref) := by
  refine wp_seq (anyFault (sessionFindByRef_known ref)) ?_
  rintro found s ⟨rfl, _⟩
  rcases found with _ | ⟨p, js⟩
  · exact .refl v s
  refine talks_bind (speaks_deref _ _).talks (fun sc2 s₁ spoke₁ => ?_)
  refine talks_bind (speaks_deref _ _).talks (fun d s₂ spoke₂ => ?_)
  refine talks_bind (speaks_readOnly (readFt_readOnly d)).talks (fun _ s₃ spoke₃ => ?_)
  refine talks_bind (speaks_modifyFt d _).talks (fun _ s₄ spoke₄ => ?_)
  refine talks_bind (speaks_deref _ _).talks (fun _ s₅ spoke₅ => ?_)
  have spoke := (((spoke₁.trans spoke₂).trans spoke₃).trans spoke₄).trans spoke₅
  exact ftSendAll_talks env may w ref s₅ (refers.later spoke.known)

theorem jingleIbbHandleAckIqSend_talks (refers : Refers v.serves s ref)
    : Talks v s (jingleIbbHandleAckIqSend env w ref) := by
  refine wp_seq (anyFault (sessionFindByRef_known ref)) ?_
  rintro found s ⟨rfl, finds⟩
  rcases found with _ | ⟨p, js⟩
  · exact .refl v s
  refine wp_seq (anyFault (deref_known .content _)) ?_
  rintro sc2 s ⟨rfl, _⟩
  refine wp_seq (anyFault (deref_known .transport _)) ?_
  rintro t s ⟨rfl, _⟩
  refine wp_seq (anyFault (readIbb_known t)) ?_
  rintro jibb s ⟨rfl, _⟩
  rw [wp_ite]
  constructor
  · intro _
    rw [wp_ite]
    refine ⟨fun _ => trivial, fun _ => ?_⟩
    exact ibbSendBlock_talks env may t refers (refers.found may finds)
  · intro _
    exact handleTransNext_talks (ftSendAll_talks env may w ref) refers

end Circle

-----------------------------------------------------------------------------------------
-- Replies and timeouts
-----------------------------------------------------------------------------------------

/-- Every packet that awaits its answer is one of a session that is served. -/
def Awaits (serves : SessionIdent → Prop) (s : State) : Prop :=
  ∀ ah handle ref, s.ackHandlers.get? ah = some handle →
    handle.callback = some (.ibbSend ref) → Refers serves s ref

theorem Awaits.spoken (awaits : Awaits v.serves s) (spoke : Spoke v s s')
    : Awaits v.serves s' := by
  intro ah handle ref there callback
  rcases spoke.awaited ah handle ref there callback with earlier | refers
  · exact (awaits ah handle ref earlier callback).later spoke.known
  · exact refers

section Callbacks

variable (env : Env) (w : World) (may : MaySpeak env v)

theorem deleteOnReply_speaks (sess : SessionPtr) (mess : LmMessage)
    : Speaks v (deleteOnReply w sess mess) := by
  refine speaks_ite (speaks_pure _) (speaks_ite ?_ (sessionDelete_speaks w sess))
  exact speaks_bind (speaks_deref _ _) (fun _ => sessionDelete_speaks w sess)

include may

/-- Only the callback of a packet says something. -/
theorem runCallback_talks (ah : AckPtr) (type : JingleAckType) (mess : Option LmMessage)
    {callback : Option AckCallback}
    (refers : ∀ ref, callback = some (.ibbSend ref) → Refers v.serves s ref)
    : Talks v s (runCallback env w ah type mess callback) := by
  have fired : Speaks v (Prog.modify (fun s =>
      { s with fired := s.fired ++ [(ah, type)] }) : Run Unit) :=
    speaks_modify (fun _ => hushed_of_same rfl rfl rfl)
  cases callback with
  | none => exact .refl v s
  | some callback =>
      refine talks_bind fired.talks (fun _ s' spoke => ?_)
      cases callback with
      | ibbSend ref =>
          exact jingleIbbHandleAckIqSend_talks env may w ((refers ref rfl).later spoke.known)
      | sessionInitiate sess =>
          cases mess with
          | none => exact (sessionDelete_speaks w sess).talks
          | some mess => exact (deleteOnReply_speaks w sess mess).talks
      | sessionAccept sess =>
          cases mess with
          | none => exact (sessionDelete_speaks w sess).talks
          | some mess => exact (deleteOnReply_speaks w sess mess).talks

omit may in
theorem jingleAckHandlerFree_speaks (ah : AckPtr) : Speaks v (jingleAckHandlerFree ah) := by
  refine speaks_modify (fun s => ⟨rfl, fun other handle there => ?_, fun _ known => known⟩)
  exact (Pool.get?_erase_eq_some.mp there).2

omit may in
/-- What a handle that can be read is for. -/
theorem readAck_talks {next : JingleAckHandle → Run α} {ah : AckPtr}
    (awaits : Awaits v.serves s)
    (rest : ∀ handle, (∀ ref, handle.callback = some (.ibbSend ref) → Refers v.serves s ref) →
      Talks v s (next handle))
    : Talks v s (readAck ah >>= next) := by
  refine wp_cut (fun handle s' => s' = s ∧ s.ackHandlers.get? ah = some handle) ?_ ?_
  · refine wp_known rfl ?_
    cases s.ackHandlers.get? ah with
    | none => trivial
    | some handle => exact ⟨rfl, rfl⟩
  · rintro handle _ ⟨rfl, there⟩
    exact rest handle (fun ref callback => awaits ah handle ref there callback)

theorem jingleHandleAckIq_talks (ah : AckPtr) (message : LmMessage)
    (awaits : Awaits v.serves s)
    : Talks v s (jingleHandleAckIq env w ah message) := by
  refine readAck_talks awaits (fun handle refers => ?_)
  refine talks_bind (runCallback_talks env w may ah _ _ refers) (fun _ s' _ => ?_)
  refine Speaks.talks ?_
  exact speaks_bind (jingleAckHandlerFree_speaks ah) (fun _ =>
    speaks_modify (fun _ => hushed_of_same rfl rfl rfl))

/-- By induction on the handles still to visit. -/
theorem timeoutLoop_talks (now : Nat) (prev : Trail) (handles : List AckPtr)
    (awaits : Awaits v.serves s)
    : Talks v s (timeoutLoop env w now prev handles) := by
  induction handles generalizing prev s with
  | nil => exact .refl v s
  | cons ah rest ih =>
      refine readAck_talks awaits (fun handle refers => ?_)
      refine talks_ite (fun _ => ?_) (fun _ => ih .live awaits)
      have expired : Talks v s (expireHandle env w ah handle) :=
        talks_bind (runCallback_talks env w may ah _ _ refers)
          (fun _ _ _ => (jingleAckHandlerFree_speaks ah).talks)
      refine talks_bind expired (fun _ s₁ spoke₁ => ?_)
      have awaits₁ := awaits.spoken spoke₁
      refine talks_bind speaks_get.talks (fun _ s₂ spoke₂ => ?_)
      have awaits₂ := awaits₁.spoken spoke₂
      refine talks_ite (fun _ => .refl v s₂) (fun _ => ?_)
      cases prev with
      | live => exact ih .live awaits₂
      | head =>
          refine talks_bind (speaks_readFreedLink w).talks (fun link s₃ spoke₃ => ?_)
          exact talks_ite (fun _ => ih .freed (awaits₂.spoken spoke₃)) (fun _ => .refl v s₃)
      | freed =>
          refine talks_bind (speaks_readFreedLink w).talks (fun link s₃ spoke₃ => ?_)
          refine talks_ite (fun _ => ?_) (fun _ => .refl v s₃)
          exact readAck_talks (awaits₂.spoken spoke₃) (fun _ _ => .refl v s₃)

end Callbacks

-----------------------------------------------------------------------------------------
-- The user
-----------------------------------------------------------------------------------------

section User

variable (env : Env) (w : World)

/-- What the answer to an invitation says: that it is accepted, or declined. -/
structure MayAnswer (v : Speech) (s : State) (context : EvsContext) (p : SessionPtr) : Prop where
  accept : context = .accept → ∀ js, s.sessions.get? p = some js → ∀ contents,
    (∀ node ∈ contents, IsContentNode node) →
      v.utters (js.ident p) (jinglesessionIq js .sessionAccept contents)
  reject : context = .reject → ∀ js, s.sessions.get? p = some js →
    v.utters (js.ident p) (sessionTerminateIq js "decline")

theorem evscallbackJingle_talks {context : EvsContext} {p : SessionPtr}
    (may : MayAnswer v s context p)
    : Talks v s (evscallbackJingle env context p) := by
  refine wp_seq (anyFault (readSession_known p)) ?_
  rintro _ s ⟨rfl, _⟩
  cases context with
  | accept =>
      have aside : Hushed s { s with accepted := s.accepted ++ [p] } := hushed_of_same rfl rfl rfl
      exact jingleSendSessionAccept_spoke env ((Spoke.refl v s).hushed aside) (may.accept rfl)
  | reject => exact jingleSendSessionTerminate_spoke (.refl v s) (may.reject rfl)
  | timeout => exact .refl v s
  | cancel => exact .refl v s
  | other => exact .refl v s

theorem handleTransportInitialize_talks (may : MaySpeak env v) (correct : Bool)
    {ref : SessionContentRef} (refers : Refers v.serves s ref)
    : Talks v s (handleTransportInitialize env w correct ref) := by
  refine wp_seq (anyFault (sessionFindByRef_known ref)) ?_
  rintro found s ⟨rfl, _⟩
  refine wp_seq (anyFault (deref_known .session found)) ?_
  rintro ⟨p, sess⟩ s ⟨rfl, rfl⟩
  refine wp_seq (anyFault (deref_known .content _)) ?_
  rintro sc s ⟨rfl, _⟩
  refine talks_ite (fun _ => ?_) (fun _ => ?_)
  · refine talks_bind (speaks_deref _ _).talks (fun _ s₁ spoke₁ => ?_)
    have started : Speaks v (Prog.modify (fun s => { s with starts := s.starts ++ [ref] })
        : Run Unit) :=
      speaks_modify (fun _ => hushed_of_same rfl rfl rfl)
    refine talks_bind started.talks (fun _ s₂ spoke₂ => ?_)
    exact ftStart_talks env may w (refers.later (spoke₁.trans spoke₂).known)
  · exact (speaks_bind (sessionRemoveSessioncontent_speaks p _) (fun _ => speaks_fail _)).talks

/-- By induction on the entries. -/
theorem addApps_speaks (p : SessionPtr) (entries : List AppEntry)
    : Speaks v (addApps p entries) := by
  induction entries with
  | nil => exact speaks_pure _
  | cons entry rest ih =>
      refine speaks_bind (sessionAddContent_speaks p _ _) (fun _ => speaks_bind speaks_get ?_)
      intro _
      refine speaks_bind (speaks_modifyContent p _) (fun _ => ?_)
      exact speaks_bind (sessionAddApp_speaks p _ _ _) (fun _ => ih)

/-- What offering a file says. -/
def MayInvite (v : Speech) : Prop :=
  ∀ p (js : JingleSession) contents, (∀ node ∈ contents, IsContentNode node) →
    v.utters (js.ident p) (setInitiator (jinglesessionIq js .sessionInitiate contents) js.fromJid)

theorem jftSendTransfer_speaks (may : MayInvite v) (d : FtPtr)
    : Speaks v (jftSendTransfer env w d) := by
  unfold jftSendTransfer
  split
  · exact speaks_modifyFt d _
  split
  · exact speaks_modifyFt d _
  refine speaks_bind ?_ (fun _ => ?_)
  · exact speaks_bind (sessionNew_speaks _ _ _ _) (fun p => addApps_speaks p _)
  refine speaks_bind speaks_get (fun s => ?_)
  refine speaks_bind (speaks_readOnly (jingleTransportForApp_readOnly _ none)) (fun chosen => ?_)
  refine speaks_bind speaks_get (fun s => ?_)
  split
  · exact speaks_pure _
  · rename_i transfuncs _
    refine speaks_bind (transfuncs.new_speaks w) (fun t => ?_)
    refine speaks_bind (speaks_deref _ _) (fun cell => ?_)
    refine speaks_bind (speaks_modifyContent cell.1 _) (fun _ => ?_)
    refine speaks_bind (sessionAddTrans_speaks cell.1 _ _ t) (fun _ => ?_)
    exact jingleSendSessionInitiate_speaks env w (may cell.1)

theorem jftSend_speaks (may : MayInvite v) (arg : Option String)
    : Speaks v (jftSend env w arg) := by
  cases arg with
  | none => exact speaks_pure _
  | some name =>
      refine speaks_bind (FileTransfer.new_speaks env w name) (fun made => ?_)
      cases made with
      | none => exact speaks_pure _
      | some d => exact jftSendTransfer_speaks env w may d

theorem jftRetry_speaks (may : MayInvite v) (arg : Option String)
    : Speaks v (jftRetry env w arg) := by
  refine speaks_bind speaks_get (fun s => ?_)
  split
  · rename_i d _ _ _
    exact speaks_bind (speaks_modifyFt d _) (fun _ => jftSendTransfer_speaks env w may d)
  · exact speaks_pure _

theorem jftFlush_speaks : Speaks v jftFlush := by
  refine speaks_bind speaks_get (fun s => ?_)
  split
  · exact speaks_fail _
  · exact speaks_fail _
  · exact speaks_modify (fun _ => hushed_of_same rfl rfl rfl)

end User

-----------------------------------------------------------------------------------------
-- One turn
-----------------------------------------------------------------------------------------

/-- What handling an input in `s` may say. -/
def MaySay (env : Env) (v : Speech) (s : State) : Input → Prop
  | .jingleIq _ =>
      ∀ p (js : JingleSession),
        v.utters (js.ident p) (sessionTerminateIq js "unsupported-applications")
  | .ibbIq _ => True
  | .reply _ _ => MaySpeak env v
  | .tick => MaySpeak env v
  | .wait _ => True
  | .event id context => ∀ p, s.events.get? id = some p → MayAnswer v s context p
  | .transportInitialize _ ref => MaySpeak env v ∧ Refers v.serves s ref
  | .jftSend _ => MayInvite v
  | .jftRetry _ => MayInvite v
  | .jftFlush => True

/-- One case for each input. -/
theorem handleInput_talks {env : Env} {w : World} {input : Input} (awaits : Awaits v.serves s)
    (may : MaySay env v s input)
    : Talks v s (handleInput env w input) := by
  cases input with
  | jingleIq message =>
      exact (speaks_bind (jingleHandleIq_speaks env w message may) (fun _ => speaks_pure _)).talks
  | ibbIq message =>
      exact (speaks_bind (jingleIbbHandleIq_speaks env w message) (fun _ => speaks_pure _)).talks
  | reply ah message => exact jingleHandleAckIq_talks env w may ah message awaits
  | tick => exact wp_known rfl (timeoutLoop_talks env w may _ _ _ awaits)
  | wait seconds =>
      refine Speaks.talks ?_
      exact speaks_modify (fun _ => hushed_of_same rfl rfl rfl)
  | event id context =>
      refine wp_known rfl ?_
      refine wp_seq (anyFault (alive_known (by decide) _)) ?_
      rintro p s ⟨rfl, pending⟩
      refine talks_bind (evscallbackJingle_talks env (may p pending)) (fun _ s' _ => ?_)
      refine Speaks.talks ?_
      exact speaks_modify (fun _ => hushed_of_same rfl rfl rfl)
  | transportInitialize correct ref =>
      exact handleTransportInitialize_talks env w may.1 correct may.2
  | jftSend arg => exact (jftSend_speaks env w may arg).talks
  | jftRetry arg => exact (jftRetry_speaks env w may arg).talks
  | jftFlush => exact jftFlush_speaks.talks

/-- What one turn of the main loop lets hear. -/
theorem Step.spoke {env : Env} {w : World} {input : Input} (step : Step env s (w, input) s')
    (awaits : Awaits v.serves s) (may : MaySay env v s input)
    : Spoke v s s' := by
  have talks : Talks v s (handleInput env w input) := handleInput_talks awaits may
  have ends : handleInput env w input s = .done () s' := step.2
  rwa [Talks, wp, ends] at talks

/-- By induction on the run: nothing else was ever said. -/
theorem spoken_reached {env : Env} {allowed : State → StepInput → Prop}
    (run : ReachableBy env allowed s)
    (may : ∀ s input, ReachableBy env allowed s → allowed s input → Enabled s input.2 →
      MaySay env v s input.2)
    : (∀ ident iq, .request ident iq ∈ s.sent → v.utters ident iq) ∧ Awaits v.serves s := by
  induction run with
  | start initial =>
      refine ⟨fun ident iq member => ?_, fun ah handle ref there _ => ?_⟩
      · rw [initial.sent] at member
        cases member
      · rw [initial.ackHandlers] at there
        cases there
  | @step s s' input run ok next ih =>
      obtain ⟨sent, awaits⟩ := ih
      have spoke : Spoke v s s' := Step.spoke next awaits (may s input run ok next.1)
      refine ⟨fun ident iq member => ?_, awaits.spoken spoke⟩
      exact (spoke.sent ident iq member).elim (sent ident iq) id

end McabberJingle
