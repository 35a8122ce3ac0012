import McabberJingle.Effects.Filing
import McabberJingle.Effects.Stopping

/-! What each turn does to the files that are being received: stanzas about sessions, the sending
side, replies, the timer and the user leave them alone, but for a session-terminate, which shuts
down their channels, and `/jft retry`.
-/

namespace McabberJingle

open Program Program.Prog

variable {s s' : State}

-----------------------------------------------------------------------------------------
-- Incoming IQs
-----------------------------------------------------------------------------------------

section Handlers

variable (env : Env) (w : World)

theorem jingleAckIq_shelves (m : LmMessage) : Shelves (jingleAckIq m) := sendReply_shelves m _

theorem jingleSendIqError_shelves (m : LmMessage) (errtype cond : String)
    (jinglecond : Option String)
    : Shelves (jingleSendIqError m errtype cond jinglecond) :=
  sendReply_shelves m _

/-- By induction on the contents of the invitation. -/
theorem addContents_shelves (sess : Option SessionPtr) (err : ErrVar)
    (contents : List JingleContent)
    : Shelves (addContents env w sess err contents) := by
  induction contents generalizing err with
  | nil => exact obeys_pure _
  | cons cn rest ih =>
      refine obeys_bind obeys_get (fun _ => obeys_ite (ih err) ?_)
      refine obeys_bind (shelves_deref _ _) (fun p => ?_)
      refine obeys_bind (sessionAddContentFromJinglecontent_shelves env w p cn _) (fun error => ?_)
      exact obeys_bind (obeys_readOnly (reportError_readOnly _)) (fun err' => ih err')

theorem fillSession_shelves (sess : Option SessionPtr) (jn : JingleNode) (err : Option GError)
    : Shelves (fillSession env w sess jn err) := by
  refine obeys_bind (addContents_shelves env w sess _ _) (fun _ => ?_)
  refine obeys_bind (shelves_deref _ _) (fun p => ?_)
  refine obeys_bind (shelves_readSession p) (fun js => obeys_ite ?_ ?_)
  · exact obeys_bind (jingleSendSessionTerminate_shelves p _) (fun _ => sessionDelete_shelves w p)
  · refine obeys_bind (obeys_readOnly (showContents_readOnly _)) (fun _ => ?_)
    exact obeys_ite (shelves_aside (fun _ => rfl) (fun _ => rfl)) (obeys_pure _)

theorem handleSessionInitiate_shelves (jn : JingleNode)
    : Shelves (handleSessionInitiate env w jn) := by
  have failed (result : JingleNode) (cond : String) (jinglecond : Option String)
      : Shelves (do
          jingleSendIqError jn.message "cancel" cond jinglecond
          pure result : Run JingleNode) :=
    obeys_bind (jingleSendIqError_shelves _ _ _ _) (fun _ => obeys_pure _)
  refine obeys_bind (shelves_deref _ _) (fun sender => ?_)
  refine obeys_ite (failed jn _ _) (obeys_ite ?_ (obeys_ite (failed _ _ _)
    (obeys_ite (failed _ _ _) ?_)))
  · exact obeys_bind (shelves_deref _ _) (fun _ => failed _ _ _)
  · refine obeys_bind obeys_get (fun _ => obeys_ite (failed _ _ _) ?_)
    refine obeys_bind ?_ (fun _ => obeys_pure _)
    refine obeys_bind (jingleAckIq_shelves _) (fun _ => ?_)
    exact obeys_bind (sessionNewFromJinglenode_shelves _)
      (fun sess => fillSession_shelves env w _ _ _)

/-- By induction on the contents. -/
theorem offerInfo_shelves (child : LmMessageNode) (contents : List SessionContent)
    : Shelves (offerInfo child contents) := by
  induction contents with
  | nil => exact obeys_pure _
  | cons sc rest ih =>
      refine obeys_bind (shelves_deref _ _) (fun _ => obeys_bind (shelves_deref _ _) (fun d => ?_))
      refine obeys_bind (FileTransfer.handle_shelves _ d child) (fun status => ?_)
      exact obeys_ite (obeys_pure _) ih

theorem handleSessionInfo_shelves (jn : JingleNode) : Shelves (handleSessionInfo jn) := by
  have answered {reply : Run Unit} (shelves : Shelves reply)
      : Shelves (do reply; pure jn : Run JingleNode) :=
    obeys_bind shelves (fun _ => obeys_pure _)
  refine obeys_bind obeys_get (fun s => ?_)
  split
  · exact answered (jingleSendIqError_shelves _ _ _ _)
  · split
    · exact answered (jingleAckIq_shelves _)
    · refine obeys_bind (offerInfo_shelves _ _) (fun handled => ?_)
      split
      · exact answered (jingleAckIq_shelves _)
      · exact answered (jingleSendIqError_shelves _ _ _ _)

/-- By induction on the contents named. -/
theorem acceptContents_shelves (p : SessionPtr) (contents : List JingleContent)
    : Shelves (acceptContents env p contents) := by
  induction contents with
  | nil => exact obeys_pure _
  | cons jc rest ih =>
      refine obeys_bind (shelves_readSession p) (fun js => ?_)
      split
      · exact ih
      · refine obeys_bind (sessionChangestateSessioncontent_shelves p _ _) (fun _ => ?_)
        refine obeys_bind (shelves_deref _ _) (fun transfuncs => ?_)
        refine obeys_bind (shelves_deref _ _) (fun t => ?_)
        refine obeys_bind (obeys_bind (shelves_aside (fun _ => rfl) (fun _ => rfl))
          (fun _ => transfuncs.handle_shelves env _ t _)) (fun _ => ?_)
        refine obeys_bind (shelves_aside (fun _ => rfl) (fun _ => rfl)) (fun _ => ?_)
        exact obeys_bind (obeys_readOnly (transfuncs.init_readOnly _ t)) (fun _ => ih)

theorem handleSessionAccept_shelves (jn : JingleNode) : Shelves (handleSessionAccept env jn) := by
  refine obeys_bind obeys_get (fun s => ?_)
  split
  · exact obeys_bind (jingleSendIqError_shelves _ _ _ _) (fun _ => obeys_pure _)
  · rename_i p _ _
    refine obeys_ite ?_ ?_
    · refine obeys_bind (shelves_deref _ _) (fun _ => ?_)
      exact obeys_bind (jingleSendIqError_shelves _ _ _ _) (fun _ => obeys_pure _)
    · refine obeys_bind (jingleAckIq_shelves _) (fun _ => ?_)
      exact obeys_bind (acceptContents_shelves env p _) (fun _ => obeys_pure _)

/-- These transfers are stopped in turn. -/
def stoppages (w : World) (stopped : List FtPtr) : List (FtPtr × FileEvent) :=
  stopped.map (fun d => (d, .stopped (w.shutdown d)))

/-- By induction on the transfers: each has its channel shut down, and nothing else happens. -/
theorem StopsInTurn.happens {w : World} {ds : List FtPtr} (stops : StopsInTurn w ds s s')
    : Happens (stoppages w ds) s s' := by
  induction stops with
  | done infoList disk => exact .nothing (shelved_of_same infoList disk)
  | @stop d ft rest s s₁ s' there infoList disk _ ih =>
      have makes := FileTransfer.shutDown_makes w d ft
      have touches : Touches d (.stopped (w.shutdown d)) s
          (s.storing d ft.shutDown.stopped (shutdownOps w d ft)) :=
        FileTransfer.touches_storing there rfl rfl makes.ours (fun _ => makes)
      exact .event (refl_of Shelved s) touches (ih.before (shelved_of_same infoList disk))

theorem handleTransportInfo_shelves (jn : JingleNode) : Shelves (handleTransportInfo jn) := by
  have failed (errtype cond : String) (jinglecond : Option String)
      : Shelves (do
          jingleSendIqError jn.message errtype cond jinglecond
          pure jn : Run JingleNode) :=
    obeys_bind (jingleSendIqError_shelves _ _ _ _) (fun _ => obeys_pure _)
  refine obeys_bind obeys_get (fun s => ?_)
  split
  · exact failed _ _ _
  · split
    · exact failed _ _ _
    · split
      · exact failed _ _ _
      · refine obeys_bind (shelves_deref _ _) (fun _ => ?_)
        refine obeys_bind (shelves_deref _ _) (fun t => ?_)
        exact obeys_bind (FileTransfer.handle_shelves _ t _) (fun _ => obeys_pure _)

theorem actionHandler_shelves {action : JingleAction} {handler : JingleNode → Run JingleNode}
    (handled : actionHandler env w action = some handler) (goesOn : action ≠ .sessionTerminate)
    (jn : JingleNode)
    : Shelves (handler jn) := by
  cases action <;> cases handled
  case sessionAccept => exact handleSessionAccept_shelves env jn
  case sessionInfo => exact handleSessionInfo_shelves jn
  case sessionInitiate => exact handleSessionInitiate_shelves env w jn
  case sessionTerminate => exact absurd rfl goesOn
  case transportInfo => exact handleTransportInfo_shelves jn

/-- Any other IQ leaves the files alone. -/
theorem jingleHandleIq_shelves {message : LmMessage}
    (goesOn : ∀ jn, jingleRequest env message = some jn → jn.action ≠ .sessionTerminate)
    : Shelves (jingleHandleIq env w message) := by
  have freed (jn : JingleNode)
      : Shelves (do
          jingleFreeJinglenode jn
          pure .removeMessage : Run LmHandlerResult) :=
    obeys_bind (obeys_readOnly (jingleFreeJinglenode_readOnly jn)) (fun _ => obeys_pure _)
  unfold jingleHandleIq
  unfold jingleRequest at goesOn
  split
  · exact obeys_pure _
  rename_i isSet
  rw [if_neg isSet] at goesOn
  cases child : message.node.getChild "jingle" with
  | none => exact obeys_pure _
  | some jnode =>
  simp only [child] at goesOn
  dsimp only
  split
  · exact obeys_pure _
  rename_i isJingle
  rw [if_neg isJingle] at goesOn
  cases checked : checkJingle env.checkJidSyntax message jnode with
  | error err => exact obeys_bind (jingleSendIqError_shelves _ _ _ _) (fun _ => obeys_pure _)
  | ok jn =>
      have other := goesOn jn (by rw [checked]; rfl)
      dsimp only
      split
      · exact obeys_bind (jingleSendIqError_shelves _ _ _ _) (fun _ => freed _)
      · rename_i handled
        exact obeys_bind (actionHandler_shelves env w handled other _) (fun jn => freed jn)

theorem jingleHandleIq_happens {message : LmMessage} {result : LmHandlerResult}
    (ends : jingleHandleIq env w message s = .done result s')
    : Happens (stoppages w (stopped env w s message)) s s' := by
  cases request : (jingleRequest env message).filter (fun jn => jn.action = .sessionTerminate) with
  | none =>
      have nothing : stopped env w s message = [] := by rw [stopped, request]
      rw [nothing]
      refine .nothing ((jingleHandleIq_shelves env w (fun jn valid action => ?_) s).done ends)
      rw [valid, Option.filter_some, if_pos (by simp [action])] at request
      cases request
  | some jn =>
      obtain ⟨valid, action⟩ := Option.filter_eq_some_iff.mp request
      exact (terminate_stops valid (of_decide_eq_true action) ends).happens

end Handlers

-----------------------------------------------------------------------------------------
-- The sending side
-----------------------------------------------------------------------------------------

section Circle

variable (env : Env) (w : World)

theorem sessionFindByRef_shelves (sc : SessionContentRef) : Shelves (sessionFindByRef sc) := by
  intro s
  refine wp_mono (sessionFindByRef_known sc) ?_ (fun _ _ _ => trivial)
  rintro _ _ ⟨rfl, _⟩
  exact refl_of Shelved _

theorem ibbSendInternal_shelves (sc : SessionContentRef) (p : SessionPtr) (js : JingleSession)
    (t : TransportPtr) (buf : List UInt8)
    : Shelves (ibbSendInternal env sc p js t buf) := by
  refine obeys_bind (obeys_readOnly (readIbb_readOnly t)) (fun _ => ?_)
  refine obeys_bind (sendRequest_shelves _ _ _ _ _) (fun _ => ?_)
  refine obeys_bind (shelves_aside (fun _ => rfl) (fun _ => rfl)) (fun _ => ?_)
  exact modifyTransport_shelves t _

theorem ibbSendBlock_shelves (sc : SessionContentRef) (p : SessionPtr) (js : JingleSession)
    (t : TransportPtr)
    : Shelves (ibbSendBlock env sc p js t) := by
  refine obeys_bind (obeys_readOnly (readIbb_readOnly t)) (fun _ => ?_)
  exact obeys_bind (modifyTransport_shelves t _) (fun _ => ibbSendInternal_shelves env _ _ _ t _)

/-- `send` of the IBB table. -/
theorem ibbSend_shelves {next : SessionContentRef → Run Unit} {sc : SessionContentRef}
    (t : TransportPtr) (data : List UInt8) (asks : Shelves (next sc))
    : Shelves (ibbSend env next sc t data) := by
  refine obeys_bind (obeys_readOnly (readIbb_readOnly t)) (fun jibb => ?_)
  refine obeys_ite (obeys_fail _) (obeys_bind (modifyTransport_shelves t _) (fun _ => ?_))
  refine obeys_ite asks (obeys_bind (sessionFindByRef_shelves sc) (fun sess => ?_))
  exact obeys_bind (shelves_deref _ _) (fun _ => ibbSendBlock_shelves env _ _ _ t)

/-- `end` of the IBB table. -/
theorem ibbEnd_shelves (sc : SessionContentRef) (t : TransportPtr)
    : Shelves (ibbEnd env sc t) := by
  refine obeys_bind (sessionFindByRef_shelves sc) (fun sess => ?_)
  refine obeys_bind (obeys_readOnly (readIbb_readOnly t)) (fun jibb => ?_)
  refine obeys_ite (obeys_fail _) (obeys_bind (obeys_ite ?_ (obeys_pure _)) (fun _ => ?_))
  · exact obeys_bind (shelves_deref _ _) (fun _ => ibbSendInternal_shelves env _ _ _ t _)
  · exact modifyTransport_shelves t _

theorem handleAppData_shelves {next : SessionContentRef → Run Unit}
    (asks : ∀ sc, Shelves (next sc)) (ref : SessionContentRef) (data : List UInt8)
    : Shelves (handleAppData env next ref data) := by
  refine obeys_bind (sessionFindByRef_shelves ref) (fun found => ?_)
  rcases found with _ | ⟨p, js⟩
  · exact obeys_pure _
  refine obeys_bind (shelves_deref _ _) (fun sc => obeys_bind (shelves_deref _ _) ?_)
  intro transfuncs
  cases transfuncs with
  | s5b => exact obeys_pure _
  | ibb =>
      refine obeys_bind (shelves_deref _ _) (fun t => ?_)
      exact obeys_ite (ibbEnd_shelves env _ t) (ibbSend_shelves env t data (asks _))

theorem handleTransNext_shelves {appSend : SessionContentRef → Run Unit}
    (sends : ∀ sc, Shelves (appSend sc)) (ref : SessionContentRef)
    : Shelves (handleTransNext appSend ref) := by
  refine obeys_bind (sessionFindByRef_shelves ref) (fun found => ?_)
  cases found with
  | none => exact obeys_pure _
  | some cell =>
      refine obeys_bind (shelves_deref _ _) (fun _ => ?_)
      exact obeys_bind (shelves_deref _ _) (fun _ => sends ref)

/-- The EOF branch. -/
theorem ftSendEof_shelves {next : SessionContentRef → Run Unit}
    (asks : ∀ sc, Shelves (next sc)) (sc : SessionContentRef) (p : SessionPtr)
    (sc2 : SessionContent) (d : FtPtr)
    : Shelves (ftSendEof env w next sc p sc2 d) := by
  refine obeys_bind (handleAppData_shelves env asks sc []) (fun _ => ?_)
  refine obeys_bind (obeys_readOnly (readFt_readOnly d)) (fun ft => ?_)
  refine obeys_bind (obeys_readOnly (FileTransfer.checksumGetString_readOnly env _)) (fun _ => ?_)
  refine obeys_bind (shelves_modifyFt d (fun _ => rfl)) (fun _ => ?_)
  refine obeys_bind (sessionChangestateSessioncontent_shelves p _ _) (fun _ => ?_)
  refine obeys_bind (shelves_readSession p) (fun sess => ?_)
  refine obeys_bind (sendRequest_shelves _ _ _ _ _) (fun _ => ?_)
  refine obeys_bind (shelves_modifyFt d (fun _ => rfl)) (fun _ => ?_)
  refine obeys_bind (sessionRemoveSessioncontent_shelves p _) (fun left => ?_)
  refine obeys_ite ?_ (obeys_pure _)
  exact obeys_bind (jingleSendSessionTerminate_shelves p _) (fun _ => sessionDelete_shelves w p)

/-- `send` of the application table: only a file that is being sent is read. -/
theorem ftSendBody_shelves {next : SessionContentRef → Run Unit}
    (asks : ∀ sc, Shelves (next sc)) (sc : SessionContentRef)
    : Shelves (ftSendBody env w next sc) := by
  refine obeys_bind (sessionFindByRef_shelves sc) (fun found => ?_)
  rcases found with _ | ⟨p, js⟩
  · exact obeys_pure _
  refine obeys_bind (shelves_deref _ _) (fun sc2 => obeys_bind (shelves_deref _ _) ?_)
  intro d s
  refine follows_known (readFt_known d) (fun ft found => ?_)
  refine follows_ite (fun _ => refl_of Shelved _) (fun outgoing => ?_)
  have outgoing : ft.dir = .outgoing := Decidable.not_not.mp outgoing
  split
  · rename_i reads _
    cases readChars 9 reads with
    | mk status rest =>
    refine follows_bind ?_ (fun _ s' _ => ?_)
    · refine shelved_modify d (fun ft' there => ?_)
      cases found.symm.trans there
      simp [JingleFT.shelf, outgoing]
    cases status with
    | again => exact refl_of Shelved _
    | error =>
        have marked : Shelves (modifyFt d (fun ft => { ft with state := .error })) :=
          shelves_modifyFt d (fun _ => rfl)
        exact marked s'
    | eof => exact ftSendEof_shelves env w asks sc p sc2 d s'
    | normal data =>
        refine obeys_bind (obeys_readOnly (FileTransfer.checksumUpdate_readOnly _ data)) ?_ s'
        intro md5
        refine obeys_bind (shelves_modifyFt d (fun _ => rfl)) (fun _ => ?_)
        exact handleAppData_shelves env asks sc data
  · trivial

/-- By induction on the fuel. -/
theorem ftSendAll_shelves (sc : SessionContentRef) : Shelves (ftSendAll env w sc) := by
  have sends (fuel : Nat) (sc : SessionContentRef) : Shelves (ftSend env w fuel sc) := by
    induction fuel generalizing sc with
    | zero => exact obeys_fail _
    | succ fuel ih => exact ftSendBody_shelves env w (handleTransNext_shelves ih) sc
  exact obeys_bind obeys_get (fun _ => sends _ sc)

theorem ftStart_shelves (sc : SessionContentRef) : Shelves (ftStart env w sc) := by
  refine obeys_bind (sessionFindByRef_shelves sc) (fun found => ?_)
  rcases found with _ | ⟨p, js⟩
  · exact obeys_pure _
  refine obeys_bind (shelves_deref _ _) (fun sc2 => obeys_bind (shelves_deref _ _) (fun d => ?_))
  refine obeys_bind (obeys_readOnly (readFt_readOnly d)) (fun _ => ?_)
  refine obeys_bind (shelves_modifyFt d (fun _ => rfl)) (fun _ => ?_)
  exact obeys_bind (shelves_deref _ _) (fun _ => ftSendAll_shelves env w sc)

theorem jingleIbbHandleAckIqSend_shelves (sc : SessionContentRef)
    : Shelves (jingleIbbHandleAckIqSend env w sc) := by
  refine obeys_bind (sessionFindByRef_shelves sc) (fun found => ?_)
  rcases found with _ | ⟨p, js⟩
  · exact obeys_pure _
  refine obeys_bind (shelves_deref _ _) (fun sc2 => obeys_bind (shelves_deref _ _) (fun t => ?_))
  refine obeys_bind (obeys_readOnly (readIbb_readOnly t)) (fun jibb => ?_)
  refine obeys_ite (obeys_ite (obeys_fail _) (ibbSendBlock_shelves env _ _ _ t)) ?_
  exact handleTransNext_shelves (ftSendAll_shelves env w) sc

end Circle

-----------------------------------------------------------------------------------------
-- Replies, the timer and the user
-----------------------------------------------------------------------------------------

section Callbacks

variable (env : Env) (w : World)

theorem AckCallback.run_shelves (mess : Option LmMessage) (callback : AckCallback)
    : Shelves (callback.run env w mess) := by
  have deleted (sess : SessionPtr) (mess : LmMessage) : Shelves (deleteOnReply w sess mess) := by
    refine obeys_ite (obeys_pure _) (obeys_ite ?_ (sessionDelete_shelves w sess))
    exact obeys_bind (shelves_deref _ _) (fun _ => sessionDelete_shelves w sess)
  cases callback with
  | ibbSend ref => exact jingleIbbHandleAckIqSend_shelves env w ref
  | sessionInitiate sess =>
      cases mess with
      | none => exact sessionDelete_shelves w sess
      | some mess => exact deleted sess mess
  | sessionAccept sess =>
      cases mess with
      | none => exact sessionDelete_shelves w sess
      | some mess => exact deleted sess mess

theorem runCallback_shelves (ah : AckPtr) (type : JingleAckType) (mess : Option LmMessage)
    (callback : Option AckCallback)
    : Shelves (runCallback env w ah type mess callback) := by
  cases callback with
  | none => exact obeys_pure _
  | some callback =>
      exact obeys_bind (shelves_aside (fun _ => rfl) (fun _ => rfl))
        (fun _ => callback.run_shelves env w mess)

theorem jingleAckHandlerFree_shelves (ah : AckPtr) : Shelves (jingleAckHandlerFree ah) :=
  shelves_aside (fun _ => rfl) (fun _ => rfl)

theorem jingleHandleAckIq_shelves (ah : AckPtr) (message : LmMessage)
    : Shelves (jingleHandleAckIq env w ah message) := by
  refine obeys_bind (obeys_readOnly (readAck_readOnly ah)) (fun handle => ?_)
  refine obeys_bind (runCallback_shelves env w ah _ _ _) (fun _ => ?_)
  exact obeys_bind (jingleAckHandlerFree_shelves ah)
    (fun _ => shelves_aside (fun _ => rfl) (fun _ => rfl))

/-- By induction on the handles still to visit. -/
theorem timeoutLoop_shelves (now : Nat) (prev : Trail) (handles : List AckPtr)
    : Shelves (timeoutLoop env w now prev handles) := by
  induction handles generalizing prev with
  | nil => exact obeys_pure _
  | cons ah rest ih =>
      refine obeys_bind (obeys_readOnly (readAck_readOnly ah)) (fun handle => ?_)
      refine obeys_ite (obeys_bind ?_ (fun _ => ?_)) (ih .live)
      · exact obeys_bind (runCallback_shelves env w ah _ _ _)
          (fun _ => jingleAckHandlerFree_shelves ah)
      refine obeys_bind obeys_get (fun _ => obeys_ite (obeys_pure _) ?_)
      cases prev with
      | live => exact ih .live
      | head =>
          exact obeys_bind (shelves_readFreedLink w) (fun _ => obeys_ite (ih .freed) (obeys_pure _))
      | freed =>
          refine obeys_bind (shelves_readFreedLink w) (fun _ => obeys_ite ?_ (obeys_pure _))
          exact obeys_bind (obeys_readOnly (readAck_readOnly ah)) (fun _ => obeys_pure _)

theorem evscallbackJingle_shelves (context : EvsContext) (p : SessionPtr)
    : Shelves (evscallbackJingle env context p) := by
  refine obeys_bind (shelves_readSession p) (fun js => ?_)
  cases context with
  | accept =>
      exact obeys_bind (shelves_aside (fun _ => rfl) (fun _ => rfl))
        (fun _ => jingleSendSessionAccept_shelves env p)
  | reject => exact jingleSendSessionTerminate_shelves p _
  | timeout => exact obeys_pure _
  | cancel => exact obeys_pure _
  | other => exact obeys_pure _

theorem handleTransportInitialize_shelves (correct : Bool) (ref : SessionContentRef)
    : Shelves (handleTransportInitialize env w correct ref) := by
  refine obeys_bind (sessionFindByRef_shelves ref) (fun found => ?_)
  refine obeys_bind (shelves_deref _ _) (fun cell => obeys_bind (shelves_deref _ _) (fun sc => ?_))
  refine obeys_ite ?_ ?_
  · refine obeys_bind (shelves_deref _ _) (fun _ => ?_)
    exact obeys_bind (shelves_aside (fun _ => rfl) (fun _ => rfl))
      (fun _ => ftStart_shelves env w ref)
  · exact obeys_bind (sessionRemoveSessioncontent_shelves cell.1 _) (fun _ => obeys_fail _)

/-- By induction on the entries. -/
theorem addApps_shelves (p : SessionPtr) (entries : List AppEntry)
    : Shelves (addApps p entries) := by
  induction entries with
  | nil => exact obeys_pure _
  | cons entry rest ih =>
      refine obeys_bind (sessionAddContent_shelves p _ _) (fun _ => obeys_bind obeys_get ?_)
      intro _
      refine obeys_bind (modifyContent_shelves p _) (fun _ => ?_)
      exact obeys_bind (sessionAddApp_shelves p _ _ _) (fun _ => ih)

theorem jftSendTransfer_shelves (d : FtPtr) : Shelves (jftSendTransfer env w d) := by
  unfold jftSendTransfer
  split
  · exact shelves_modifyFt d (fun _ => rfl)
  split
  · exact shelves_modifyFt d (fun _ => rfl)
  refine obeys_bind ?_ (fun _ => ?_)
  · exact obeys_bind (sessionNew_shelves _ _ _ _) (fun p => addApps_shelves p _)
  refine obeys_bind obeys_get (fun s => ?_)
  refine obeys_bind (obeys_readOnly (jingleTransportForApp_readOnly _ none)) (fun chosen => ?_)
  refine obeys_bind obeys_get (fun s => ?_)
  split
  · exact obeys_pure _
  · rename_i transfuncs _
    refine obeys_bind (transfuncs.new_shelves w) (fun t => ?_)
    refine obeys_bind (shelves_deref _ _) (fun cell => ?_)
    refine obeys_bind (modifyContent_shelves cell.1 _) (fun _ => ?_)
    refine obeys_bind (sessionAddTrans_shelves cell.1 _ _ t) (fun _ => ?_)
    exact jingleSendSessionInitiate_shelves env w cell.1

theorem jftSend_shelves (arg : Option String) : Shelves (jftSend env w arg) := by
  cases arg with
  | none => exact obeys_pure _
  | some name =>
      refine obeys_bind (FileTransfer.new_shelves env w name) (fun made => ?_)
      cases made with
      | none => exact obeys_pure _
      | some d => exact jftSendTransfer_shelves env w d

/-- Each round of the walk frees at most one transfer. -/
theorem flushRound_shelves {f : FileTransfer.Flush}
    (shelved : Shelved s { s with infoList := f.list })
    : (FileTransfer.flushRound f).Holds (fun f => Shelved s { s with infoList := f.list }) := by
  unfold FileTransfer.flushRound
  cases f.el with
  | none => exact shelved
  | some el =>
      dsimp only
      cases f.list.get? el with
      | none => trivial
      | some jft =>
          dsimp only
          by_cases finished : jft.state.isOver = true
          · rw [if_pos finished]
            have deleted : Shelved s { s with infoList := (f.delete el jft).list } :=
              trans_of Shelved shelved (shelved_erase el)
            cases FileTransfer.free jft with
            | error fault => trivial
            | ok _ =>
                dsimp only
                split <;> exact deleted
          · rw [if_neg finished]
            exact shelved

theorem jftFlush_shelves : Shelves jftFlush := by
  intro s
  refine wp_known rfl ?_
  split
  · trivial
  · trivial
  · rename_i f result
    exact (loops_of_loopFor result).invariant (fun f => Shelved s { s with infoList := f.list })
      (refl_of Shelved s) (fun f shelved => flushRound_shelves shelved)

end Callbacks

-----------------------------------------------------------------------------------------
-- One turn
-----------------------------------------------------------------------------------------

/-- What a turn can do to the files being received: take a packet, shut down their channels, or try
the first transfer again.
-/
def Input.files : Input → Bool
  | .jingleIq _ => true
  | .ibbIq _ => true
  | .jftRetry _ => true
  | _ => false

/-- Every other turn leaves them alone. One case for each input. -/
theorem Step.shelved {env : Env} {w : World} {input : Input} (step : Step env s (w, input) s')
    (aside : input.files = false)
    : Shelved s s' := by
  suffices shelves : Shelves (handleInput env w input) from (shelves s).done step.2
  cases input with
  | jingleIq message => cases aside
  | ibbIq message => cases aside
  | reply ah message => exact jingleHandleAckIq_shelves env w ah message
  | tick => exact obeys_bind obeys_get (fun _ => timeoutLoop_shelves env w _ _ _)
  | wait seconds => exact shelves_aside (fun _ => rfl) (fun _ => rfl)
  | event id context =>
      refine obeys_bind obeys_get (fun s s' => ?_)
      refine follows_known (alive_known (by decide) _) (fun p _ => ?_)
      refine obeys_bind (evscallbackJingle_shelves env context p) (fun _ => ?_) s'
      exact shelves_aside (fun _ => rfl) (fun _ => rfl)
  | transportInitialize correct ref => exact handleTransportInitialize_shelves env w correct ref
  | jftSend arg => exact jftSend_shelves env w arg
  | jftRetry arg => cases aside
  | jftFlush => exact jftFlush_shelves

end McabberJingle
