import McabberJingle.Effects.Handlers
import McabberJingle.Jingle.Offers
import McabberJingle.Jingle.Opening
import McabberJingle.System.Machine

/-! Changes made by one turn of the main loop. -/

namespace McabberJingle

open Program Program.Prog

variable {r : Rights} {inv : State → Prop} {s : State}

/-- Every fault may end the run. -/
def AnyFault (_ : Fault) : Prop := True

theorem tolerated (error : Fault) (_ : NotAckHandle error) : AnyFault error := trivial

theorem anyFault {α : Type} {m : Run α} {post : α → State → Prop}
    (h : m.wp post (fun error _ => NotAckHandle error) s)
    : m.wp post (fun error _ => AnyFault error) s :=
  wp_mono h (fun _ _ done => done) (fun _ _ _ => trivial)

-----------------------------------------------------------------------------------------
-- Replies and timeouts
-----------------------------------------------------------------------------------------

theorem deleteOnReply_keeps (stable : Stable r inv) (w : World) {sess : SessionPtr}
    (mess : LmMessage) (close : mess.subType ≠ .result → r.close sess)
    : Keeps inv NotAckHandle (deleteOnReply w sess mess) := by
  intro s holds
  unfold deleteOnReply
  rw [wp_ite]
  refine ⟨fun _ => holds, fun failed => ?_⟩
  have delete := sessionDelete_keeps stable w (close failed)
  dsimp only
  split
  · exact keeps_bind (deref_readOnly _ _).keeps (fun _ => delete) s holds
  · exact delete s holds

/-- What running the callback of a handle needs. -/
structure MayCall (r : Rights) (inv : State → Prop) (mess : Option LmMessage)
    (callback : AckCallback)
    : Prop where
  close : ∀ sess, callback = .sessionInitiate sess ∨ callback = .sessionAccept sess →
    (∀ m, mess = some m → m.subType ≠ .result) → r.close sess
  send : ∀ sc, callback = .ibbSend sc → MaySend r inv

theorem AckCallback.run_keeps (stable : Stable r inv) (env : Env) (w : World)
    (mess : Option LmMessage) {callback : AckCallback} (may : MayCall r inv mess callback)
    : Keeps inv NotAckHandle (callback.run env w mess) := by
  cases callback with
  | sessionInitiate sess =>
      cases mess with
      | none =>
          exact sessionDelete_keeps stable w (may.close sess (.inl rfl) (fun _ h => by cases h))
      | some m =>
          exact deleteOnReply_keeps stable w m (fun failed =>
            may.close sess (.inl rfl) (fun _ h => by cases h; exact failed))
  | sessionAccept sess =>
      cases mess with
      | none =>
          exact sessionDelete_keeps stable w (may.close sess (.inr rfl) (fun _ h => by cases h))
      | some m =>
          exact deleteOnReply_keeps stable w m (fun failed =>
            may.close sess (.inr rfl) (fun _ h => by cases h; exact failed))
  | ibbSend sc => exact jingleIbbHandleAckIqSend_keeps stable env w (may.send sc rfl) sc

theorem runCallback_keeps (stable : Stable r inv) (env : Env) (w : World) {ah : AckPtr}
    (type : JingleAckType) (mess : Option LmMessage) {callback : Option AckCallback}
    (fire : r.fire ah) (may : ∀ cb, callback = some cb → MayCall r inv mess cb)
    : Keeps inv NotAckHandle (runCallback env w ah type mess callback) := by
  cases callback with
  | none => exact keeps_pure _
  | some callback =>
      refine keeps_bind (keeps_modify (fun _ holds => stable _ _ holds (.fire ah type fire)))
        (fun _ => ?_)
      exact AckCallback.run_keeps stable env w mess (may callback rfl)

theorem MaySend.mayCall (send : MaySend r inv) (mess : Option LmMessage)
    (callback : AckCallback)
    : MayCall r inv mess callback :=
  ⟨fun sess _ _ => send.close sess, fun _ _ => send⟩

theorem jingleAckHandlerFree_keeps (stable : Stable r inv) {ah : AckPtr} (free : r.free ah)
    : Keeps inv NotAckHandle (jingleAckHandlerFree ah) :=
  keeps_modify (fun _ holds => stable _ _ holds (.free ah free))

theorem readAck_readOnly (ah : AckPtr) : ReadOnly AnyFault (readAck ah) := by
  intro s
  change (alive .ackHandle (s.ackHandlers.get? ah)).wp _ _ s
  cases s.ackHandlers.get? ah with
  | none => trivial
  | some handle => rfl

theorem jingleHandleAckIq_keeps (stable : Stable r inv) (env : Env) (w : World) {ah : AckPtr}
    (message : LmMessage) (send : MaySend r inv) (fire : r.fire ah) (free : r.free ah)
    : Keeps inv AnyFault (jingleHandleAckIq env w ah message) := by
  refine keeps_bind (readAck_readOnly ah).keeps (fun handle => ?_)
  have call : Keeps inv NotAckHandle
      (runCallback env w ah .response (some message) handle.callback) :=
    runCallback_keeps stable env w _ _ fire (fun _ _ => send.mayCall _ _)
  refine keeps_bind (call.widen tolerated) (fun _ => ?_)
  refine keeps_bind ((jingleAckHandlerFree_keeps stable free).widen tolerated) (fun _ => ?_)
  exact keeps_modify (fun _ holds => stable _ _ holds (.forget ah))

theorem expireHandle_keeps (stable : Stable r inv) (env : Env) (w : World) {ah : AckPtr}
    (handle : JingleAckHandle) (send : MaySend r inv) (fire : r.fire ah) (free : r.free ah)
    : Keeps inv NotAckHandle (expireHandle env w ah handle) :=
  keeps_bind (runCallback_keeps stable env w _ _ fire (fun _ _ => send.mayCall _ _))
    (fun _ => jingleAckHandlerFree_keeps stable free)

/-- By induction on the handles still to visit. -/
theorem timeoutLoop_keeps (stable : Stable r inv) (env : Env) (w : World) (send : MaySend r inv)
    (fire : ∀ ah, r.fire ah) (free : ∀ ah, r.free ah) (now : Nat) (prev : Trail)
    (handles : List AckPtr)
    : Keeps inv AnyFault (timeoutLoop env w now prev handles) := by
  induction handles generalizing prev with
  | nil => exact keeps_pure _
  | cons ah rest ih =>
      refine keeps_bind (readAck_readOnly ah).keeps (fun handle => ?_)
      refine keeps_ite ?_ (ih .live)
      refine keeps_bind ((expireHandle_keeps stable env w handle send (fire ah) (free ah)).widen
        tolerated) (fun _ => ?_)
      refine keeps_bind readOnly_get.keeps (fun s => ?_)
      refine keeps_ite (keeps_pure _) ?_
      cases prev with
      | live => exact ih .live
      | head =>
          refine keeps_bind ((readFreedLink_keeps stable w).widen tolerated) (fun link => ?_)
          exact keeps_ite (ih .freed) (keeps_pure _)
      | freed =>
          refine keeps_bind ((readFreedLink_keeps stable w).widen tolerated) (fun link => ?_)
          exact keeps_ite (keeps_bind (readAck_readOnly ah).keeps (fun _ => keeps_pure _))
            (keeps_pure _)

theorem jingleAckTimeoutChecker_keeps (stable : Stable r inv) (env : Env) (w : World)
    (send : MaySend r inv) (fire : ∀ ah, r.fire ah) (free : ∀ ah, r.free ah)
    : Keeps inv AnyFault (jingleAckTimeoutChecker env w) :=
  keeps_bind readOnly_get.keeps (fun _ =>
    timeoutLoop_keeps stable env w send fire free _ _ _)

-----------------------------------------------------------------------------------------
-- The user
-----------------------------------------------------------------------------------------

/-- What the answer to the invitation of `p` needs. -/
structure MayDecide (r : Rights) (s : State) (context : EvsContext) (p : SessionPtr)
    : Prop where
  accept : context = .accept → r.accept p ∧ r.await (.sessionAccept p)
  reject : context = .reject → ∀ js, s.sessions.get? p = some js →
    r.outward (js.ident p) ∧ r.decline (js.ident p)

theorem evscallbackJingle_keeps (stable : Stable r inv) (env : Env) {context : EvsContext}
    {p : SessionPtr} (holds : inv s) (may : MayDecide r s context p)
    : (evscallbackJingle env context p).wp (fun _ => inv) (fun error _ => NotAckHandle error)
        s := by
  refine wp_seq (readSession_known p) ?_
  rintro js s ⟨rfl, _⟩
  cases context with
  | accept =>
      obtain ⟨accept, await⟩ := may.accept rfl
      refine wp_cut (fun _ => inv) (stable _ _ holds (.accept p accept)) ?_
      exact fun _ s' holds' => jingleSendSessionAccept_keeps stable env await s' holds'
  | reject => exact jingleSendSessionTerminate_holds stable "decline" holds (may.reject rfl)
  | _ => exact holds

theorem handleTransportInitialize_keeps (stable : Stable r inv) (env : Env) (w : World)
    (send : MaySend r inv) (correct : Bool) (sc : SessionContentRef)
    : Keeps inv NotAckHandle (handleTransportInitialize env w correct sc) := by
  intro s holds
  refine wp_seq (sessionFindByRef_known sc) ?_
  rintro found s ⟨rfl, _⟩
  refine keeps_bind (deref_readOnly _ _).keeps (fun cell => ?_) s holds
  obtain ⟨p, sess⟩ := cell
  refine keeps_bind (deref_readOnly _ _).keeps (fun content => ?_)
  refine keeps_ite ?_ ?_
  · refine keeps_bind (deref_readOnly _ _).keeps (fun _ => ?_)
    refine keeps_bind (keeps_modify (fun s holds => stable _ _ holds (.start sc))) (fun _ => ?_)
    exact ftStart_keeps stable env w send sc
  · refine keeps_bind (sessionRemoveSessioncontent_keeps stable _ (send.change p)
      (send.drop p _)) (fun _ => ?_)
    exact keeps_fail (fun h => by cases h)

/-- What offering a file in `s` needs; nothing happens to the session list before the new
session is there.
-/
structure MayOffer (r : Rights) (inv : State → Prop) (w : World) (s : State) : Prop where
  layout : ∀ s, inv s → Layout s
  newFt : r.newFt .outgoing
  ft : ∀ d, r.ft d
  create : ∀ jid resource, w.currentJid = some jid → w.compatibleRes = some resource →
    ∀ s', inv s' → s'.sessions = s.sessions →
      r.openSession s' (offerSession w (jid ++ "/" ++ resource))
  grow : ∀ s, inv s → r.grow s.sessions.next
  build : ∀ p, r.build p
  describe : ∀ s, inv s → ∀ d, r.describe s.sessions.next d
  carry : ∀ s, inv s → ∀ p, r.carry p s.transports.next
  size : r.blockSize IBB_BLOCK_SIZE_MAX
  await : ∀ p, r.await (.sessionInitiate p)
  close : w.sendOk = false → ∀ p, r.close p

theorem MayOffer.mono {inv' : State → Prop} {w : World} (may : MayOffer r inv w s)
    (stronger : ∀ s, inv' s → inv s)
    : MayOffer r inv' w s :=
  { may with
    layout := fun s' holds => may.layout s' (stronger s' holds)
    create := fun jid resource jidKnown resourceKnown s' holds =>
      may.create jid resource jidKnown resourceKnown s' (stronger s' holds)
    grow := fun s' holds => may.grow s' (stronger s' holds)
    describe := fun s' holds => may.describe s' (stronger s' holds)
    carry := fun s' holds => may.carry s' (stronger s' holds) }

theorem addApps_keeps (stable : Stable r inv) {p : SessionPtr} (entries : List AppEntry)
    (build : r.build p) (grow : r.grow p) (describe : ∀ d, r.describe p d)
    (known : ∀ entry ∈ entries, ∀ s, inv s → entry.data < s.infoList.next)
    : Keeps inv NotAckHandle (addApps p entries) := by
  induction entries with
  | nil => exact keeps_pure _
  | cons entry rest ih =>
      refine keeps_bind (sessionAddContent_keeps stable _ build grow) (fun _ => ?_)
      refine keeps_bind readOnly_get.keeps (fun _ => ?_)
      refine keeps_bind (modifyContent_keeps stable (fun _ _ _ => .supplyApp _ build))
        (fun _ => ?_)
      refine keeps_bind (sessionAddApp_keeps stable _ _ build (describe _)
        (known entry List.mem_cons_self)) (fun _ => ?_)
      exact ih (fun other member => known other (List.mem_cons_of_mem _ member))

theorem newSessionWithApps_keeps (stable : Stable r inv) (w : World) {recipientjid : String}
    (entries : List AppEntry) {s₀ : State} (may : MayOffer r inv w s₀) (holds : inv s)
    (create : r.openSession s (offerSession w recipientjid))
    (known : ∀ entry ∈ entries, ∀ s, inv s → entry.data < s.infoList.next)
    : (newSessionWithApps w recipientjid entries).wp (fun _ => inv)
        (fun error _ => NotAckHandle error) s := by
  refine wp_cut (fun p s' => inv s' ∧ p = s.sessions.next) ?_ ?_
  · exact ⟨stable _ _ holds (.openSession _ rfl create (fun h => by cases h)), rfl⟩
  · rintro p s' ⟨holds', rfl⟩
    exact addApps_keeps stable entries (may.build _) (may.grow s holds) (may.describe s holds) known
      s' holds'

theorem jingleTransportForApp_readOnly (appxmlns : String) (forbid : Option (List String))
    : ReadOnly NotAckHandle (jingleTransportForApp appxmlns forbid) := by
  refine readOnly_bind readOnly_get (fun s => ?_)
  cases jingleFindApp s (some appxmlns) with
  | none => exact readOnly_pure _
  | some app =>
      cases forbid with
      | none => exact readOnly_pure _
      | some list => exact readOnly_bind (deref_readOnly _ _) (fun _ => readOnly_pure _)

theorem jingleHandleApp_keeps (stable : Stable r inv) (env : Env) (w : World)
    (name xmlnsApp : String) (app : FtPtr) {s₀ : State}
    (may : MayOffer r inv w s₀)
    : Keeps inv NotAckHandle (jingleHandleApp env w name xmlnsApp app) := by
  refine keeps_bind readOnly_get.keeps (fun _ => ?_)
  refine keeps_bind (jingleTransportForApp_readOnly xmlnsApp none).keeps (fun chosen => ?_)
  obtain ⟨xmlns, forbid⟩ := chosen
  refine keeps_bind readOnly_get.keeps (fun s₁ => ?_)
  cases jingleGetTransportfuncs s₁ xmlns with
  | none => exact keeps_pure _
  | some transfuncs =>
      intro s holds
      have made := transfuncs.new_keeps stable w may.size holds
      have untouched := transfuncs.new_keeps (storage_sessions s.sessions) w trivial (s := s) rfl
      refine wp_seq (wp_mono (wp_and made untouched) (fun _ _ both => both)
        (fun _ _ both => both.1)) ?_
      rintro t s' ⟨⟨holds', new, known⟩, sameSessions, _⟩
      refine wp_seq (deref_readOnly _ _ s') ?_
      rintro ⟨p, js⟩ s' rfl
      have fresh : Uncarried s' t := uncarried_of_new (may.layout s holds) new sameSessions
      have supplied := modifyContent_holds stable holds'
        (fun _ => .supplyTransFor app (some (transfuncs, t)) (may.build p))
      refine wp_seq (wp_mono (wp_and supplied (modifyContent_uncarried ?kept fresh))
        (fun _ _ both => both) (fun _ _ both => both.1)) ?_
      case kept =>
        intro content
        rw [List.map_map]
        refine List.map_congr_left (fun sc _ => ?_)
        simp only [Function.comp_apply]
        split <;> rfl
      rintro _ s'' ⟨holds'', sameTransports, fresh'⟩
      refine wp_seq (sessionAddTrans_holds stable _ _ (may.build p) (new ▸ may.carry s holds p)
        holds'' (sameTransports ▸ known) fresh') ?_
      exact fun _ s₃ holds₃ => jingleSendSessionInitiate_keeps stable env w (may.await p)
        (fun failed => may.close failed p) s₃ holds₃

theorem jftSendTransfer_keeps (stable : Stable r inv) (env : Env) (w : World) (jft : FtPtr)
    {s₀ : State} (may : MayOffer r inv w s₀) (holds : inv s)
    (sameSessions : s.sessions = s₀.sessions) (known : jft < s.infoList.next)
    : (jftSendTransfer env w jft).wp (fun _ => inv) (fun error _ => NotAckHandle error) s := by
  have failed : Keeps inv NotAckHandle (modifyFt jft (fun ft => { ft with state := .error })) :=
    modifyFt_keeps stable (may.ft jft) (.kept (fun _ => ⟨rfl, rfl⟩))
  unfold jftSendTransfer
  split
  · exact failed s holds
  rename_i jid jidKnown
  split
  · exact failed s holds
  rename_i resource resourceKnown
  have create := may.create jid resource jidKnown resourceKnown s holds sameSessions
  have stable' := stable.since s
  have may' : MayOffer r (fun s' => inv s' ∧ Since s s') w s₀ := may.mono (fun _ holds' => holds'.1)
  refine wp_seq (newSessionWithApps_keeps stable' w _ may' ⟨holds, .refl s⟩ create ?_) ?_
  · intro entry member s' holds'
    cases List.mem_singleton.mp member
    exact Nat.lt_of_lt_of_le known holds'.2.infoList
  · exact fun _ s' holds' => jingleHandleApp_keeps stable env w _ _ jft may s' holds'.1

theorem jftSend_keeps (stable : Stable r inv) (env : Env) (w : World) (arg : Option String)
    (may : MayOffer r inv w s) (holds : inv s)
    : (jftSend env w arg).wp (fun _ => inv) (fun error _ => NotAckHandle error) s := by
  cases arg with
  | none => exact holds
  | some name =>
      have made := FileTransfer.new_keeps stable env w name (fun s _ => may.ft _) may.newFt holds
      have untouched := FileTransfer.new_keeps (storage_sessions s.sessions) env w name
        (fun _ _ => trivial) trivial (s := s) rfl
      refine wp_seq (wp_mono (wp_and made untouched) (fun _ _ both => both)
        (fun _ _ both => both.1)) ?_
      rintro (_ | jft) s' ⟨⟨holds', known⟩, sameSessions, _⟩
      · exact holds'
      · exact jftSendTransfer_keeps stable env w jft may holds' sameSessions (known jft rfl).2

theorem jftRetry_keeps (stable : Stable r inv) (env : Env) (w : World) (arg : Option String)
    (may : MayOffer r inv w s) (holds : inv s)
    : (jftRetry env w arg).wp (fun _ => inv) (fun error _ => NotAckHandle error) s := by
  refine wp_known rfl ?_
  split
  · rename_i jft ft rest listed
    have member : (jft, ft) ∈ s.infoList.cells := listed ▸ List.mem_cons_self
    have known : jft < s.infoList.next := Pool.lt_next (Pool.get?_eq_some_iff.mpr member)
    refine wp_cut (fun _ s' => (inv s' ∧ Since s s') ∧ s'.sessions = s.sessions) ?_ ?_
    · refine ⟨stable.since s _ _ ⟨holds, .refl s⟩ (.ft _ _ (may.ft _) ?_), rfl⟩
      exact .emptied (fun _ => ⟨rfl, rfl⟩)
    · rintro _ s' ⟨⟨holds', since⟩, sameSessions⟩
      exact jftSendTransfer_keeps stable env w _ may holds' sameSessions
        (Nat.lt_of_lt_of_le known since.infoList)
  · exact holds

/-- Each round of the walk deletes at most one transfer, which is over. -/
theorem flushRound_holds (stable : Stable r inv) (flush : ∀ d, r.flush d) {f : FileTransfer.Flush}
    (holds : inv { s with infoList := f.list })
    : (FileTransfer.flushRound f).Holds (fun f => inv { s with infoList := f.list }) := by
  unfold FileTransfer.flushRound
  cases f.el with
  | none => exact holds
  | some el =>
      dsimp only
      cases there : f.list.get? el with
      | none => trivial
      | some jft =>
          dsimp only
          by_cases finished : jft.state.isOver = true
          · rw [if_pos finished]
            have deleted := stable _ _ holds (.flush el jft there finished (flush el))
            cases FileTransfer.free jft with
            | error fault => trivial
            | ok _ =>
                dsimp only
                split <;> exact deleted
          · rw [if_neg finished]
            exact holds

theorem jftFlush_keeps (stable : Stable r inv) (flush : ∀ d, r.flush d) (holds : inv s)
    : jftFlush.wp (fun _ => inv) (fun error _ => NotAckHandle error) s := by
  refine wp_known rfl ?_
  split
  · exact fun h => by cases h
  · rename_i fault result
    obtain ⟨f, fails⟩ := (loops_of_loopFor result).left
    rcases FileTransfer.flushRound_fails fails with rfl | rfl
    · exact fun h => by cases h
    · exact fun h => by cases h
  · rename_i f result
    exact (loops_of_loopFor result).invariant (fun f => inv { s with infoList := f.list }) holds
      (fun f holds => flushRound_holds stable flush holds)

-----------------------------------------------------------------------------------------
-- One turn
-----------------------------------------------------------------------------------------

/-- What handling an input in `s` needs. -/
def MayHandle (r : Rights) (inv : State → Prop) (env : Env) (w : World) (s : State)
    : Input → Prop
  | .jingleIq message => ∀ jn, jingleRequest env message = some jn → MayServe r inv env w s jn
  | .ibbIq message => ∀ d, ibbTarget s message = some d →
      r.ft d ∧ (FileTransfer.writesFile w s d = true → r.disk d)
  | .reply ah _ => MaySend r inv ∧ r.fire ah ∧ r.free ah
  | .tick => MaySend r inv ∧ (∀ ah, r.fire ah) ∧ ∀ ah, r.free ah
  | .wait _ => True
  | .event id context => ∀ p, s.events.get? id = some p → MayDecide r s context p
  | .transportInitialize _ _ => MaySend r inv
  | .jftSend _ => MayOffer r inv w s
  | .jftRetry _ => MayOffer r inv w s
  | .jftFlush => ∀ d, r.flush d

/-- Inputs that come through no pointer to an ack handle. -/
def Input.direct : Input → Prop
  | .reply _ _ => False
  | .tick => False
  | _ => True

/-- The Jingle request that the input is. -/
def Input.request (env : Env) : Input → Option JingleNode
  | .jingleIq message => jingleRequest env message
  | _ => none

/-- The invitation in a request that opens a session. -/
def Input.invitation (env : Env) (w : World) (s : State) (input : Input) : Option JingleNode :=
  (input.request env).filter (fun jn =>
    jn.action == .sessionInitiate && acceptable env w jn && (sessionFind s jn).isNone)

/-- The transfer that the input brings data for. -/
def Input.target (s : State) : Input → Option FtPtr
  | .ibbIq message => ibbTarget s message
  | _ => none

/-- The event that the user answers with `reject`. -/
def Input.rejected : Input → Option Nat
  | .event id .reject => some id
  | _ => none

/-- The commands that offer a file. -/
def Input.offers : Input → Bool
  | .jftSend _ => true
  | .jftRetry _ => true
  | _ => false

/-- One case for each input; none of these goes through an ack handle. -/
theorem handleInput_keeps (stable : Stable r inv) (env : Env) (w : World) {input : Input}
    (direct : input.direct) (holds : inv s) (may : MayHandle r inv env w s input)
    : (handleInput env w input).wp (fun _ => inv) (fun error _ => NotAckHandle error) s := by
  cases input with
  | jingleIq message =>
      refine wp_seq (jingleHandleIq_keeps stable env w holds may) ?_
      exact fun _ _ holds' => holds'
  | ibbIq message =>
      refine wp_seq (jingleIbbHandleIq_keeps stable env w holds may) ?_
      exact fun _ _ holds' => holds'
  | reply ah message => exact direct.elim
  | tick => exact direct.elim
  | wait seconds => exact stable _ _ holds (.wait seconds)
  | event id context =>
      refine wp_known rfl ?_
      refine wp_seq (alive_known (by decide) _) ?_
      rintro p s ⟨rfl, pending⟩
      refine wp_seq (evscallbackJingle_keeps stable env holds (may p pending)) ?_
      exact fun _ s' holds' => stable _ _ holds' (.answered id)
  | transportInitialize correct sc =>
      exact handleTransportInitialize_keeps stable env w may correct sc s holds
  | jftSend arg => exact jftSend_keeps stable env w arg may holds
  | jftRetry arg => exact jftRetry_keeps stable env w arg may holds
  | jftFlush => exact jftFlush_keeps stable may holds

/-- An invariant that survives every change within the rights survives a turn that stays
within them.
-/
theorem Step.keeps {env : Env} {w : World} {input : Input} {s' : State}
    (step : Step env s (w, input) s') (stable : Stable r inv) (holds : inv s)
    (may : MayHandle r inv env w s input)
    : inv s' := by
  have handled : (handleInput env w input).wp (fun _ => inv)
      (fun error _ => AnyFault error) s := by
    cases input with
    | reply ah message =>
        exact jingleHandleAckIq_keeps stable env w message may.1 may.2.1 may.2.2 s holds
    | tick => exact jingleAckTimeoutChecker_keeps stable env w may.1 may.2.1 may.2.2 s holds
    | _ => exact anyFault (handleInput_keeps stable env w trivial holds may)
  exact wp_done handled step.2

/-- A turn that is a request is one of the handler of its action. -/
theorem Step.request_ends {env : Env} {w : World} {input : Input} {jn : JingleNode}
    {handler : JingleNode → Run JingleNode} {s' : State}
    (step : Step env s (w, input) s') (requested : input.request env = some jn)
    (handled : actionHandler env w jn.action = some handler)
    : ∃ jn', handler jn s = .done jn' s' := by
  cases input with
  | jingleIq message =>
      obtain ⟨result, s₁, run, rest⟩ := of_bind_done step.2
      cases rest
      exact jingleHandleIq_ends requested handled run
  | _ => cases requested

/-- A session that its peer ends is not listed any more. -/
theorem Step.terminate_removes {env : Env} {w : World} {input : Input} {jn : JingleNode}
    {p : SessionPtr} {js : JingleSession} {s' : State} (step : Step env s (w, input) s')
    (requested : input.request env = some jn) (action : jn.action = .sessionTerminate)
    (found : sessionFind s jn = some (p, js))
    : s'.sessions.get? p = none := by
  have handled : actionHandler env w jn.action = some (handleSessionTerminate env w) := by
    rw [action]
    rfl
  obtain ⟨jn', runs⟩ := step.request_ends requested handled
  rw [handleSessionTerminate, bind_get, found] at runs
  obtain ⟨_, s₂, stopped, runs⟩ := of_bind_done runs
  obtain ⟨_, s₃, deleted, runs⟩ := of_bind_done runs
  have stable : Stable .all (fun _ => True) := fun _ _ _ _ => trivial
  have gone := wp_done (sessionDelete_gone stable w trivial trivial) deleted
  cases runs
  exact gone.2.1

/-- Serving an invitation that opens a session. -/
theorem invitation_ends {env : Env} {w : World} {input : Input} {jn : JingleNode}
    {s' : State}
    (opens : input.invitation env w s = some jn) (step : Step env s (w, input) s')
    : acceptable env w jn = true ∧ sessionFind s jn = none
      ∧ createSession env w (checkContents jn).jn (checkContents jn).err s = .done () s' := by
  obtain ⟨requested, both⟩ := Option.filter_eq_some_iff.mp opens
  simp only [Bool.and_eq_true, beq_iff_eq, Option.isNone_iff_eq_none] at both
  obtain ⟨⟨action, passes⟩, absent⟩ := both
  refine ⟨passes, absent, ?_⟩
  have handled : actionHandler env w jn.action = some (handleSessionInitiate env w) := by
    rw [action]
    rfl
  obtain ⟨jn', run⟩ := step.request_ends requested handled
  rw [handleSessionInitiate_new passes absent, openInvitation] at run
  obtain ⟨_, s₁, created, node⟩ := of_bind_done run
  cases node
  exact created

/-- What an invitation that opened a session has left. -/
theorem invitation_filled {env : Env} {w : World} {input : Input} {jn : JingleNode}
    {s' : State} (layout : Layout s) (opens : input.invitation env w s = some jn)
    (step : Step env s (w, input) s')
    : ∃ sender toJid content, (checkContents jn).jn.message.getFrom = some sender
        ∧ sessionFind s (checkContents jn).jn = none
        ∧ Filled env w (s.inviting (checkContents jn).jn sender toJid) s' s.sessions.next
          (invited (checkContents jn).jn sender toJid)
          ((checkContents jn).jn.content.filter (contentKept env w s)) content := by
  obtain ⟨passes, absent, run⟩ := invitation_ends opens step
  simp only [acceptable, Bool.and_eq_true, Option.any_eq_true] at passes
  obtain ⟨⟨⟨⟨sender, known, _⟩, _⟩, _⟩, _⟩ := passes
  have message := (checkContentsLoop_node jn none jn.node.children).1
  have known' : (checkContents jn).jn.message.getFrom = some sender :=
    (congrArg LmMessage.getFrom message).trans known
  obtain ⟨toJid, content, _, filled⟩ :=
    createSession_ends env w (checkContents jn).err known' layout.streams run
  exact ⟨sender, toJid, content, known', (sessionFind_checkContents s jn).trans absent, filled⟩

-----------------------------------------------------------------------------------------
-- Rights that are mostly granted
-----------------------------------------------------------------------------------------

/-- Everything is allowed except perhaps creating sessions, declining them, and firing and
freeing handles.
-/
structure Generous (r : Rights) : Prop where
  activate : ∀ p, r.activate p
  grow : ∀ p, r.grow p
  build : ∀ p, r.build p
  describe : ∀ p d, r.describe p d
  carry : ∀ p t, r.carry p t
  change : ∀ p, r.change p
  drop : ∀ p name, r.drop p name
  close : ∀ p, r.close p
  ft : ∀ d, r.ft d
  newFt : ∀ direction, r.newFt direction
  flush : ∀ d, r.flush d
  disk : ∀ d, r.disk d
  transport : ∀ t, r.transport t
  blockSize : ∀ size, r.blockSize size
  stream : ∀ sid, r.stream sid
  outward : ∀ ident, r.outward ident
  await : ∀ callback, r.await callback
  ask : ∀ p, r.ask p
  accept : ∀ p, r.accept p

theorem Generous.maySend (g : Generous r) : MaySend r inv where
  ft := g.ft
  transport := g.transport
  change := g.change
  drop := g.drop
  close := g.close
  await _ := g.await _
  outward _ _ _ _ _ _ := g.outward _

theorem Generous.mayServe (g : Generous r) (layout : ∀ s, inv s → Layout s) (env : Env)
    (w : World) (s : State) (jn : JingleNode)
    (create : ∀ s', inv s' → ∀ js, js.origin = .incoming → r.openSession s' js)
    : MayServe r inv env w s jn where
  initiate _ _ _ := {
    newFt := g.newFt _
    create := fun _ _ _ _ s' holds => create s' holds _ rfl
    build := fun _ _ =>
      ⟨layout, g.grow _, g.build _, fun _ _ => g.describe _ _, fun _ _ => g.carry _ _⟩
    bind := fun _ _ _ _ _ _ _ _ _ _ => ⟨g.stream _, g.blockSize _, fun _ _ => g.transport _⟩
    close := fun _ _ => g.close _
    ask := fun _ _ => g.ask _
    unsupported := fun _ _ _ _ _ _ _ => g.outward _ }
  info _ _ _ _ _ _ _ _ _ := g.ft _
  accept _ _ _ _ _ _ :=
    ⟨g.change _, g.activate _, fun _ _ _ => g.blockSize _, fun _ _ _ _ _ _ _ _ => g.transport _⟩
  terminate _ _ _ _ :=
    ⟨g.change _, g.drop _, g.close _, .free g.ft g.disk⟩

theorem Generous.mayOffer (g : Generous r) (layout : ∀ s, inv s → Layout s) {w : World}
    {s : State}
    (create : ∀ jid ∈ w.currentJid, ∀ resource ∈ w.compatibleRes,
      ∀ s', inv s' → s'.sessions = s.sessions →
        r.openSession s' (offerSession w (jid ++ "/" ++ resource)))
    : MayOffer r inv w s where
  layout := layout
  newFt := g.newFt _
  ft := g.ft
  create jid resource jidKnown resourceKnown := create jid jidKnown resource resourceKnown
  grow _ _ := g.grow _
  build := g.build
  describe _ _ _ := g.describe _ _
  carry _ _ _ := g.carry _ _
  size := g.blockSize _
  await _ := g.await _
  close _ := g.close

/-- What is left to show for an input when most rights are granted. -/
theorem Generous.mayHandle (g : Generous r) (layout : ∀ s, inv s → Layout s) (env : Env)
    {w : World} {input : Input}
    (incoming : ∀ s', inv s' → ∀ js, js.origin = .incoming → r.openSession s' js)
    (outgoing : input.offers = true → ∀ jid ∈ w.currentJid, ∀ resource ∈ w.compatibleRes,
      ∀ s', inv s' → s'.sessions = s.sessions →
        r.openSession s' (offerSession w (jid ++ "/" ++ resource)))
    (decline : ∀ id p js, input = .event id .reject → s.events.get? id = some p →
      s.sessions.get? p = some js → r.decline (js.ident p))
    (acks : input.direct ∨ ∀ ah, r.fire ah ∧ r.free ah)
    : MayHandle r inv env w s input := by
  cases input with
  | jingleIq message => exact fun jn _ => g.mayServe layout env w s jn incoming
  | ibbIq message => exact fun d _ => ⟨g.ft d, fun _ => g.disk d⟩
  | reply ah message =>
      rcases acks with direct | acks
      · exact direct.elim
      · exact ⟨g.maySend, acks ah⟩
  | tick =>
      rcases acks with direct | acks
      · exact direct.elim
      · exact ⟨g.maySend, fun ah => (acks ah).1, fun ah => (acks ah).2⟩
  | wait seconds => trivial
  | event id context =>
      intro p pending
      refine ⟨fun _ => ⟨g.accept p, g.await _⟩, ?_⟩
      rintro rfl js listed
      exact ⟨g.outward _, decline id p js rfl pending listed⟩
  | transportInitialize correct sc => exact g.maySend
  | jftSend arg => exact g.mayOffer layout (outgoing rfl)
  | jftRetry arg => exact g.mayOffer layout (outgoing rfl)
  | jftFlush => exact g.flush

-----------------------------------------------------------------------------------------
-- Runs
-----------------------------------------------------------------------------------------

theorem all_generous : Generous .all := by
  constructor <;> intros <;> trivial

/-- An invariant that survives every change survives every turn. -/
theorem Step.keeps_all {env : Env} {input : StepInput} {s' : State}
    (step : Step env s input s') (stable : Stable .all inv) (holds : inv s) (layout : Layout s)
    : inv s' ∧ Layout s' := by
  refine step.keeps stable.layout ⟨holds, layout⟩
    (all_generous.mayHandle (fun _ => And.right) env ?_ ?_ ?_ ?_)
  · exact fun _ _ _ _ => trivial
  · exact fun _ _ _ _ _ _ _ _ => trivial
  · exact fun _ _ _ _ _ _ => trivial
  · exact Or.inr (fun _ => ⟨trivial, trivial⟩)

/-- Every turn keeps the layout, and none registers a module. -/
theorem Step.frame {env : Env} {input : StepInput} {s' : State} (layout : Layout s)
    (step : Step env s input s')
    : Layout s' ∧ SameModules s s' := by
  have stable : Stable .all (SameModules s) := fun _ _ => sameModules_effect
  exact (step.keeps_all stable ⟨rfl, rfl⟩ layout).symm

/-- Every reachable state has the layout, whatever its steps were. -/
theorem layout_reached {env : Env} {allowed : State → StepInput → Prop} {s : State}
    (run : ReachableBy env allowed s)
    : Layout s := by
  refine run.invariant ?_ ?_
  · intro s initial
    have absent (p : SessionPtr) : s.sessions.get? p = none := by
      rw [initial.sessions]
      rfl
    refine ⟨?_, ?_, ?_, fun p js listed => ?_, ?_⟩
    · intro p d ⟨js, listed, _⟩
      simp [absent p] at listed
    · intro p t ⟨js, listed, _⟩
      simp [absent p] at listed
    · intro p q t ⟨js, listed, _⟩
      simp [absent p] at listed
    · simp [absent p] at listed
    · intro entry member
      rw [initial.jingleIBBs] at member
      cases member
  · exact fun s input s' layout _ step => (step.frame layout).1

/-- An invariant of the start that survives every change holds in every reached state. -/
theorem stable_reached {env : Env} {allowed : State → StepInput → Prop} {s : State}
    (stable : Stable .all inv) (atStart : ∀ s, Initial s → inv s)
    (run : ReachableBy env allowed s)
    : inv s := by
  induction run with
  | start initial => exact atStart _ initial
  | step run _ next ih => exact (next.keeps_all stable ih (layout_reached run)).1

/-- An invariant of the start holds in every reached state when each allowed step stays
within rights, chosen where it starts, that keep a stronger invariant.
-/
theorem reached_invariant {env : Env} {allowed : State → StepInput → Prop} {inv : State → Prop}
    {s : State} (run : ReachableBy env allowed s) (atStart : ∀ s, Initial s → inv s)
    (kept : ∀ s w input, inv s → Layout s → allowed s (w, input) → Enabled s input →
      ∃ r inv', Stable r inv' ∧ inv' s ∧ (∀ s', inv' s' → Layout s' → inv s')
        ∧ MayHandle r (fun s' => inv' s' ∧ Layout s') env w s input)
    : inv s := by
  induction run with
  | start initial => exact atStart _ initial
  | @step s s' input run ok next ih =>
      obtain ⟨w, input⟩ := input
      have layout := layout_reached run
      obtain ⟨r, inv', stable, holds, weaker, may⟩ := kept s w input ih layout ok next.1
      obtain ⟨after, layout'⟩ := next.keeps stable.layout ⟨holds, layout⟩ may
      exact weaker s' after layout'

end McabberJingle
