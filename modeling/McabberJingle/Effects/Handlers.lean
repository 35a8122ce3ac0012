import McabberJingle.Effects.Sender
import McabberJingle.Jingle.Invitation
import McabberJingle.Jingle.Requests

/-! Changes made by the handlers of incoming IQs. -/

namespace McabberJingle

open Program Program.Prog

variable {r : Rights} {inv : State → Prop} {s : State}

-----------------------------------------------------------------------------------------
-- session-initiate
-----------------------------------------------------------------------------------------

theorem sameModules_effect {s' s'' : State} (same : SameModules s s')
    (effect : Effect r s' s'')
    : SameModules s s'' := by
  cases effect <;> exact same

theorem Stable.sameModules (stable : Stable r inv) (s : State)
    : Stable r (fun s' => inv s' ∧ SameModules s s') :=
  fun _ _ holds effect => ⟨stable _ _ holds.1 effect, sameModules_effect holds.2 effect⟩

theorem reportError_readOnly (err : ErrVar) : ReadOnly NotAckHandle (reportError err) := by
  cases err with
  | null => exact readOnly_pure _
  | set => exact readOnly_pure _
  | dangling => exact readOnly_fail (fun h => by cases h)

/-- By induction on the contents; the modules loaded stay those of `s₀`. -/
theorem addContents_keeps (stable : Stable r inv) (env : Env) (w : World) {s₀ : State}
    (modules : ∀ s, inv s → SameModules s₀ s) {sess : Option SessionPtr} (err : ErrVar)
    (contents : List JingleContent) (allowed : r.newFt .incoming)
    (build : ∀ p, sess = some p → MayBuild r inv p)
    (bind : ∀ cn ∈ contents, contentProcessed s₀ cn = true → MayBind r inv env w cn)
    : Keeps inv NotAckHandle (addContents env w sess err contents) := by
  induction contents generalizing err with
  | nil => exact keeps_pure _
  | cons cn rest ih =>
      have more err := ih err (fun cn' member => bind cn' (List.mem_cons_of_mem cn member))
      intro s holds
      refine wp_known rfl ?_
      rw [contentProcessed_eq, wp_ite]
      refine ⟨fun _ => more err s holds, fun processed => ?_⟩
      have processed' : contentProcessed s₀ cn = true := by
        rw [← (modules s holds).processed]
        simpa using processed
      refine wp_seq (deref_known .session sess) ?_
      rintro p s ⟨rfl, rfl⟩
      refine wp_seq (sessionAddContentFromJinglecontent_keeps stable env w cn (build p rfl)
        (bind cn List.mem_cons_self processed') allowed s holds) ?_
      intro error s' holds'
      exact keeps_bind (reportError_readOnly _).keeps (fun err' => more err') s' holds'

theorem showContents_readOnly (contents : List SessionContent)
    : ReadOnly NotAckHandle (showContents contents) := by
  induction contents with
  | nil => exact readOnly_pure _
  | cons sc rest ih =>
      refine readOnly_bind (deref_readOnly _ _) (fun _ => ?_)
      refine readOnly_bind (deref_readOnly _ _) (fun d => ?_)
      refine readOnly_bind (FileTransfer.info_readOnly d) (fun _ => ?_)
      refine readOnly_bind (deref_readOnly _ _) (fun transfuncs => ?_)
      refine readOnly_bind (deref_readOnly _ _) (fun t => ?_)
      exact readOnly_bind (transfuncs.info_readOnly t) (fun _ => ih)

theorem evsNew_keeps (stable : Stable r inv) (w : World) {p : SessionPtr} (allowed : r.ask p)
    : Keeps inv NotAckHandle (evsNew w p) :=
  keeps_ite (keeps_modify (fun _ holds => stable _ _ holds (.ask p allowed))) (keeps_pure _)

/-- The session an invitation asks for. -/
def JingleNode.invited (jn : JingleNode) (fromJid toJid : String) : JingleSession :=
  { sid := jn.sid, origin := .incoming, fromJid, toJid, content := [] }

/-- What turning the invitation `jn`, received in `s`, into a session needs. -/
structure MayInitiate (r : Rights) (inv : State → Prop) (env : Env) (w : World) (s : State)
    (jn : JingleNode)
    : Prop where
  newFt : r.newFt .incoming
  create : ∀ fromJid toJid, jn.message.getFrom = some fromJid →
    jn.message.getTo = some toJid → ∀ s, inv s → r.openSession s (jn.invited fromJid toJid)
  build : ∀ s, inv s → MayBuild r inv s.sessions.next
  bind : ∀ cn ∈ jn.content, contentProcessed s cn = true → MayBind r inv env w cn
  close : ∀ s, inv s → r.close s.sessions.next
  ask : ∀ s, inv s → r.ask s.sessions.next
  unsupported : ∀ fromJid toJid, jn.message.getFrom = some fromJid →
    jn.message.getTo = some toJid → (∀ cn ∈ jn.content, contentKept env w s cn = false) →
    ∀ s, inv s → r.outward ((jn.invited fromJid toJid).ident s.sessions.next)

/-- A session that none of the contents was kept in is told to end and deleted. -/
theorem fillSession_keeps (stable : Stable r inv) (env : Env) (w : World) {jn : JingleNode}
    (err : Option GError) {p : SessionPtr} {js : JingleSession}
    (modules : ∀ s', inv s' → SameModules s s') (same : ∀ s', inv s' → Identified (js.ident p) s')
    (newFt : r.newFt .incoming) (build : MayBuild r inv p)
    (bind : ∀ cn ∈ jn.content, contentProcessed s cn = true → MayBind r inv env w cn)
    (close : r.close p) (ask : r.ask p)
    (unsupported : (∀ cn ∈ jn.content, contentKept env w s cn = false) → r.outward (js.ident p))
    {s' : State} (holds : inv s') (listed : s'.sessions.get? p = some js)
    : (fillSession env w (some p) jn err).wp (fun _ => inv)
        (fun error _ => NotAckHandle error) s' := by
  have filled := addContents_keeps stable env w modules (if err.isSome then .set else .null)
    jn.content newFt (fun q h => Option.some.inj h ▸ build) bind s' holds
  refine wp_cut (fun _ s'' => inv s'' ∧ ((∃ cn ∈ jn.content, contentKept env w s cn = true) →
    ∃ js', s''.sessions.get? p = some js' ∧ js'.content ≠ [])) ?_ ?_
  · by_cases kept : ∃ cn ∈ jn.content, contentKept env w s cn = true
    · have nonempty := addContents_nonempty env w (if err.isSome then .set else .null) listed
        (Or.inr (kept.imp fun cn there =>
          ⟨there.1, ((modules s' holds).kept env w cn).trans there.2⟩))
      exact wp_mono (wp_and filled nonempty) (fun _ _ both => ⟨both.1, fun _ => both.2⟩)
        (fun _ _ both => both.1)
    · exact wp_post filled (fun _ _ holds'' => ⟨holds'', fun h => absurd h kept⟩)
  rintro _ s₂ ⟨holds₂, nonempty⟩
  refine wp_seq (deref_known .session (some p)) ?_
  rintro p s₂ ⟨rfl, ⟨⟩⟩
  refine wp_seq (readSession_known p) ?_
  rintro js₂ s₂ ⟨rfl, listed₂⟩
  rw [wp_ite]
  constructor
  · intro empty
    refine terminateAndDelete_keeps stable w "unsupported-applications" close ?_ s₂ holds₂
    intro s₃ holds₃ js₃ listed₃
    have identity : js₃.ident p = js.ident p := (same s₃ holds₃).2 js₃ listed₃
    rw [identity]
    refine unsupported (fun cn member => ?_)
    cases kept : contentKept env w s cn with
    | false => rfl
    | true =>
        obtain ⟨js', listed', some⟩ := nonempty ⟨cn, member, kept⟩
        cases listed₂.symm.trans listed'
        exact absurd (List.isEmpty_iff.mp empty) some
  · intro _
    exact keeps_bind (showContents_readOnly _).keeps (fun _ => evsNew_keeps stable w ask)
      s₂ holds₂

/-- Without a sender or an addressee there is no session to fill. -/
theorem fillSession_none (stable : Stable r inv) (env : Env) (w : World) {jn : JingleNode}
    (err : Option GError) (modules : ∀ s', inv s' → SameModules s s')
    (newFt : r.newFt .incoming)
    (bind : ∀ cn ∈ jn.content, contentProcessed s cn = true → MayBind r inv env w cn)
    : Keeps inv NotAckHandle (fillSession env w none jn err) := by
  refine keeps_bind (addContents_keeps stable env w modules _ jn.content newFt
    (fun _ h => by cases h) bind) (fun _ => ?_)
  intro s' _
  refine wp_seq (deref_known .session none) ?_
  rintro p s' ⟨_, ⟨⟩⟩

/-- The invitation of a known session is answered before it gets here, so the new one is the
first with its sid and peer.
-/
theorem createSession_keeps (stable : Stable r inv) (env : Env) (w : World) {jn : JingleNode}
    (err : Option GError) (absent : sessionFind s jn = none)
    (may : MayInitiate r inv env w s jn) (holds : inv s)
    : (createSession env w jn err).wp (fun _ => inv) (fun error _ => NotAckHandle error) s := by
  have bind (inv' : State → Prop) (stronger : ∀ s, inv' s → inv s) (cn : JingleContent)
      (member : cn ∈ jn.content) (processed : contentProcessed s cn = true)
      : MayBind r inv' env w cn :=
    (may.bind cn member processed).mono stronger
  refine wp_cut (fun _ s' => inv s' ∧ s'.sessions = s.sessions ∧ SameModules s s') ?_ ?_
  · exact ⟨jingleAckIq_keeps stable jn.message s holds, rfl, rfl, rfl⟩
  rintro _ s₁ ⟨holds₁, sameSessions, modules₁⟩
  unfold sessionNewFromJinglenode
  split
  · rename_i fromJid toJid fromKnown toKnown
    -- the session is created at `p` and keeps its identity
    generalize same : s₁.sessions.next = p
    let js := jn.invited fromJid toJid
    refine wp_cut (fun sess s' => sess = some p ∧ ((inv s' ∧ SameModules s s')
      ∧ Identified (js.ident p) s') ∧ s'.sessions.get? p = some js) ?_ ?_
    · have created : Effect r s₁ { s₁ with sessions := s₁.sessions.alloc js } := by
        refine .openSession js rfl (may.create fromJid toJid fromKnown toKnown s₁ holds₁) ?_
        intro _
        have recipient : some js.recipient = jn.message.getFrom := fromKnown.symm
        have sid : js.sid = jn.sid := rfl
        rw [recipient, sid]
        simpa only [sessionFind, sessionFindBySid, sameSessions] using absent
      have listed := Pool.get?_alloc_self s₁.sessions js
      subst same
      exact ⟨rfl, ⟨⟨stable _ _ holds₁ created, sameModules_effect modules₁ created⟩,
        identified_of_listed listed⟩, listed⟩
    rintro _ s₂ ⟨rfl, holds₂, listed₂⟩
    subst same
    refine wp_post (fillSession_keeps ((stable.sameModules s).identified _) env w err
      (fun _ h => h.1.2) (fun _ h => h.2) may.newFt ((may.build s₁ holds₁).mono (fun _ h => h.1.1))
      (bind _ (fun _ h => h.1.1)) (may.close s₁ holds₁) (may.ask s₁ holds₁) ?_ holds₂ listed₂)
      (fun _ _ h => h.1.1)
    exact fun nothing => may.unsupported fromJid toJid fromKnown toKnown nothing s₁ holds₁
  · refine wp_post (fillSession_none (stable.sameModules s) env w err (fun _ h => h.2) may.newFt
      (bind _ (fun _ h => h.1)) s₁ ⟨holds₁, modules₁⟩) (fun _ _ h => h.1)

/-- Checking the contents changes nothing else of the node. -/
theorem handleSessionInitiate_keeps (stable : Stable r inv) (env : Env) (w : World)
    {jn : JingleNode} (holds : inv s)
    (may : acceptable env w jn = true → sessionFind s jn = none →
      MayInitiate r inv env w s (checkContents jn).jn)
    : (handleSessionInitiate env w jn).wp (fun _ => inv) (fun error _ => NotAckHandle error)
        s := by
  have refuse (jn' : JingleNode) (errtype cond : String) (jinglecond : Option String)
      : Keeps inv NotAckHandle
          (do jingleSendIqError jn.message errtype cond jinglecond; pure jn' : Run JingleNode) :=
    keeps_bind (jingleSendIqError_keeps stable _ _ _ _) (fun _ => keeps_pure _)
  refine wp_seq (deref_known .string jn.message.getFrom) ?_
  rintro sender s ⟨rfl, known⟩
  rw [wp_ite]
  refine ⟨fun _ => refuse _ _ _ _ s holds, fun listed => ?_⟩
  dsimp only
  rw [wp_ite]
  constructor
  · intro _
    exact keeps_bind (deref_readOnly _ _).keeps (fun _ => refuse _ _ _ _) s holds
  intro checked
  rw [wp_ite]
  refine ⟨fun _ => refuse _ _ _ _ s holds, fun filled => ?_⟩
  rw [wp_ite]
  refine ⟨fun _ => refuse _ _ _ _ s holds, fun disposed => ?_⟩
  have passes : acceptable env w jn = true := by
    have some_content : (checkContents jn).jn.content.isEmpty = false := by
      cases content : (checkContents jn).jn.content with
      | nil => simp [content] at filled
      | cons cn rest => rfl
    simp only [Bool.not_eq_false] at listed checked disposed
    simp [acceptable, known, listed, checked, some_content, disposed]
  refine wp_known rfl ?_
  rw [wp_ite]
  refine ⟨fun _ => refuse _ _ _ _ s holds, fun unknown => ?_⟩
  have absent : sessionFind s jn = none := by simpa using unknown
  refine wp_seq (createSession_keeps stable env w _ ?_ (may passes absent) holds)
    (fun _ _ holds' => holds')
  rw [sessionFind_checkContents]
  exact absent

-----------------------------------------------------------------------------------------
-- The other actions
-----------------------------------------------------------------------------------------

theorem offerInfo_keeps (stable : Stable r inv) (child : LmMessageNode)
    (contents : List SessionContent)
    (allowed : takesHash child = true → ∀ sc ∈ contents, ∀ d, sc.description = some d → r.ft d)
    : Keeps inv NotAckHandle (offerInfo child contents) := by
  induction contents with
  | nil => exact keeps_pure _
  | cons sc rest ih =>
      refine keeps_bind (deref_readOnly _ _).keeps (fun _ => ?_)
      intro s holds
      refine wp_seq (deref_known .description _) ?_
      rintro d s ⟨rfl, described⟩
      refine keeps_bind (FileTransfer.handle_keeps stable _ _
        (fun takes => allowed takes sc List.mem_cons_self d described)) (fun status => ?_) s holds
      exact keeps_ite (keeps_pure _)
        (ih (fun takes sc' member => allowed takes sc' (List.mem_cons_of_mem _ member)))

/-- Whether a session-info brings a hash. -/
def bringsHash (jn : JingleNode) : Bool := jn.node.children.head?.any takesHash

theorem handleSessionInfo_keeps (stable : Stable r inv) {jn : JingleNode} (holds : inv s)
    (allowed : bringsHash jn = true → ∀ p js, sessionFind s jn = some (p, js) →
      ∀ sc ∈ js.content, ∀ d, sc.description = some d → r.ft d)
    : (handleSessionInfo jn).wp (fun _ => inv) (fun error _ => NotAckHandle error) s := by
  refine wp_known rfl ?_
  cases found : sessionFind s jn with
  | none =>
      exact keeps_bind (jingleSendIqError_keeps stable _ _ _ _) (fun _ => keeps_pure _) s holds
  | some cell =>
      obtain ⟨p, js⟩ := cell
      dsimp only
      cases children : jn.node.children with
      | nil =>
          exact keeps_bind (jingleAckIq_keeps stable _) (fun _ => keeps_pure _) s holds
      | cons child rest =>
          have mine (takes : takesHash child = true) :=
            allowed (by simp [bringsHash, children, takes]) p js found
          refine keeps_bind (offerInfo_keeps stable child js.content mine) (fun taken => ?_) s holds
          cases taken with
          | true => exact keeps_bind (jingleAckIq_keeps stable _) (fun _ => keeps_pure _)
          | false =>
              exact keeps_bind (jingleSendIqError_keeps stable _ _ _ _) (fun _ => keeps_pure _)

theorem runHandle_keeps (stable : Stable r inv) (env : Env) {t : TransportPtr}
    (allowed : r.transport t) (transfuncs : JingleTransportFuncs) (action : JingleAction)
    (node : LmMessageNode) (size : action = .sessionAccept → Ibb.MaySize r node)
    : Keeps inv NotAckHandle (runHandle env transfuncs action t node) := by
  refine keeps_bind (keeps_modify (fun s holds => stable _ _ holds (.handle t node)))
    (fun _ => ?_)
  exact transfuncs.handle_keeps stable env action node allowed size

/-- By induction on the contents of the stanza, which are looked up by name. -/
theorem acceptContents_keeps (stable : Stable r inv) (env : Env) {p : SessionPtr}
    (contents : List JingleContent) (change : r.change p) (activate : r.activate p)
    (carried : ∀ s, inv s → ∀ js, s.sessions.get? p = some js →
      ∀ sc ∈ js.content, ∀ t, sc.transport = some t → r.transport t)
    (sizes : ∀ jc ∈ contents, Ibb.MaySize r jc.transport)
    : Keeps inv NotAckHandle (acceptContents env p contents) := by
  induction contents with
  | nil => exact keeps_pure _
  | cons jc rest ih =>
      have more := ih (fun jc' member => sizes jc' (List.mem_cons_of_mem jc member))
      intro s holds
      refine wp_seq (readSession_known p) ?_
      rintro js s ⟨rfl, listed⟩
      cases found : sessionFindSessioncontent js jc.name with
      | none => exact more s holds
      | some sc =>
          refine wp_seq (sessionChangestateSessioncontent_keeps stable _ _ change
            (fun _ => activate) (by decide) s holds) ?_
          intro _ s' holds'
          refine wp_seq (deref_known .transfuncs _) ?_
          rintro transfuncs s' ⟨rfl, _⟩
          refine wp_seq (deref_known .transport _) ?_
          rintro t s' ⟨rfl, has⟩
          have allowed := carried s holds js listed sc (sessionFindSessioncontent_mem found).1 t has
          have size := sizes jc List.mem_cons_self
          refine keeps_bind (runHandle_keeps stable env allowed transfuncs _ _ (fun _ => size))
            (fun _ => ?_) s' holds'
          refine keeps_bind (keeps_modify (fun _ holds'' => stable _ _ holds'' (.init _ t)))
            (fun _ => ?_)
          exact keeps_bind (transfuncs.init_readOnly _ _).keeps (fun _ => more)

/-- Whether the contents of a session-accept name one of the session. -/
def namesContent (js : JingleSession) (contents : List JingleContent) : Bool :=
  contents.any (fun jc => (sessionFindSessioncontent js jc.name).isSome)

/-- A session-accept that names no content of the session changes nothing. -/
theorem acceptContents_unnamed (env : Env) {p : SessionPtr} {js : JingleSession}
    (listed : s.sessions.get? p = some js) (contents : List JingleContent)
    (unnamed : namesContent js contents = false)
    : acceptContents env p contents s = .done () s := by
  induction contents with
  | nil => rfl
  | cons jc rest ih =>
      simp only [namesContent, List.any_cons, Bool.or_eq_false_iff, Option.isSome_eq_false_iff,
        Option.isNone_iff_eq_none] at unnamed
      rw [acceptContents, bind_done (readSession_done listed), unnamed.1]
      exact ih unnamed.2

theorem handleSessionAccept_keeps (stable : Stable r inv) (env : Env) {jn : JingleNode}
    (holds : inv s)
    (may : (checkContents jn).ok = true → ∀ p js, sessionFind s jn = some (p, js) →
      namesContent js (checkContents jn).jn.content = true →
      r.change p ∧ r.activate p
      ∧ (∀ jc ∈ (checkContents jn).jn.content, Ibb.MaySize r jc.transport)
      ∧ ∀ s, inv s → ∀ js, s.sessions.get? p = some js →
        ∀ sc ∈ js.content, ∀ t, sc.transport = some t → r.transport t)
    : (handleSessionAccept env jn).wp (fun _ => inv) (fun error _ => NotAckHandle error) s := by
  refine wp_known rfl ?_
  cases found : sessionFindBySid s jn.sid jn.message.getFrom with
  | none =>
      exact keeps_bind (jingleSendIqError_keeps stable _ _ _ _) (fun _ => keeps_pure _) s holds
  | some cell =>
      obtain ⟨p, js⟩ := cell
      dsimp only
      rw [wp_ite]
      constructor
      · intro _
        refine keeps_bind (deref_readOnly _ _).keeps (fun _ => ?_) s holds
        exact keeps_bind (jingleSendIqError_keeps stable _ _ _ _) (fun _ => keeps_pure _)
      · intro checked
        cases named : namesContent js (checkContents jn).jn.content with
        | true =>
            obtain ⟨change, activate, sizes, carried⟩ :=
              may (by simpa using checked) p js found named
            refine keeps_bind (jingleAckIq_keeps stable _) (fun _ => ?_) s holds
            exact keeps_bind (acceptContents_keeps stable env _ change activate carried sizes)
              (fun _ => keeps_pure _)
        | false =>
            have listed : s.sessions.get? p = some js := sessionFindBySid_listed found
            refine wp_cut (fun _ s' => inv s' ∧ s'.sessions = s.sessions) ?_ ?_
            · exact ⟨jingleAckIq_keeps stable jn.message s holds, rfl⟩
            intro _ s' ⟨holds', sameSessions⟩
            rw [← sameSessions] at listed
            rw [wp, bind_done (acceptContents_unnamed env listed _ named)]
            exact holds'

/-- The transfers of the contents may be stopped if the sender is spelled as in the session. -/
def MayStopAll (r : Rights) (inv : State → Prop) (p : SessionPtr) (sender : Option String)
    (contents : List SessionContent)
    : Prop :=
  ∀ s, inv s → ∀ js, s.sessions.get? p = some js → sender = some js.recipient →
    ∀ sc ∈ contents, ∀ d, sc.description = some d → FileTransfer.MayStop r inv d

theorem MayStopAll.free {p : SessionPtr} {sender : Option String} {contents : List SessionContent}
    (ft : ∀ d, r.ft d) (disk : ∀ d, r.disk d)
    : MayStopAll r inv p sender contents :=
  fun _ _ _ _ _ _ _ d _ => ⟨ft d, fun _ _ _ => disk d⟩

/-- By induction on the contents: each is stopped and unlinked. -/
theorem terminateContents_keeps (stable : Stable r inv) (env : Env) (w : World)
    {p : SessionPtr} (sender : Option String) (contents : List SessionContent)
    (change : r.change p) (drop : ∀ name, r.drop p name)
    (allowed : MayStopAll r inv p sender contents)
    : Keeps inv NotAckHandle (terminateContents env w p sender contents) := by
  induction contents with
  | nil => exact keeps_pure _
  | cons sc rest ih =>
      have more := ih (fun s holds js listed same sc' member =>
        allowed s holds js listed same sc' (List.mem_cons_of_mem _ member))
      have unlink : Keeps inv NotAckHandle
          (do
            let _ ← sessionRemoveSessioncontent p sc.name
            if ← readFreedLink w then
              terminateContents env w p sender rest : Run Unit) := by
        refine keeps_bind (sessionRemoveSessioncontent_keeps stable _ change (drop _))
          (fun _ => ?_)
        refine keeps_bind (readFreedLink_keeps stable w) (fun link => ?_)
        exact keeps_ite more (keeps_pure _)
      intro s holds
      refine wp_seq (readSession_known p) ?_
      rintro js s ⟨rfl, listed⟩
      rw [wp_ite]
      refine ⟨fun same => ?_, fun _ => unlink s holds⟩
      have stops := allowed s holds js listed same sc List.mem_cons_self
      refine keeps_bind (deref_readOnly _ _).keeps (fun _ => ?_) s holds
      intro s holds
      refine wp_seq (deref_known .description _) ?_
      rintro d s ⟨rfl, described⟩
      exact keeps_bind (FileTransfer.stop_keeps stable env w (stops d described))
        (fun _ => unlink) s holds

/-- A session that was removed does not come back. -/
def Gone (p : SessionPtr) (s : State) : Prop :=
  s.sessions.get? p = none ∧ p < s.sessions.next

theorem gone_effect {p : SessionPtr} {s' : State} (gone : Gone p s) (effect : Effect r s s')
    : Gone p s' := by
  obtain ⟨absent, known⟩ := gone
  have erased (q : SessionPtr) : (s.sessions.erase q).get? p = none := by
    cases found : (s.sessions.erase q).get? p with
    | none => rfl
    | some js =>
        rw [(Pool.get?_erase_eq_some.mp found).2] at absent
        cases absent
  cases effect with
  | content q js g listed change =>
      refine ⟨?_, known⟩
      by_cases here : p = q
      · subst here
        simp [absent]
      · rw [Pool.get?_modify_of_ne _ here]
        exact absent
  | openSession js empty allowed first =>
      refine ⟨?_, Nat.lt_succ_of_lt known⟩
      rw [Pool.get?_alloc_of_lt _ known]
      exact absent
  | close q allowed => exact ⟨erased q, known⟩
  | finish q js reason listed allowed outward => exact ⟨erased q, known⟩
  | _ => exact ⟨absent, known⟩

theorem Stable.gone (stable : Stable r inv) (p : SessionPtr)
    : Stable r (fun s => inv s ∧ Gone p s) :=
  fun _ _ holds effect => ⟨stable _ _ holds.1 effect, gone_effect holds.2 effect⟩

theorem sessionDelete_gone (stable : Stable r inv) (w : World) {p : SessionPtr}
    (allowed : r.close p) (holds : inv s)
    : (sessionDelete w p).wp (fun _ s' => inv s' ∧ Gone p s')
        (fun error _ => NotAckHandle error) s := by
  refine wp_seq (readSession_known p) ?_
  rintro js s ⟨rfl, listed⟩
  have known : p < s.sessions.next := Pool.lt_next listed
  refine wp_cut (fun _ s' => inv s' ∧ Gone p s') ?_ ?_
  · exact ⟨stable _ _ holds (.close p allowed), Pool.get?_erase_self _ _, known⟩
  · exact fun _ s' holds' => sessionFreeContents_keeps (stable.gone p) w js.content s' holds'

theorem handleSessionTerminate_keeps (stable : Stable r inv) (env : Env) (w : World)
    {jn : JingleNode} (holds : inv s)
    (may : ∀ p js, sessionFind s jn = some (p, js) →
      r.change p ∧ (∀ name, r.drop p name) ∧ r.close p
      ∧ MayStopAll r inv p jn.message.getFrom js.content)
    : (handleSessionTerminate env w jn).wp (fun _ => inv) (fun error _ => NotAckHandle error)
        s := by
  refine wp_known rfl ?_
  cases found : sessionFind s jn with
  | none =>
      exact keeps_bind (jingleSendIqError_keeps stable _ _ _ _) (fun _ => keeps_pure _) s holds
  | some cell =>
      obtain ⟨p, js⟩ := cell
      obtain ⟨change, drop, close, allowed⟩ := may p js found
      refine wp_seq (terminateContents_keeps stable env w _ js.content change drop allowed s
        holds) ?_
      intro _ s₁ holds₁
      refine wp_seq (sessionDelete_gone stable w close holds₁) ?_
      intro _ s₂ holds₂
      refine wp_seq (jingleAckIq_keeps (stable.gone p) _ s₂ holds₂) ?_
      intro _ s₃ holds₃
      exact stable _ _ holds₃.1 (.closedByPeer p holds₃.2.1 holds₃.2.2)

/-- The content list is empty here, so the handler never reaches a module. -/
theorem handleTransportInfo_keeps (stable : Stable r inv) {jn : JingleNode}
    (empty : jn.content = [])
    : Keeps inv NotAckHandle (handleTransportInfo jn) := by
  have refuse (errtype cond : String) (jinglecond : Option String)
      : Keeps inv NotAckHandle
          (do jingleSendIqError jn.message errtype cond jinglecond; pure jn : Run JingleNode) :=
    keeps_bind (jingleSendIqError_keeps stable _ _ _ _) (fun _ => keeps_pure _)
  refine keeps_bind readOnly_get.keeps (fun s => ?_)
  cases sessionFind s jn with
  | none => exact refuse _ _ _
  | some cell =>
      dsimp only
      rw [empty]
      exact refuse _ _ _

-----------------------------------------------------------------------------------------
-- The dispatcher
-----------------------------------------------------------------------------------------

/-- What serving the request `jn`, received in `s`, needs. -/
structure MayServe (r : Rights) (inv : State → Prop) (env : Env) (w : World) (s : State)
    (jn : JingleNode)
    : Prop where
  initiate : jn.action = .sessionInitiate → acceptable env w jn = true →
    sessionFind s jn = none → MayInitiate r inv env w s (checkContents jn).jn
  info : jn.action = .sessionInfo → bringsHash jn = true → ∀ p js, sessionFind s jn = some (p, js) →
    ∀ sc ∈ js.content, ∀ d, sc.description = some d → r.ft d
  accept : jn.action = .sessionAccept → (checkContents jn).ok = true →
    ∀ p js, sessionFind s jn = some (p, js) →
      namesContent js (checkContents jn).jn.content = true →
      r.change p ∧ r.activate p
      ∧ (∀ jc ∈ (checkContents jn).jn.content, Ibb.MaySize r jc.transport)
      ∧ ∀ s, inv s → ∀ js, s.sessions.get? p = some js →
        ∀ sc ∈ js.content, ∀ t, sc.transport = some t → r.transport t
  terminate : jn.action = .sessionTerminate → ∀ p js, sessionFind s jn = some (p, js) →
    r.change p ∧ (∀ name, r.drop p name) ∧ r.close p
    ∧ MayStopAll r inv p jn.message.getFrom js.content

theorem jingleFreeJinglenode_readOnly (jn : JingleNode)
    : ReadOnly NotAckHandle (jingleFreeJinglenode jn) := by
  unfold jingleFreeJinglenode
  split
  · exact readOnly_fail (fun h => by cases h)
  · exact readOnly_pure _

theorem jingleHandleIq_keeps (stable : Stable r inv) (env : Env) (w : World)
    {message : LmMessage} (holds : inv s)
    (may : ∀ jn, jingleRequest env message = some jn → MayServe r inv env w s jn)
    : (jingleHandleIq env w message).wp (fun _ => inv) (fun error _ => NotAckHandle error) s := by
  unfold jingleHandleIq
  unfold jingleRequest at may
  split
  · exact holds
  rename_i isSet
  rw [if_neg isSet] at may
  cases child : message.node.getChild "jingle" with
  | none => exact holds
  | some jnode =>
  simp only [child] at may
  dsimp only
  split
  · exact holds
  rename_i isJingle
  rw [if_neg isJingle] at may
  cases checked : checkJingle env.checkJidSyntax message jnode with
  | error err =>
      exact keeps_bind (jingleSendIqError_keeps stable _ _ _ _) (fun _ => keeps_pure _) s holds
  | ok jn =>
      have serve : MayServe r inv env w s jn := may jn (by rw [checked]; rfl)
      have free (jn' : JingleNode) : Keeps inv NotAckHandle
          (do jingleFreeJinglenode jn'; pure .removeMessage : Run LmHandlerResult) :=
        keeps_bind (jingleFreeJinglenode_readOnly jn').keeps (fun _ => keeps_pure _)
      dsimp only
      cases action : jn.action with
      | sessionAccept =>
          refine wp_seq (handleSessionAccept_keeps stable env holds (serve.accept action)) ?_
          exact fun jn' s' holds' => free jn' s' holds'
      | sessionInfo =>
          refine wp_seq (handleSessionInfo_keeps stable holds (serve.info action)) ?_
          exact fun jn' s' holds' => free jn' s' holds'
      | sessionInitiate =>
          refine wp_seq (handleSessionInitiate_keeps stable env w holds (serve.initiate action)) ?_
          exact fun jn' s' holds' => free jn' s' holds'
      | sessionTerminate =>
          refine wp_seq (handleSessionTerminate_keeps stable env w holds (serve.terminate action))
            ?_
          exact fun jn' s' holds' => free jn' s' holds'
      | transportInfo =>
          refine wp_seq (handleTransportInfo_keeps stable (checkJingle_node checked).2.2.1 s
            holds) ?_
          exact fun jn' s' holds' => free jn' s' holds'
      | _ =>
          exact keeps_bind (jingleSendIqError_keeps stable _ _ _ _) (fun _ => free jn) s holds

/-- The transfer an IBB data packet is written to: the description of the first content that
carries the stream.
-/
def ibbTarget (s : State) (message : LmMessage) : Option FtPtr :=
  if message.subType ≠ .set then
    none
  else
    match message.node.getChild "data" with
    | none => none
    | some dnode =>
        if dnode.getAttribute "xmlns" ≠ some NS_TRANSPORT_IBB then
          none
        else
          ((dnode.getAttribute "sid").bind (Ibb.lookup s)).bind (fun t =>
            (sessioncontentFindByTransport s t).bind SessionContent.description)

theorem jingleIbbHandleIq_keeps (stable : Stable r inv) (env : Env) (w : World)
    {message : LmMessage} (holds : inv s)
    (may : ∀ d, ibbTarget s message = some d →
      r.ft d ∧ (FileTransfer.writesFile w s d = true → r.disk d))
    : (jingleIbbHandleIq env w message).wp (fun _ => inv) (fun error _ => NotAckHandle error)
        s := by
  unfold jingleIbbHandleIq
  unfold ibbTarget at may
  split
  · exact holds
  rename_i isSet
  rw [if_neg isSet] at may
  cases child : message.node.getChild "data" with
  | none => exact holds
  | some dnode =>
  simp only [child] at may
  dsimp only
  split
  · exact holds
  rename_i isData
  rw [if_neg isData] at may
  refine wp_seq (deref_known .string (dnode.getAttribute "sid")) ?_
  rintro sid s ⟨rfl, named⟩
  refine wp_known rfl ?_
  cases stream : Ibb.lookup s sid with
  | none => exact holds
  | some t =>
      rw [named, Option.bind_some, stream, Option.bind_some] at may
      refine wp_cut (fun _ s' => inv s' ∧ s'.sessions = s.sessions ∧ s'.infoList = s.infoList)
        ?_ ?_
      · exact ⟨jingleAckIq_keeps stable message s holds, rfl, rfl⟩
      rintro _ s₁ ⟨holds₁, sameSessions, sameList⟩
      refine wp_cut (fun _ => inv) ?_ (fun _ _ holds' => holds')
      refine wp_known rfl ?_
      have sameHit : sessioncontentFindByTransport s₁ t = sessioncontentFindByTransport s t := by
        simp only [sessioncontentFindByTransport, sameSessions]
      rw [sameHit]
      cases hit : sessioncontentFindByTransport s t with
      | none => exact holds₁
      | some sc =>
          rw [hit, Option.bind_some] at may
          refine wp_seq (deref_readOnly _ _ s₁) ?_
          rintro _ s₁ rfl
          refine wp_seq (deref_known .description _) ?_
          rintro d s₁ ⟨rfl, described⟩
          obtain ⟨ft, disk⟩ := may d described
          have disk' : FileTransfer.writesFile w s₁ d = true → r.disk d := by
            simpa only [FileTransfer.writesFile, sameList] using disk
          cases dnode.value with
          | none => exact fail_known (by decide)
          | some value =>
              refine wp_seq (FileTransfer.handleData_holds stable w _ holds₁ ft disk') ?_
              exact fun _ _ holds₂ => holds₂

/-- A hash is stored in the transfers of all contents. -/
theorem offerInfo_hashes {child : LmMessageNode} {contents : List SessionContent} {taken : Bool}
    {s' : State} (takes : takesHash child = true)
    (ends : offerInfo child contents s = .done taken s')
    : s'.disk = s.disk
      ∧ s'.infoList = s.infoList.modifyAll (fun ft => { ft with hash := child.value })
        (contents.filterMap SessionContent.description) := by
  simp only [takesHash, Bool.and_eq_true, beq_iff_eq] at takes
  induction contents generalizing s with
  | nil =>
      cases ends
      exact ⟨rfl, rfl⟩
  | cons sc rest ih =>
      obtain ⟨_, s₁, app, ends⟩ := of_bind_done ends
      obtain ⟨same₁, _⟩ := wp_done (deref_known .appfuncs _) app
      obtain ⟨d, s₂, description, ends⟩ := of_bind_done ends
      obtain ⟨same₂, described⟩ := wp_done (deref_known .description _) description
      obtain ⟨status, s₃, stored, ends⟩ := of_bind_done ends
      cases same₁
      cases same₂
      rw [FileTransfer.handle, if_pos ⟨rfl, takes.1, takes.2⟩] at stored
      obtain ⟨ft, s₄, read, modified⟩ := of_bind_done stored
      obtain ⟨same₃, _⟩ := wp_done (readFt_known d) read
      cases same₃
      cases modified
      obtain ⟨disk, infoList⟩ := ih ends
      refine ⟨disk, infoList.trans ?_⟩
      rw [List.filterMap_cons_some described]
      rfl

/-- What a session-info with a hash, about a session that is found, does if it is handled to its
end.
-/
theorem handleSessionInfo_hashes {jn jn' : JingleNode} {child : LmMessageNode} {p : SessionPtr}
    {js : JingleSession} {s' : State} (found : sessionFind s jn = some (p, js))
    (first : jn.node.children.head? = some child) (takes : takesHash child = true)
    (ends : handleSessionInfo jn s = .done jn' s')
    : s'.disk = s.disk
      ∧ s'.infoList = s.infoList.modifyAll (fun ft => { ft with hash := child.value })
        (js.content.filterMap SessionContent.description) := by
  rw [handleSessionInfo, bind_get, found] at ends
  cases children : jn.node.children with
  | nil =>
      rw [children] at first
      cases first
  | cons child' rest =>
      rw [children] at first ends
      cases first
      obtain ⟨taken, s₁, offered, ends⟩ := of_bind_done ends
      have stored := offerInfo_hashes takes offered
      cases taken <;> cases ends <;> exact stored

/-- The bytes in a data packet. -/
def packetData (env : Env) (message : LmMessage) : Option (List UInt8) :=
  (message.node.getChild "data").bind (fun dnode => dnode.value.map env.base64Decode)

section Packets

variable {env : Env} {w : World} {s' : State}

/-- The bytes that came for a transport go to the transfer of the content that carries it. -/
theorem handleTransData_goes {t : TransportPtr} {payload : Option (List UInt8)}
    (handled : handleTransData w t payload s = .done () s')
    : (sessioncontentFindByTransport s t = none ∧ s' = s)
      ∨ ∃ sc d data taken, sessioncontentFindByTransport s t = some sc
          ∧ sc.description = some d ∧ payload = some data
          ∧ FileTransfer.handleData w d data s = .done taken s' := by
  unfold handleTransData at handled
  rw [bind_get] at handled
  cases carrier : sessioncontentFindByTransport s t with
  | none =>
      rw [carrier] at handled
      cases handled
      exact .inl ⟨rfl, rfl⟩
  | some sc =>
  rw [carrier] at handled
  obtain ⟨_, s₁, app, handled⟩ := of_bind_done handled
  obtain ⟨d, s₂, description, handled⟩ := of_bind_done handled
  cases appfuncs : sc.appfuncs with
  | none =>
      rw [appfuncs] at app
      cases app
  | some funcs =>
  rw [appfuncs] at app
  cases app
  cases described : sc.description with
  | none =>
      rw [described] at description
      cases description
  | some d' =>
  rw [described] at description
  cases description
  cases payload with
  | none => cases handled
  | some data =>
      obtain ⟨taken, s₃, written, ends⟩ := of_bind_done handled
      cases ends
      exact .inr ⟨sc, d, data, taken, rfl, described, rfl, written⟩

/-- Where the bytes of a data packet go, if the packet is handled to its end. -/
theorem packet_goes {message : LmMessage} {result : LmHandlerResult}
    (handled : jingleIbbHandleIq env w message s = .done result s')
    : (ibbTarget s message = none ∧ s'.infoList = s.infoList ∧ s'.disk = s.disk)
      ∨ ∃ d data taken s₁, ibbTarget s message = some d ∧ packetData env message = some data
          ∧ s₁.infoList = s.infoList ∧ s₁.disk = s.disk
          ∧ FileTransfer.handleData w d data s₁ = .done taken s' := by
  unfold jingleIbbHandleIq at handled
  unfold ibbTarget packetData
  split at handled
  · rename_i other
    cases handled
    exact .inl ⟨if_pos other, rfl, rfl⟩
  rename_i isSet
  rw [if_neg isSet]
  cases child : message.node.getChild "data" with
  | none =>
      rw [child] at handled
      cases handled
      exact .inl ⟨rfl, rfl, rfl⟩
  | some dnode =>
  rw [child] at handled
  dsimp only at handled ⊢
  split at handled
  · rename_i foreign
    cases handled
    exact .inl ⟨if_pos foreign, rfl, rfl⟩
  rename_i ours
  rw [if_neg ours, Option.bind_some]
  obtain ⟨sid, _, read, handled⟩ := of_bind_done handled
  cases known : dnode.getAttribute "sid" with
  | none =>
      rw [known] at read
      cases read
  | some sid' =>
  rw [known] at read
  cases read
  rw [Option.bind_some]
  rw [bind_get] at handled
  cases stream : Ibb.lookup s sid with
  | none =>
      rw [stream] at handled
      cases handled
      exact .inl ⟨rfl, rfl, rfl⟩
  | some t =>
  rw [stream] at handled
  obtain ⟨_, s₁, acked, handled⟩ := of_bind_done handled
  obtain ⟨_, s₂, taken, handled⟩ := of_bind_done handled
  cases handled
  rw [Option.bind_some]
  have answered : s₁ = s.replied message (message.newIqFromQuery .result) := by
    cases acked
    rfl
  have infoList : s₁.infoList = s.infoList := by rw [answered]; rfl
  have disk : s₁.disk = s.disk := by rw [answered]; rfl
  have carrier : sessioncontentFindByTransport s₁ t = sessioncontentFindByTransport s t := by
    rw [answered]
    rfl
  rw [← carrier]
  rcases handleTransData_goes taken with ⟨nobody, rfl⟩ | ⟨sc, d, data, ok, found, described,
    payload, written⟩
  · rw [nobody]
    exact .inl ⟨rfl, infoList, disk⟩
  · rw [found]
    exact .inr ⟨d, data, ok, s₁, described, payload, infoList, disk, written⟩

end Packets

end McabberJingle
