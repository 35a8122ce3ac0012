import McabberJingle.Effects.Machine
import McabberJingle.System.Execution

/-! The contents of a listed session are complete and their names distinct, as long as a
content is filled under a name that is free and a file is offered in one session only.
-/

namespace McabberJingle

open Program Program.Prog

-----------------------------------------------------------------------------------------
-- The invariant
-----------------------------------------------------------------------------------------

/-- No pointer of the content is NULL, and all are those made for this very content. -/
structure SessionContent.Formed (sc : SessionContent) : Prop where
  app : ∃ appfuncs d,
    sc.appfuncs = some appfuncs ∧ sc.description = some d ∧ sc.suppliedApp = some (appfuncs, d)
  trans : ∃ transfuncs t,
    sc.transfuncs = some transfuncs ∧ sc.transport = some t
    ∧ sc.suppliedTrans = some (transfuncs, t)

/-- The contents of one session. -/
structure FormedContents (content : List SessionContent) : Prop where
  formed : ∀ sc ∈ content, sc.Formed
  distinct : (content.map SessionContent.name).Nodup

/-- All listed sessions are well-formed. -/
def Formed (s : State) : Prop :=
  ∀ p js, s.sessions.get? p = some js → FormedContents js.content

/-- No session is opened and no content built. -/
def Rights.settled : Rights :=
  { Rights.all with
    build := fun _ => False
    openSession := fun _ _ => False }

/-- Contents that are not being built stay complete. -/
theorem FormedContents.changed {s : State} {p : SessionPtr} {old new : List SessionContent}
    (formed : FormedContents old) (change : ContentChange .settled s p old new)
    : FormedContents new := by
  cases change with
  | changeState name state allowed active =>
      refine ⟨fun sc member => ?_, ?_⟩
      · rcases mem_updateFirst member with there | ⟨sc', there, _, rfl⟩
        · exact formed.formed sc there
        · exact ⟨(formed.formed sc' there).app, (formed.formed sc' there).trans⟩
      · rw [map_updateFirst]
        · exact formed.distinct
        · exact fun _ => rfl
  | remove name allowed drop =>
      have shorter := removeFirst_sublist name old
      exact ⟨fun sc member => formed.formed sc (shorter.subset member),
        (shorter.map _).nodup formed.distinct⟩
  | append name allowed => exact allowed.elim
  | dropLast allowed => exact allowed.elim
  | supplyApp supplied allowed => exact allowed.elim
  | supplyTrans supplied allowed => exact allowed.elim
  | supplyTransFor app supplied allowed => exact allowed.elim
  | fillApp name xmlns appfuncs d allowed => exact allowed.elim
  | fillTrans name xmlns transfuncs t allowed => exact allowed.elim

theorem formed_stable : Stable .settled Formed := by
  intro s s' formed effect p js listed
  rcases listed_effect effect listed with same | ⟨_, _, opened⟩ | ⟨before, there, _, change, _⟩
  · exact formed p js same
  · exact opened.elim
  · exact (formed p before there).changed change

theorem formed_congr {s s' : State} (formed : Formed s) (same : s'.sessions = s.sessions)
    : Formed s' := by
  intro p js listed
  rw [same] at listed
  exact formed p js listed

/-- Rewriting the contents of one session leaves the others well-formed. -/
theorem Formed.withContent {s : State} (formed : Formed s) {p : SessionPtr} {js : JingleSession}
    (listed : s.sessions.get? p = some js) {g : List SessionContent → List SessionContent}
    (rewritten : FormedContents (g js.content))
    : Formed (s.withContent p g) := by
  intro q js' listed'
  by_cases here : q = p
  · subst here
    rw [State.withContent_listed listed] at listed'
    cases listed'
    exact rewritten
  · refine formed q js' ?_
    rwa [State.withContent, Pool.get?_modify_of_ne _ here] at listed'

/-- So does opening a session with complete contents. -/
theorem Formed.opening {s : State} (formed : Formed s) {js : JingleSession}
    (complete : FormedContents js.content)
    : Formed (s.opening js) := by
  intro q js' listed
  rcases Pool.get?_alloc_eq_some.mp listed with ⟨_, rfl⟩ | old
  · exact complete
  · exact formed q js' old

theorem formedContents_nil : FormedContents [] :=
  ⟨fun _ member => by simp at member, List.nodup_nil⟩

-----------------------------------------------------------------------------------------
-- A session made from an invitation
-----------------------------------------------------------------------------------------

section Invitation

variable {env : Env} {w : World} {s : State} {p : SessionPtr} {js : JingleSession}

/-- A content that is complete from the start may be appended under a free name. -/
theorem FormedContents.append {content : List SessionContent} (formed : FormedContents content)
    {sc : SessionContent} (complete : sc.Formed)
    (fresh : sc.name ∉ content.map SessionContent.name)
    : FormedContents (content ++ [sc]) := by
  refine ⟨fun sc' member => ?_, ?_⟩
  · rcases List.mem_append.mp member with old | new
    · exact formed.formed sc' old
    · rw [List.mem_singleton.mp new]
      exact complete
  · rw [List.map_append, List.nodup_append]
    refine ⟨formed.distinct, by simp, ?_⟩
    intro name there name' new same
    subst same
    rw [List.mem_singleton.mp new] at there
    exact fresh there

theorem filledContent_formed (cn : JingleContent) (appfuncs : JingleAppFuncs) (d : FtPtr)
    (transfuncs : JingleTransportFuncs) (t : TransportPtr)
    : (filledContent cn appfuncs d transfuncs t).Formed :=
  ⟨⟨appfuncs, d, rfl, rfl, rfl⟩, ⟨transfuncs, t, rfl, rfl, rfl⟩⟩

/-- While the session `p` is filled in the turn that started in `s₀`. -/
structure Filling (s₀ : State) (p : SessionPtr) (js : JingleSession) (s : State) : Prop where
  modules : SameModules s₀ s
  listed : s.sessions.get? p = some js
  formed : Formed s

/-- A kept content whose name no later content that gets a description repeats. -/
def NameApart (env : Env) (w : World) (s : State) (cn cn' : JingleContent) : Prop :=
  contentKept env w s cn = true → contentDescribed env w s cn' = true → cn.name ≠ cn'.name

/-- One processed content under a free name leaves the session well-formed, with a new name
only if the content is kept.
-/
theorem sessionAddContentFromJinglecontent_formed {s₀ : State} (filling : Filling s₀ p js s)
    {cn : JingleContent} (processed : contentProcessed s₀ cn = true)
    (fresh : contentDescribed env w s₀ cn = true → cn.name ∉ js.content.map SessionContent.name)
    : ∃ error s' js', sessionAddContentFromJinglecontent env w p cn .pending s = .done error s'
        ∧ Filling s₀ p js' s'
        ∧ ∀ name ∈ js'.content.map SessionContent.name,
            name ∈ js.content.map SessionContent.name
            ∨ name = cn.name ∧ contentKept env w s₀ cn = true := by
  have processed' : contentProcessed s cn = true := by rwa [filling.modules.processed]
  simp only [contentProcessed, Bool.and_eq_true, Option.isSome_iff_exists] at processed'
  obtain ⟨⟨appfuncs, knownApp⟩, ⟨transfuncs, known⟩⟩ := processed'
  have free (offered : (FileTransfer.parseOffer env w cn).isOk = true)
      : cn.name ∉ js.content.map SessionContent.name :=
    fresh (by simp [contentDescribed, processed, offered])
  have added := sessionAddContentFromJinglecontent_fresh env w filling.listed knownApp known free
  cases offered : FileTransfer.parseOffer env w cn with
  | error err =>
      rw [offered] at added
      exact ⟨some err, s, js, added, filling, fun _ there => Or.inl there⟩
  | ok jft =>
      rw [offered] at added
      cases parsed : transfuncs.parse env w s cn with
      | error err =>
          rw [parsed] at added
          exact ⟨some err, s.listing jft, js, added,
            ⟨filling.modules, filling.listed, filling.formed⟩,
            fun _ there => Or.inl there⟩
      | ok transport =>
          rw [parsed] at added
          have listed : ((s.listing jft).carrying transport).sessions.get? p = some js := by
            rw [State.carrying_sessions]
            exact filling.listed
          have kept : contentKept env w s₀ cn = true := by
            rw [← filling.modules.kept]
            simp [contentKept, knownApp, known, transfuncs.accepts_iff env w s cn, offered, parsed,
              Except.isOk, Except.toBool]
          have named := free (by rw [offered]; rfl)
          have formed : Formed ((s.listing jft).carrying transport) :=
            formed_congr filling.formed (State.carrying_sessions _ _)
          have old : FormedContents js.content := filling.formed p js filling.listed
          refine ⟨none, _, _, added, ⟨?_, State.withContent_listed listed _, ?_⟩, ?_⟩
          · cases transport <;> exact filling.modules
          · exact formed.withContent listed (old.append (filledContent_formed _ _ _ _ _) named)
          · intro name there
            rw [List.map_append, List.mem_append] at there
            rcases there with old | new
            · exact Or.inl old
            · exact Or.inr ⟨List.mem_singleton.mp new, kept⟩

/-- By induction on the contents of the invitation. -/
theorem addContents_formed {s₀ : State} (err : ErrVar) {contents : List JingleContent}
    (filling : Filling s₀ p js s)
    (fresh : ∀ cn ∈ contents, contentDescribed env w s₀ cn = true →
      cn.name ∉ js.content.map SessionContent.name)
    (apart : contents.Pairwise (NameApart env w s₀))
    : (addContents env w (some p) err contents).wp (fun _ s' => ∃ js', Filling s₀ p js' s')
        (fun _ _ => True) s := by
  induction contents generalizing s js err with
  | nil => exact ⟨js, filling⟩
  | cons cn rest ih =>
      obtain ⟨apartHead, apartRest⟩ := List.pairwise_cons.mp apart
      refine wp_known rfl ?_
      rw [contentProcessed_eq, wp_ite]
      constructor
      · intro _
        exact ih err filling (fun cn' member => fresh cn' (List.mem_cons_of_mem _ member))
          apartRest
      · intro processed
        have processed' : contentProcessed s₀ cn = true := by
          rw [← filling.modules.processed]
          simpa using processed
        refine wp_known rfl ?_
        obtain ⟨error, s', js', added, filling', names⟩ :=
          sessionAddContentFromJinglecontent_formed filling processed'
            (fresh cn List.mem_cons_self)
        refine wp_known added ?_
        refine wp_cut (fun _ s'' => s'' = s') ?_ ?_
        · cases err.propagate error <;> trivial
        · rintro err' _ rfl
          refine ih err' filling' ?_ apartRest
          intro cn' member described there
          rcases names _ there with old | ⟨same, kept⟩
          · exact fresh cn' (List.mem_cons_of_mem _ member) described old
          · exact apartHead cn' member kept described same.symm

theorem fillSession_formed {s₀ : State} {jn : JingleNode} (err : Option GError)
    (filling : Filling s₀ p js s) (empty : js.content = [])
    (apart : jn.content.Pairwise (NameApart env w s₀))
    : (fillSession env w (some p) jn err).wp (fun _ => Formed) (fun error _ => AnyFault error)
        s := by
  refine wp_seq (addContents_formed _ filling (by simp [empty]) apart) ?_
  rintro _ s' ⟨js', filling'⟩
  refine anyFault ?_
  refine keeps_bind (deref_readOnly _ _).keeps (fun p => ?_) s' filling'.formed
  refine keeps_bind (readSession_readOnly p).keeps (fun js => ?_)
  refine keeps_ite ?_ ?_
  · exact terminateAndDelete_keeps formed_stable w _ trivial (fun _ _ _ _ => trivial)
  · exact keeps_bind (showContents_readOnly _).keeps (fun _ => evsNew_keeps formed_stable w trivial)

/-- An invitation whose names stay apart opens a well-formed session. -/
theorem createSession_formed {jn : JingleNode} (err : Option GError) (formed : Formed s)
    (apart : jn.content.Pairwise (NameApart env w s))
    : (createSession env w jn err).wp (fun _ => Formed) (fun error _ => AnyFault error) s := by
  refine wp_cut (fun _ s' => s'.sessions = s.sessions ∧ SameModules s s') ⟨rfl, rfl, rfl⟩ ?_
  rintro _ s₁ ⟨sameSessions, modules⟩
  have formed₁ : Formed s₁ := formed_congr formed sameSessions
  unfold sessionNewFromJinglenode
  split
  · rename_i fromJid toJid _ _
    let js := jn.invited fromJid toJid
    refine wp_cut (fun sess s' => ∃ p, sess = some p ∧ Filling s p js s') ?_ ?_
    · exact ⟨s₁.sessions.next, rfl, modules, Pool.get?_alloc_self _ _,
        formed₁.opening formedContents_nil⟩
    · rintro _ s' ⟨p, rfl, filling⟩
      exact fillSession_formed err filling rfl apart
  · have bind (cn : JingleContent)
        : MayBind .settled (fun s' => Formed s' ∧ SameModules s s') env w cn :=
      fun _ _ _ _ _ _ _ => ⟨trivial, trivial, fun _ _ => trivial⟩
    have filled : Keeps (fun s' => Formed s' ∧ SameModules s s') NotAckHandle
        (fillSession env w none jn err) :=
      fillSession_none (formed_stable.sameModules s) env w err (fun _ h => h.2) trivial
        (fun cn _ _ => bind cn)
    exact anyFault (wp_post (filled s₁ ⟨formed₁, modules⟩) (fun _ _ h => h.1))

end Invitation

-----------------------------------------------------------------------------------------
-- A session made for an offer
-----------------------------------------------------------------------------------------

section Offer

variable {env : Env} {w : World} {s : State}

/-- The transfer is the description of no listed content. -/
def Undescribed (s : State) (d : FtPtr) : Prop :=
  ∀ cell ∈ s.sessions.cells, ∀ sc ∈ cell.2.content, sc.description ≠ some d

instance (s : State) (d : FtPtr) : Decidable (Undescribed s d) := by
  unfold Undescribed
  infer_instance

theorem jftSendTransfer_formed {d : FtPtr} (formed : Formed s)
    (transport : (offerTransport s).isSome = true)
    (elsewhere : (offerRecipient w).isSome = true → Undescribed s d)
    : (jftSendTransfer env w d).wp (fun _ => Formed) (fun error _ => AnyFault error) s := by
  cases recipient : offerRecipient w with
  | none =>
      have failed : Keeps Formed NotAckHandle
          (modifyFt d (fun ft => { ft with state := .error })) :=
        modifyFt_keeps formed_stable trivial (.kept (fun _ => ⟨rfl, rfl⟩))
      unfold jftSendTransfer
      cases jid : w.currentJid with
      | none => exact anyFault (failed s formed)
      | some currentJid =>
          cases resource : w.compatibleRes with
          | none => exact anyFault (failed s formed)
          | some ressource => simp [offerRecipient, jid, resource] at recipient
  | some recipientjid =>
      obtain ⟨transfuncs, offered⟩ := Option.isSome_iff_exists.mp transport
      obtain ⟨appfuncs, xmlns, knownApp, chosen, known⟩ := offerTransport_known offered
      have undescribed := elsewhere (by rw [recipient]; rfl)
      rw [wp, jftSendTransfer_eq env recipient knownApp chosen known undescribed]
      refine anyFault (jingleSendSessionInitiate_keeps formed_stable env w trivial
        (fun _ => trivial) _ ?_)
      refine (formed_congr formed rfl).opening ⟨fun sc member => ?_, List.nodup_singleton _⟩
      rw [List.mem_singleton.mp member]
      exact ⟨⟨appfuncs, d, rfl, rfl, rfl⟩, ⟨transfuncs, _, rfl, rfl, rfl⟩⟩

/-- A transfer just made is in no session yet. -/
theorem jftSend_formed (arg : Option String) (formed : Formed s) (layout : Layout s)
    (transport : (offerTransport s).isSome = true)
    : (jftSend env w arg).wp (fun _ => Formed) (fun error _ => AnyFault error) s := by
  cases arg with
  | none => exact formed
  | some name =>
      have made := FileTransfer.new_keeps ((storage_sessions s.sessions).sameModules s) env w name
        (fun _ _ => trivial) trivial ⟨rfl, rfl, rfl⟩
      refine wp_seq (anyFault made) ?_
      rintro (_ | d) s' ⟨⟨sameSessions, modules⟩, known⟩
      · exact formed_congr formed sameSessions
      · obtain ⟨rfl, _⟩ := known d rfl
        refine jftSendTransfer_formed (formed_congr formed sameSessions) ?_ ?_
        · rwa [modules.offerTransport]
        · intro _ cell member sc there described
          rw [sameSessions] at member
          have listed : s.sessions.get? cell.1 = some cell.2 := Pool.get?_eq_some_iff.mpr member
          have older := layout.described cell.1 _ ⟨cell.2, listed, sc, there, described⟩
          exact Nat.lt_irrefl _ older

theorem jftRetry_formed (arg : Option String) (formed : Formed s)
    (transport : (offerTransport s).isSome = true)
    (elsewhere : arg.isSome = true → (offerRecipient w).isSome = true →
      ∀ cell ∈ s.infoList.cells.head?, Undescribed s cell.1)
    : (jftRetry env w arg).wp (fun _ => Formed) (fun error _ => AnyFault error) s := by
  refine wp_known rfl ?_
  split
  · rename_i d ft rest listed
    refine wp_cut (fun _ s' => s'.sessions = s.sessions ∧ SameModules s s') ⟨rfl, rfl, rfl⟩ ?_
    rintro _ s' ⟨sameSessions, modules⟩
    refine jftSendTransfer_formed (formed_congr formed sameSessions) ?_ ?_
    · rwa [modules.offerTransport]
    · intro recipient
      have undescribed := elsewhere rfl recipient (d, ft) (by rw [listed]; rfl)
      simpa only [Undescribed, sameSessions] using undescribed
  · exact formed

end Offer

-----------------------------------------------------------------------------------------
-- Runs
-----------------------------------------------------------------------------------------

/-- The transfer that `/jft retry` offers again. -/
def Input.retried (s : State) : Input → Option FtPtr
  | .jftRetry (some _) => s.infoList.cells.head?.map Prod.fst
  | _ => none

/-- No content of an invitation that opens a session gets a description under the name of a
content kept before it; files are offered while their modules are loaded, and a transfer is
offered again only when it is in no session.
-/
def WellBuilt (env : Env) (s : State) (input : StepInput) : Prop :=
  (∀ jn ∈ input.2.invitation env input.1 s,
    (checkContents jn).jn.content.Pairwise (NameApart env input.1 s))
  ∧ (input.2.offers = true → (offerTransport s).isSome = true)
  ∧ ((offerRecipient input.1).isSome = true → ∀ d ∈ input.2.retried s, Undescribed s d)

instance (env : Env) (w : World) (s : State) : DecidableRel (NameApart env w s) := by
  intro cn cn'
  unfold NameApart
  infer_instance

instance (env : Env) (s : State) (input : StepInput) : Decidable (WellBuilt env s input) := by
  unfold WellBuilt
  infer_instance

section Turn

variable {env : Env} {w : World} {s : State}

theorem settled_maySend {inv : State → Prop} : MaySend .settled inv := by
  constructor <;> intros <;> trivial

/-- A request that opens no session stays within these rights. -/
theorem settled_mayServe {inv : State → Prop} {jn : JingleNode}
    (known : jn.action = .sessionInitiate → acceptable env w jn = true →
      sessionFind s jn ≠ none)
    : MayServe .settled inv env w s jn where
  initiate action passes absent := absurd absent (known action passes)
  info _ _ _ _ _ _ _ _ _ := trivial
  accept _ _ _ _ _ _ := ⟨trivial, trivial, fun _ _ _ => trivial, fun _ _ _ _ _ _ _ _ => trivial⟩
  terminate _ _ _ _ :=
    ⟨trivial, fun _ => trivial, trivial, .free (fun _ => trivial) (fun _ => trivial)⟩

/-- So does every input that opens no session and offers no file. -/
theorem settled_mayHandle {inv : State → Prop} {input : Input}
    (opens : input.invitation env w s = none) (offers : input.offers = false)
    : MayHandle .settled inv env w s input := by
  cases input with
  | jingleIq message =>
      refine fun jn valid => settled_mayServe (fun action passes absent => ?_)
      simp [Input.invitation, Input.request, valid, action, passes, absent] at opens
  | ibbIq message => exact fun _ _ => ⟨trivial, fun _ => trivial⟩
  | reply ah message => exact ⟨settled_maySend, trivial, trivial⟩
  | tick => exact ⟨settled_maySend, fun _ => trivial, fun _ => trivial⟩
  | wait seconds => trivial
  | event id context =>
      exact fun _ _ => ⟨fun _ => ⟨trivial, trivial⟩, fun _ _ _ => ⟨trivial, trivial⟩⟩
  | transportInitialize correct sc => exact settled_maySend
  | jftSend arg => cases offers
  | jftRetry arg => cases offers
  | jftFlush => exact fun _ => trivial

theorem jingleHandleIq_formed {message : LmMessage} (formed : Formed s) (layout : Layout s)
    (built : WellBuilt env s (w, .jingleIq message))
    : (jingleHandleIq env w message).wp (fun _ => Formed) (fun error _ => AnyFault error) s := by
  cases opens : (Input.jingleIq message).invitation env w s with
  | some jn =>
    have apart : (checkContents jn).jn.content.Pairwise (NameApart env w s) := built.1 jn opens
    obtain ⟨valid, both⟩ := Option.filter_eq_some_iff.mp opens
    simp only [Bool.and_eq_true, beq_iff_eq, Option.isNone_iff_eq_none] at both
    obtain ⟨⟨action, passes⟩, absent⟩ := both
    have handled : actionHandler env w jn.action = some (handleSessionInitiate env w) := by
      rw [action]
      rfl
    rw [wp, jingleHandleIq_request valid handled]
    refine wp_cut (fun _ => Formed) ?_ ?_
    · rw [wp, handleSessionInitiate_new passes absent]
      exact wp_seq (createSession_formed _ formed apart) (fun _ _ formed' => formed')
    · intro jn' s' formed'
      have freed : Keeps Formed NotAckHandle
          (do jingleFreeJinglenode jn'; pure .removeMessage : Run LmHandlerResult) :=
        keeps_bind (jingleFreeJinglenode_readOnly jn').keeps (fun _ => keeps_pure _)
      exact anyFault (freed s' formed')
  | none =>
    have may : MayHandle .settled (fun s => Formed s ∧ Layout s) env w s (.jingleIq message) :=
      settled_mayHandle opens rfl
    have kept := jingleHandleIq_keeps formed_stable.layout env w ⟨formed, layout⟩ may
    exact anyFault (wp_post kept (fun _ _ holds => holds.1))

theorem formed_step {input : Input} {s' : State} (formed : Formed s) (layout : Layout s)
    (built : WellBuilt env s (w, input)) (step : Step env s (w, input) s')
    : Formed s' := by
  have settled (may : MayHandle .settled (fun s => Formed s ∧ Layout s) env w s input)
      : Formed s' :=
    (step.keeps formed_stable.layout ⟨formed, layout⟩ may).1
  cases input with
  | jingleIq message =>
      have turned : (handleInput env w (.jingleIq message)).wp (fun _ => Formed)
          (fun error _ => AnyFault error) s :=
        wp_seq (jingleHandleIq_formed formed layout built) (fun _ _ formed' => formed')
      exact wp_done turned step.2
  | jftSend arg =>
      have transport := built.2.1 rfl
      exact wp_done (m := jftSend env w arg) (jftSend_formed arg formed layout transport) step.2
  | jftRetry arg =>
      refine wp_done (m := jftRetry env w arg)
        (jftRetry_formed arg formed (built.2.1 rfl) ?_) step.2
      intro given recipient cell first
      obtain ⟨name, rfl⟩ := Option.isSome_iff_exists.mp given
      exact built.2.2 recipient cell.1 (Option.map_eq_some_iff.mpr ⟨cell, first, rfl⟩)
  | _ => exact settled (settled_mayHandle rfl rfl)

end Turn

/-- In every run of such steps each content of each listed session has the tables and objects
made for it, and names are distinct within a session.
-/
theorem contents_well_formed (env : Env) (s : State) (run : ReachableBy env (WellBuilt env) s)
    : ∀ p js, s.sessions.get? p = some js →
        (∀ sc ∈ js.content, sc.Formed) ∧ (js.content.map SessionContent.name).Nodup := by
  have formed : Formed s := by
    induction run with
    | start initial =>
        intro p js listed
        rw [initial.sessions] at listed
        cases listed
    | step run ok next ih => exact formed_step ih (layout_reached run) ok next
  exact fun p js listed => ⟨(formed p js listed).formed, (formed p js listed).distinct⟩

/-- Two files offered to us in one session, and one offered by us. -/
def distinctContents : List StepInput := [
  (plainWorld, .jingleIq (jingleSet "romeo@verona/a" "session-initiate" "s1"
    [offeredContent "one" "b1", offeredContent "two" "b2"])),
  (offeringWorld [], .jftSend (some "notes"))
]

theorem contents_well_formed_distinctContents
    : ∃ s js, ReachableBy plainEnv (WellBuilt plainEnv) s
        ∧ s.sessions.get? 0 = some js ∧ js.content.length = 2
        ∧ (∀ sc ∈ js.content, sc.Formed) ∧ (js.content.map SessionContent.name).Nodup := by
  have passed : (execute plainEnv (WellBuilt plainEnv) loaded distinctContents).any
      (fun s => (s.sessions.get? 0).any (fun js => js.content.length == 2)) = true := by
    decide +kernel
  obtain ⟨s, run, filled⟩ := execute_any _ (loaded_reached plainEnv _) passed
  obtain ⟨js, listed, two⟩ := (Option.any_eq_true _ _).mp filled
  exact ⟨s, js, run, listed, eq_of_beq two, contents_well_formed plainEnv s run 0 js listed⟩

/-- A content with a good description, but without the attributes of its transport. -/
def transportless (name : String) : LmMessageNode :=
  element "content" [("name", name), ("creator", "initiator")]
    [element "description" [("xmlns", NS_JINGLE_APP_FT)]
      [element "offer" [] [element "file"
        [("xmlns", NS_SI_FT), ("name", "other"), ("size", "9")] []]],
     element "transport" [("xmlns", NS_JINGLE_TRANSPORT_IBB)] []]

/-- An invitation whose second content repeats the first one's name and is then dropped. -/
def repeatedName : List StepInput := [
  (plainWorld, .jingleIq (jingleSet "romeo@verona/a" "session-initiate" "s1"
    [offeredContent "file" "b1", transportless "file"]))
]

/-- The description that stays is that of the content that was dropped. -/
theorem repeated_name_takes_description
    : ¬∀ env s, Reachable env s → ∀ p js, s.sessions.get? p = some js →
        (∀ sc ∈ js.content, sc.Formed) ∧ (js.content.map SessionContent.name).Nodup := by
  intro claimed
  have passed : (execute plainEnv (fun _ _ => True) loaded repeatedName).any
      (fun s => (s.sessions.get? 0).any (fun js => js.content.any (fun sc =>
        sc.description != sc.suppliedApp.map Prod.snd))) = true := by decide +kernel
  obtain ⟨s, run, overwritten⟩ := execute_any _ (loaded_reached plainEnv _) passed
  obtain ⟨js, listed, overwritten⟩ := (Option.any_eq_true _ _).mp overwritten
  obtain ⟨sc, member, different⟩ := List.any_eq_true.mp overwritten
  obtain ⟨appfuncs, d, _, described, supplied⟩ :=
    ((claimed plainEnv s run 0 js listed).1 sc member).app
  simp [described, supplied] at different

end McabberJingle
