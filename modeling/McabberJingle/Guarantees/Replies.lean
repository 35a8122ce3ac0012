import McabberJingle.Effects.Machine
import McabberJingle.Jingle.Accepting
import McabberJingle.Jingle.Opening
import McabberJingle.System.Execution

/-! Every Jingle IQ-set gets exactly one answer, as long as the stanza and the session it is
about are complete. The condition lists, action by action, what the handlers dereference
without a check.
-/

namespace McabberJingle

open Program Program.Prog

variable {env : Env} {w : World} {s : State}

-----------------------------------------------------------------------------------------
-- Answers
-----------------------------------------------------------------------------------------

/-- One result or error was sent to the IQ, and no freed memory was read. -/
structure Answered (message : LmMessage) (s s' : State) : Prop where
  once : ∃ answer, (answer.subType = .result ∨ answer.subType = .error)
    ∧ s'.replies = s.replies ++ [(message, answer)]
  clean : s'.staleReads = s.staleReads

/-- The handler comes to its end with one answer to the IQ and a node that can be freed. -/
def Handled (handler : Run JingleNode) (message : LmMessage) (s : State) : Prop :=
  ∃ jn s', handler s = .done jn s' ∧ jn.contentFreed = false ∧ Answered message s s'

theorem answered_replied (message answer : LmMessage)
    (kind : answer.subType = .result ∨ answer.subType = .error)
    : Answered message s (s.replied message answer) :=
  ⟨⟨answer, kind, State.replies_replied s message answer⟩, rfl⟩

/-- What happens after the answer does not matter if it sends none. -/
theorem Answered.later {message : LmMessage} {s₁ s₂ : State} (answered : Answered message s s₁)
    (replies : s₂.replies = s₁.replies) (reads : s₂.staleReads = s₁.staleReads)
    : Answered message s s₂ := by
  obtain ⟨answer, kind, once⟩ := answered.once
  exact ⟨⟨answer, kind, replies.trans once⟩, reads.trans answered.clean⟩

/-- An error reply at the end of a handler. -/
theorem handled_error_iff (message : LmMessage) (jn : JingleNode) (errtype cond : String)
    (jinglecond : Option String)
    : Handled (do jingleSendIqError message errtype cond jinglecond; pure jn) message s
      ↔ jn.contentFreed = false := by
  have runs : (do jingleSendIqError message errtype cond jinglecond; pure jn : Run JingleNode) s
      = .done jn (s.replied message (jingleNewIqError message errtype cond jinglecond)) := rfl
  constructor
  · intro served
    obtain ⟨jn', s', done, unfreed, _⟩ := served
    cases runs.symm.trans done
    exact unfreed
  · intro unfreed
    refine ⟨jn, _, runs, unfreed, answered_replied message _ (Or.inr ?_)⟩
    cases jinglecond <;> rfl

/-- A result at the end of a handler. -/
theorem handled_ack_iff (message : LmMessage) (jn : JingleNode)
    : Handled (do jingleAckIq message; pure jn) message s ↔ jn.contentFreed = false := by
  have runs : (do jingleAckIq message; pure jn : Run JingleNode) s
      = .done jn (s.replied message (message.newIqFromQuery .result)) := rfl
  constructor
  · intro served
    obtain ⟨jn', s', done, unfreed, _⟩ := served
    cases runs.symm.trans done
    exact unfreed
  · intro unfreed
    exact ⟨jn, _, runs, unfreed, answered_replied message _ (Or.inl rfl)⟩

theorem not_handled_of_fault {handler : Run JingleNode} {message : LmMessage} {error : Fault}
    {s' : State} (fault : handler s = .fault error s')
    : ¬Handled handler message s := by
  intro served
  obtain ⟨jn, s'', done, _⟩ := served
  cases fault.symm.trans done

-----------------------------------------------------------------------------------------
-- session-info
-----------------------------------------------------------------------------------------

/-- The contents whose application is asked: one that takes the child returns 0, and the
loop goes on.
-/
def consulted (child : LmMessageNode) (content : List SessionContent) : List SessionContent :=
  if takesHash child then content else content.take 1

/-- What asking the application of a content needs; a hash is stored in the transfer, so that must
not be freed.
-/
def Askable (s : State) (child : LmMessageNode) (sc : SessionContent) : Prop :=
  sc.appfuncs.isSome = true
  ∧ ∃ d ∈ sc.description, takesHash child = true → (s.infoList.get? d).isSome = true

instance (s : State) (child : LmMessageNode) (sc : SessionContent)
    : Decidable (Askable s child sc) := by
  unfold Askable
  infer_instance

/-- Storing a hash frees nothing. -/
theorem askable_modify {child : LmMessageNode} {sc : SessionContent} {d : FtPtr}
    {f : JingleFT → JingleFT}
    : Askable { s with infoList := s.infoList.modify d f } child sc ↔ Askable s child sc := by
  have same (d' : FtPtr) : ((s.infoList.modify d f).get? d').isSome = true
      ↔ (s.infoList.get? d').isSome = true :=
    Pool.live_modify_iff
  simp only [Askable, same]

theorem handle_sessionInfo {d : FtPtr} (child : LmMessageNode)
    (live : takesHash child = true → (s.infoList.get? d).isSome = true)
    : FileTransfer.handle .sessionInfo d child s
      = if takesHash child then
          .done .handled { s with
            infoList := s.infoList.modify d (fun jft => { jft with hash := child.value }) }
        else .done .notHandled s := by
  by_cases takes : takesHash child = true
  · obtain ⟨ft, found⟩ := Option.isSome_iff_exists.mp (live takes)
    have both := takes
    simp only [takesHash, Bool.and_eq_true, beq_iff_eq] at both
    rw [FileTransfer.handle, if_pos ⟨rfl, both.1, both.2⟩, bind_done (readFt_done found),
      if_pos takes]
    rfl
  · have neither := takes
    simp only [takesHash, Bool.and_eq_true, beq_iff_eq] at neither
    rw [FileTransfer.handle, if_neg (fun both => neither both.2), if_neg takes]
    rfl

/-- A hash for a transfer that was freed. -/
theorem handle_freed {d : FtPtr} {child : LmMessageNode} (takes : takesHash child = true)
    (gone : s.infoList.get? d = none)
    : FileTransfer.handle .sessionInfo d child s = .fault (.useAfterFree .description) s := by
  simp only [takesHash, Bool.and_eq_true, beq_iff_eq] at takes
  rw [FileTransfer.handle, if_pos ⟨rfl, takes.1, takes.2⟩, bind_fault]
  rw [readFt, bind_get, gone]
  rfl

/-- By induction on the contents: all that are consulted must have their pointers. -/
theorem offerInfo_runs (child : LmMessageNode) (content : List SessionContent)
    : ((∀ sc ∈ consulted child content, Askable s child sc) →
        ∃ taken s', offerInfo child content s = .done taken s'
          ∧ s'.sent = s.sent ∧ s'.staleReads = s.staleReads)
      ∧ (∀ taken s', offerInfo child content s = .done taken s' →
        ∀ sc ∈ consulted child content, Askable s child sc) := by
  induction content generalizing s with
  | nil =>
      refine ⟨fun _ => ⟨false, s, rfl, rfl, rfl⟩, fun _ _ _ sc member => ?_⟩
      unfold consulted at member
      split at member <;> cases member
  | cons sc rest ih =>
      have head : sc ∈ consulted child (sc :: rest) := by
        unfold consulted
        split <;> simp
      rw [offerInfo]
      cases app : sc.appfuncs with
      | none =>
          refine ⟨fun all => ?_, fun taken s' runs => by cases (bind_fault rfl).symm.trans runs⟩
          have some := (all sc head).1
          rw [app] at some
          cases some
      | some appfuncs =>
      rw [bind_done (deref_done rfl)]
      cases description : sc.description with
      | none =>
          refine ⟨fun all => ?_, fun taken s' runs => by cases (bind_fault rfl).symm.trans runs⟩
          obtain ⟨_, described, _⟩ := (all sc head).2
          rw [description] at described
          cases described
      | some d =>
      rw [bind_done (deref_done rfl)]
      by_cases here : takesHash child = true → (s.infoList.get? d).isSome = true
      case neg =>
        simp only [Classical.not_imp, Bool.not_eq_true, Option.isSome_eq_false_iff,
          Option.isNone_iff_eq_none] at here
        refine ⟨fun all => ?_, fun taken s' runs => ?_⟩
        · obtain ⟨_, described, live⟩ := (all sc head).2
          cases description.symm.trans described
          have live := live here.1
          rw [here.2] at live
          cases live
        · rw [bind_fault (handle_freed here.1 here.2)] at runs
          cases runs
      have askable : Askable s child sc := ⟨by rw [app]; rfl, d, description, here⟩
      have handle := handle_sessionInfo child here
      by_cases takes : takesHash child = true
      · rw [if_pos takes] at handle
        rw [bind_done handle, if_neg (by decide)]
        let s₁ : State :=
          { s with infoList := s.infoList.modify d (fun jft => { jft with hash := child.value }) }
        have again := ih (s := s₁)
        simp only [consulted, takes, if_true] at again ⊢
        refine ⟨fun all => again.1 (fun sc' member =>
            askable_modify.mpr (all sc' (List.mem_cons_of_mem _ member))),
          fun taken s' runs sc' member => ?_⟩
        rcases List.mem_cons.mp member with rfl | later
        · exact askable
        · exact askable_modify.mp (again.2 taken s' runs sc' later)
      · rw [if_neg takes] at handle
        rw [bind_done handle, if_pos (by decide)]
        refine ⟨fun _ => ⟨true, s, rfl, rfl, rfl⟩, fun taken s' _ sc' member => ?_⟩
        simp only [consulted, takes, if_false, List.take_succ_cons, List.take_zero,
          List.mem_singleton, Bool.false_eq_true] at member
        rw [member]
        exact askable

/-- What serving a session-info needs of the session it is about. -/
def InfoServed (s : State) (jn : JingleNode) (js : JingleSession) : Prop :=
  ∀ child ∈ jn.node.children.head?, ∀ sc ∈ consulted child js.content, Askable s child sc

/-- A first part that finishes without an answer leaves the question to the rest. -/
theorem handled_bind_iff {α : Type} {m : Run α} {next : α → Run JingleNode} {message : LmMessage}
    {value : α} {s₁ : State} (first : m s = .done value s₁) (replies : s₁.replies = s.replies)
    (reads : s₁.staleReads = s.staleReads)
    : Handled (m >>= next) message s ↔ Handled (next value) message s₁ := by
  unfold Handled
  rw [bind_done first]
  have same (s' : State) : Answered message s s' ↔ Answered message s₁ s' := by
    constructor
    · intro answered
      obtain ⟨⟨answer, kind, once⟩, clean⟩ := answered
      exact ⟨⟨answer, kind, by rw [once, replies]⟩, clean.trans reads.symm⟩
    · intro answered
      obtain ⟨⟨answer, kind, once⟩, clean⟩ := answered
      exact ⟨⟨answer, kind, by rw [once, replies]⟩, clean.trans reads⟩
  simp only [same]

theorem replies_congr {s' : State} (same : s'.sent = s.sent) : s'.replies = s.replies := by
  simp only [State.replies, same]

theorem handleSessionInfo_handled {jn : JingleNode} (unfreed : jn.contentFreed = false)
    : Handled (handleSessionInfo jn) jn.message s
      ↔ ∀ cell ∈ sessionFind s jn, InfoServed s jn cell.2 := by
  have reads : (Prog.get : Run State) s = .done s s := rfl
  rw [handleSessionInfo, handled_bind_iff reads rfl rfl]
  cases found : sessionFind s jn with
  | none =>
      rw [handled_error_iff]
      exact ⟨fun _ => by simp, fun _ => unfreed⟩
  | some cell =>
      obtain ⟨p, js⟩ := cell
      simp only [Option.mem_some_iff, forall_eq', InfoServed]
      cases children : jn.node.children with
      | nil =>
          rw [handled_ack_iff]
          exact ⟨fun _ => by simp, fun _ => unfreed⟩
      | cons child rest =>
          obtain ⟨goes, back⟩ := offerInfo_runs (s := s) child js.content
          simp only [List.head?_cons, Option.mem_some_iff, forall_eq']
          constructor
          · intro served
            obtain ⟨jn', s', runs, _⟩ := served
            cases offer : offerInfo child js.content s with
            | done taken s₁ => exact back taken s₁ offer
            | fault error s₁ => cases (bind_fault offer).symm.trans runs
          · intro served
            obtain ⟨taken, s₁, offer, sent, clean⟩ := goes served
            rw [handled_bind_iff offer (replies_congr sent) clean]
            cases taken with
            | true => exact (handled_ack_iff jn.message jn).mpr unfreed
            | false => exact (handled_error_iff jn.message jn _ _ _).mpr unfreed

-----------------------------------------------------------------------------------------
-- session-accept
-----------------------------------------------------------------------------------------

theorem checkContents_message (jn : JingleNode) : (checkContents jn).jn.message = jn.message :=
  (checkContentsLoop_node jn none jn.node.children).1

/-- A session-accept about a listed session is served when its node can be freed and, unless
it is answered with an error, each content can take its part.
-/
theorem handleSessionAccept_handled {env : Env} {jn : JingleNode} (empty : jn.content = [])
    (unfreed : jn.contentFreed = false)
    : Handled (handleSessionAccept env jn) jn.message s
      ↔ ∀ cell ∈ sessionFind s jn, CheckedWhole jn
          ∧ ((checkContents jn).ok = true →
            AcceptServed s cell.2 (checkContents jn).jn.content) := by
  have reads : (Prog.get : Run State) s = .done s s := rfl
  obtain ⟨_, kept, failed⟩ := checkContentsLoop_ends jn none jn.node.children
  rw [← checkContents_unfreed_iff empty unfreed, handleSessionAccept,
    handled_bind_iff reads rfl rfl]
  have same : sessionFindBySid s jn.sid jn.message.getFrom = sessionFind s jn := rfl
  rw [same]
  cases found : sessionFind s jn with
  | none =>
      rw [handled_error_iff]
      exact ⟨fun _ => by simp, fun _ => unfreed⟩
  | some cell =>
  obtain ⟨p, js⟩ := cell
  have listed : s.sessions.get? p = some js := sessionFindBySid_listed found
  simp only [Option.mem_some_iff, forall_eq']
  cases ok : (checkContents jn).ok with
  | false =>
      have set : (checkContents jn).err.isSome = true := (failed ok).1
      obtain ⟨error, known⟩ := Option.isSome_iff_exists.mp set
      rw [if_pos rfl, handled_bind_iff (deref_done known) rfl rfl, handled_error_iff]
      simp
  | true =>
      have notFreed : (checkContents jn).jn.contentFreed = false := (kept ok).trans unfreed
      rw [if_neg (by decide)]
      let answered := s.replied jn.message (jn.message.newIqFromQuery .result)
      obtain ⟨goes, back⟩ := acceptContents_runs (s := answered) env listed
        (checkContents jn).jn.content
      have acked : jingleAckIq jn.message s = .done () answered := rfl
      constructor
      · intro served
        obtain ⟨jn', s', runs, _⟩ := served
        rw [bind_done acked] at runs
        cases contents : acceptContents env p (checkContents jn).jn.content answered with
        | done value s₁ => exact ⟨notFreed, fun _ => back s₁ contents⟩
        | fault error s₁ => cases (bind_fault contents).symm.trans runs
      · intro needs
        obtain ⟨_, served⟩ := needs
        obtain ⟨s', runs, accepted⟩ := goes (served rfl)
        refine ⟨(checkContents jn).jn, s', ?_, notFreed, ?_⟩
        · rw [bind_done acked, bind_done runs]
          rfl
        · exact (answered_replied jn.message _ (Or.inl rfl)).later (replies_congr accepted.sent)
            accepted.staleReads

-----------------------------------------------------------------------------------------
-- session-terminate
-----------------------------------------------------------------------------------------

theorem readsFrom_stable (n : Nat) : Stable .all (fun s => n ≤ s.staleReads) := by
  intro s s' enough effect
  cases effect with
  | staleRead => exact Nat.le_succ_of_le enough
  | _ => exact enough

/-- Unlinking a content is followed by a read of the freed link. -/
theorem terminateContents_readsFreed (env : Env) (w : World) (p : SessionPtr)
    (sender : Option String) (sc : SessionContent) (rest : List SessionContent)
    : (terminateContents env w p sender (sc :: rest)).wp
        (fun _ s' => s.staleReads < s'.staleReads) (fun _ _ => True) s := by
  have tolerant {α : Type} {m : Run α} {post : α → State → Prop} {s : State}
      (h : m.wp post (fun error _ => NotAckHandle error) s)
      : m.wp post (fun _ _ => True) s :=
    wp_mono h (fun _ _ done => done) (fun _ _ _ => trivial)
  have stable := readsFrom_stable s.staleReads
  have reading {α : Type} {m : Run α} (readOnly : ReadOnly NotAckHandle m) (s₁ : State)
      (enough : s.staleReads ≤ s₁.staleReads)
      : m.wp (fun _ s' => s.staleReads ≤ s'.staleReads) (fun _ _ => True) s₁ :=
    tolerant (readOnly.keeps s₁ enough)
  have unlink (s₁ : State) (enough : s.staleReads ≤ s₁.staleReads)
      : (do
          let _ ← sessionRemoveSessioncontent p sc.name
          if ← readFreedLink w then
            terminateContents env w p sender rest : Run Unit).wp
          (fun _ s' => s.staleReads < s'.staleReads) (fun _ _ => True) s₁ := by
    refine wp_seq (tolerant (sessionRemoveSessioncontent_keeps stable _ trivial trivial s₁ enough))
      ?_
    intro _ s₂ enough₂
    refine wp_cut (fun _ s₃ => s.staleReads < s₃.staleReads) ?_ ?_
    · unfold readFreedLink
      cases w.freedLink with
      | traps => exact trivial
      | null => exact Nat.lt_succ_of_le enough₂
      | intact => exact Nat.lt_succ_of_le enough₂
    · intro link s₃ more
      cases link with
      | false => exact more
      | true =>
          exact tolerant (terminateContents_keeps (readsFrom_stable (s.staleReads + 1)) env w sender
            rest trivial (fun _ => trivial) (.free (fun _ => trivial) (fun _ => trivial)) s₃ more)
  rw [terminateContents]
  refine wp_seq (reading (readSession_readOnly p) s (Nat.le_refl _)) ?_
  intro js s₁ enough
  rw [wp_ite]
  refine ⟨fun _ => ?_, fun _ => unlink s₁ enough⟩
  refine wp_seq (reading (deref_readOnly _ _) s₁ enough) ?_
  intro _ s₂ enough
  refine wp_seq (reading (deref_readOnly _ _) s₂ enough) ?_
  intro d s₃ enough
  refine wp_seq (tolerant (FileTransfer.stop_keeps stable env w
    ⟨trivial, fun _ _ _ => trivial⟩ s₃ enough)) ?_
  exact fun _ s₄ enough => unlink s₄ enough

/-- Ending a session that has contents reads a freed link, or stops. -/
theorem handleSessionTerminate_readsFreed (env : Env) (w : World) {jn : JingleNode}
    {p : SessionPtr} {js : JingleSession} (found : sessionFind s jn = some (p, js))
    (filled : js.content ≠ [])
    : (handleSessionTerminate env w jn).wp (fun _ s' => s.staleReads < s'.staleReads)
        (fun _ _ => True) s := by
  obtain ⟨sc, rest, content⟩ := List.exists_cons_of_ne_nil filled
  -- what follows the loop never lowers the count of freed reads
  have stable := readsFrom_stable (s.staleReads + 1)
  rw [handleSessionTerminate, wp_bind, wp_get, found]
  dsimp only
  rw [content]
  refine wp_seq (terminateContents_readsFreed env w p _ sc rest) ?_
  intro _ s₁ enough
  refine wp_seq (wp_mono (sessionDelete_gone stable w trivial enough)
    (fun _ _ done => done.1) (fun _ _ _ => trivial)) ?_
  exact fun _ s₂ enough => enough

/-- The state after a session without contents was ended by its peer. -/
def State.endedByPeer (s : State) (message : LmMessage) (p : SessionPtr) : State :=
  { s.replied message (message.newIqFromQuery .result) with
    sessions := s.sessions.erase p
    closedByPeer := s.closedByPeer ++ [p] }

/-- Ending a session that has no contents deletes and acknowledges. -/
theorem handleSessionTerminate_empty (env : Env) (w : World) {jn : JingleNode} {p : SessionPtr}
    {js : JingleSession} (found : sessionFind s jn = some (p, js)) (empty : js.content = [])
    : handleSessionTerminate env w jn s = .done jn (s.endedByPeer jn.message p) := by
  have listed : s.sessions.get? p = some js := sessionFindBySid_listed found
  have deleted : sessionDelete w p s = .done () { s with sessions := s.sessions.erase p } := by
    rw [sessionDelete, bind_done (readSession_done listed), empty]
    rfl
  have nothing : terminateContents env w p jn.message.getFrom [] s = .done () s := rfl
  rw [handleSessionTerminate, bind_get, found]
  dsimp only
  rw [empty, bind_done nothing, bind_done deleted]
  rfl

/-- A session-terminate is served cleanly when the session has nothing left to unlink. -/
theorem handleSessionTerminate_handled {env : Env} {w : World} {jn : JingleNode}
    (unfreed : jn.contentFreed = false)
    : Handled (handleSessionTerminate env w jn) jn.message s
      ↔ ∀ cell ∈ sessionFind s jn, cell.2.content = [] := by
  cases found : sessionFind s jn with
  | none =>
      have reads : (Prog.get : Run State) s = .done s s := rfl
      rw [handleSessionTerminate, handled_bind_iff reads rfl rfl, found, handled_error_iff]
      exact ⟨fun _ => by simp, fun _ => unfreed⟩
  | some cell =>
  obtain ⟨p, js⟩ := cell
  simp only [Option.mem_some_iff, forall_eq']
  constructor
  · intro served
    obtain ⟨jn', s', runs, _, answered⟩ := served
    by_contra filled
    have more := wp_done (handleSessionTerminate_readsFreed env w found filled) runs
    exact absurd answered.clean (Nat.ne_of_gt more)
  · intro empty
    exact ⟨jn, _, handleSessionTerminate_empty env w found empty, unfreed,
      (answered_replied jn.message _ (Or.inl rfl)).later rfl rfl⟩

-----------------------------------------------------------------------------------------
-- session-initiate
-----------------------------------------------------------------------------------------

/-- What serving a session-initiate needs: a sender, a content list that is freed once and,
if a session is opened, an addressee and contents that can be filled and shown.
-/
def InitiateServed (env : Env) (w : World) (s : State) (jn : JingleNode) : Prop :=
  ∃ sender ∈ jn.message.getFrom,
    (w.rosterFind (env.jidtodisp sender) = true → CheckedWhole jn)
    ∧ (acceptable env w jn = true → sessionFind s jn = none →
      jn.message.getTo.isSome = true
      ∧ CleanContents env w s (checkContents jn).jn.content (checkContents jn).err)

theorem handleSessionInitiate_handled {env : Env} {w : World} {jn : JingleNode}
    (layout : Layout s) (empty : jn.content = []) (unfreed : jn.contentFreed = false)
    : Handled (handleSessionInitiate env w jn) jn.message s ↔ InitiateServed env w s jn := by
  obtain ⟨_, kept, failed⟩ := checkContentsLoop_ends jn none jn.node.children
  have whole := checkContents_unfreed_iff empty unfreed
  cases known : jn.message.getFrom with
  | none =>
      have stops : handleSessionInitiate env w jn s = .fault (.nullDeref .string) s := by
        rw [handleSessionInitiate, known]
        rfl
      have senderless : ¬InitiateServed env w s jn := by
        simp [InitiateServed, known]
      exact iff_of_false (not_handled_of_fault stops) senderless
  | some sender =>
  have condition : InitiateServed env w s jn
      ↔ (w.rosterFind (env.jidtodisp sender) = true → CheckedWhole jn)
        ∧ (acceptable env w jn = true → sessionFind s jn = none →
          jn.message.getTo.isSome = true
          ∧ CleanContents env w s (checkContents jn).jn.content (checkContents jn).err) := by
    simp [InitiateServed, known]
  rw [condition, handleSessionInitiate, handled_bind_iff (deref_done known) rfl rfl]
  by_cases listed : w.rosterFind (env.jidtodisp sender) = false
  case pos =>
    rw [if_pos listed, handled_error_iff]
    simp [listed, acceptable, known, unfreed]
  have inRoster : w.rosterFind (env.jidtodisp sender) = true := by simpa using listed
  rw [if_neg listed, ← whole]
  dsimp only
  cases ok : (checkContents jn).ok with
  | false =>
      have set : (checkContents jn).err.isSome = true := (failed ok).1
      obtain ⟨error, known⟩ := Option.isSome_iff_exists.mp set
      rw [if_pos rfl, handled_bind_iff (deref_done known) rfl rfl, handled_error_iff]
      simp [acceptable, ok, inRoster]
  | true =>
  have notFreed : (checkContents jn).jn.contentFreed = false := (kept ok).trans unfreed
  rw [if_neg (by decide)]
  by_cases none : (checkContents jn).jn.content.length < 1
  case pos =>
    have nothing : (checkContents jn).jn.content = [] := by
      cases content : (checkContents jn).jn.content with
      | nil => rfl
      | cons cn rest => simp [content] at none
    rw [if_pos none, handled_error_iff]
    simp [acceptable, nothing, notFreed]
  rw [if_neg none]
  by_cases disposed : (checkContents jn).jn.content.any validDisposition = false
  case pos =>
    rw [if_pos disposed, handled_error_iff]
    simp [acceptable, disposed, notFreed]
  have reads : (Prog.get : Run State) s = .done s s := rfl
  rw [if_neg disposed, handled_bind_iff reads rfl rfl]
  have passes : acceptable env w jn = true := by
    have filled : (checkContents jn).jn.content.isEmpty = false := by
      cases content : (checkContents jn).jn.content with
      | nil => simp [content] at none
      | cons cn rest => rfl
    have disposed : (checkContents jn).jn.content.any validDisposition = true := by
      simpa using disposed
    simp [acceptable, known, inRoster, ok, filled, disposed]
  cases absent : sessionFind s jn with
  | some cell =>
      rw [if_pos Option.isSome_some, handled_error_iff]
      simp [notFreed]
  | none =>
  have sender' : (checkContents jn).jn.message.getFrom = some sender := by
    rw [checkContents_message, known]
  obtain ⟨goes, back⟩ := createSession_runs env w (checkContents jn).err sender' layout.streams
  rw [checkContents_message] at goes back
  rw [if_neg (by simp)]
  constructor
  · intro served
    obtain ⟨jn', s', runs, _⟩ := served
    refine ⟨fun _ => notFreed, fun _ _ => ?_⟩
    cases created : createSession env w (checkContents jn).jn (checkContents jn).err s with
    | done value s₁ => exact back s₁ created
    | fault error s₁ => cases (bind_fault created).symm.trans runs
  · intro needs
    obtain ⟨_, clean⟩ := needs
    obtain ⟨s', created, replies, reads'⟩ := goes (clean passes rfl)
    refine ⟨(checkContents jn).jn, s', bind_done created, notFreed, ?_, reads'⟩
    exact ⟨_, Or.inl rfl, replies⟩

-----------------------------------------------------------------------------------------
-- The dispatcher
-----------------------------------------------------------------------------------------

/-- The IQs that `jingle_handle_iq` keeps from other handlers. -/
def Taken (message : LmMessage) : Prop :=
  message.subType = .set ∧ (message.node.getChild "jingle").isSome = true

instance (message : LmMessage) : Decidable (Taken message) := by
  unfold Taken
  infer_instance

/-- An IQ that is not taken is left alone. -/
theorem not_taken_passes {message : LmMessage} (other : ¬Taken message)
    : jingleHandleIq env w message s = .done .allowMoreHandlers s := by
  unfold jingleHandleIq
  by_cases isSet : message.subType ≠ .set
  · rw [if_pos isSet]
    rfl
  · rw [if_neg isSet]
    have absent : message.node.getChild "jingle" = none := by
      cases child : message.node.getChild "jingle" with
      | none => rfl
      | some jnode => exact absurd ⟨not_not.mp isSet, by rw [child]; rfl⟩ other
    rw [absent]
    rfl

/-- What serving a request needs, action by action. The other actions are refused. -/
def RequestServed (env : Env) (w : World) (s : State) (jn : JingleNode) : Prop :=
  match jn.action with
  | .sessionInitiate => InitiateServed env w s jn
  | .sessionInfo => ∀ cell ∈ sessionFind s jn, InfoServed s jn cell.2
  | .sessionAccept =>
      ∀ cell ∈ sessionFind s jn, CheckedWhole jn
        ∧ ((checkContents jn).ok = true → AcceptServed s cell.2 (checkContents jn).jn.content)
  | .sessionTerminate => ∀ cell ∈ sessionFind s jn, cell.2.content = []
  | _ => True

instance (env : Env) (w : World) (s : State) (jn : JingleNode)
    : Decidable (RequestServed env w s jn) := by
  unfold RequestServed InitiateServed InfoServed AcceptServed
  cases jn.action <;> infer_instance

/-- The `<jingle/>` element is in the namespace of Jingle, and its request can be served. -/
def Servable (env : Env) (w : World) (s : State) (message : LmMessage) : Prop :=
  (∀ jnode ∈ message.node.getChild "jingle", jnode.getAttribute "xmlns" = some NS_JINGLE)
  ∧ ∀ jn ∈ jingleRequest env message, RequestServed env w s jn

instance (env : Env) (w : World) (s : State) (message : LmMessage)
    : Decidable (Servable env w s message) := by
  unfold Servable
  infer_instance

/-- Handling the IQ comes to its end with one answer sent. -/
def AnsweredOnce (env : Env) (w : World) (s : State) (message : LmMessage) : Prop :=
  ∃ s', jingleHandleIq env w message s = .done .removeMessage s' ∧ Answered message s s'

theorem answeredOnce_iff_handled {handler : Run JingleNode} {message : LmMessage}
    (runs : jingleHandleIq env w message s = (do
      let jn ← handler
      jingleFreeJinglenode jn
      pure LmHandlerResult.removeMessage : Run LmHandlerResult) s)
    : AnsweredOnce env w s message ↔ Handled handler message s := by
  constructor
  · intro done
    obtain ⟨s', ends, answered⟩ := done
    rw [runs] at ends
    cases handled : handler s with
    | fault error s₁ => cases (bind_fault handled).symm.trans ends
    | done jn s₁ =>
        rw [bind_done handled] at ends
        cases freed : jn.contentFreed with
        | true =>
            rw [jingleFreeJinglenode, freed] at ends
            cases ends
        | false =>
            rw [jingleFreeJinglenode, freed] at ends
            cases ends
            exact ⟨jn, s', handled, freed, answered⟩
  · intro served
    obtain ⟨jn, s', handled, unfreed, answered⟩ := served
    refine ⟨s', ?_, answered⟩
    rw [runs, bind_done handled, jingleFreeJinglenode, unfreed]
    rfl

/-- Nothing has filled the content list of a transport-info, so it is always refused. -/
theorem handleTransportInfo_handled {jn : JingleNode} (empty : jn.content = [])
    (unfreed : jn.contentFreed = false)
    : Handled (handleTransportInfo jn) jn.message s := by
  have reads : (Prog.get : Run State) s = .done s s := rfl
  rw [handleTransportInfo, handled_bind_iff reads rfl rfl]
  cases found : sessionFind s jn with
  | none => exact (handled_error_iff _ _ _ _ _).mpr unfreed
  | some cell =>
      dsimp only
      rw [empty]
      exact (handled_error_iff _ _ _ _ _).mpr unfreed

theorem request_answered_iff {message : LmMessage} {jn : JingleNode} (layout : Layout s)
    (valid : jingleRequest env message = some jn)
    : AnsweredOnce env w s message ↔ RequestServed env w s jn := by
  obtain ⟨same, empty, unfreed⟩ := jingleRequest_node valid
  have dispatched {handler : JingleNode → Run JingleNode}
      (handled : actionHandler env w jn.action = some handler)
      : AnsweredOnce env w s message ↔ Handled (handler jn) jn.message s := by
    rw [same]
    exact answeredOnce_iff_handled (by rw [jingleHandleIq_request valid handled])
  have refused (unhandled : actionHandler env w jn.action = none)
      : AnsweredOnce env w s message := by
    rw [answeredOnce_iff_handled (by rw [jingleHandleIq_valid valid, unhandled, Option.getD_none])]
    exact (handled_error_iff _ _ _ _ _).mpr unfreed
  unfold RequestServed
  cases action : jn.action with
  | sessionInitiate =>
      rw [dispatched (congrArg (actionHandler env w) action)]
      exact handleSessionInitiate_handled layout empty unfreed
  | sessionInfo =>
      rw [dispatched (congrArg (actionHandler env w) action)]
      exact handleSessionInfo_handled unfreed
  | sessionAccept =>
      rw [dispatched (congrArg (actionHandler env w) action)]
      exact handleSessionAccept_handled empty unfreed
  | sessionTerminate =>
      rw [dispatched (congrArg (actionHandler env w) action)]
      exact handleSessionTerminate_handled unfreed
  | transportInfo =>
      rw [dispatched (congrArg (actionHandler env w) action), iff_true]
      exact handleTransportInfo_handled empty unfreed
  | _ => exact iff_true_intro (refused (congrArg (actionHandler env w) action))

/-- Every IQ that is taken in a reachable state is answered exactly once, and nothing freed or
NULL is used on the way, if and only if it can be served.
-/
theorem requests_answered_once (env : Env) (w : World) (s : State) (run : Reachable env s)
    (message : LmMessage) (taken : Taken message)
    : AnsweredOnce env w s message ↔ Servable env w s message := by
  obtain ⟨isSet, child⟩ := taken
  obtain ⟨jnode, child⟩ := Option.isSome_iff_exists.mp child
  have isSet' : ¬message.subType ≠ .set := not_not.mpr isSet
  unfold Servable
  simp only [child, Option.mem_some_iff, forall_eq']
  by_cases ours : jnode.getAttribute "xmlns" = some NS_JINGLE
  case neg =>
    have silent : jingleHandleIq env w message s = .done .removeMessage s := by
      rw [jingleHandleIq, if_neg isSet', child]
      dsimp only
      rw [if_pos ours]
      rfl
    refine ⟨fun handled => ?_, fun served => absurd served.1 ours⟩
    obtain ⟨s', runs, answered⟩ := handled
    cases silent.symm.trans runs
    obtain ⟨answer, _, once⟩ := answered.once
    exact absurd (congrArg List.length once) (by simp)
  cases valid : jingleRequest env message with
  | some jn =>
      rw [request_answered_iff (layout_reached run) valid]
      simp [ours]
  | none =>
      have refused : jingleHandleIq env w message s
          = .done .removeMessage (s.replied message
              (jingleNewIqError message "cancel" "bad-request" none)) := by
        rw [jingleRequest, if_neg isSet', child] at valid
        dsimp only at valid
        rw [if_neg (not_not.mpr ours)] at valid
        rw [jingleHandleIq, if_neg isSet', child]
        dsimp only
        rw [if_neg (not_not.mpr ours)]
        cases checked : checkJingle env.checkJidSyntax message jnode with
        | error error => rfl
        | ok jn =>
            rw [checked] at valid
            cases valid
      refine ⟨fun _ => ⟨ours, by simp⟩, fun _ => ⟨_, refused, ?_⟩⟩
      exact answered_replied message _ (Or.inr rfl)

theorem requests_answered_once_fileOffer
    : AnsweredOnce plainEnv plainWorld loaded fileOffer :=
  (requests_answered_once plainEnv plainWorld loaded (loaded_reached plainEnv _) fileOffer
    (by decide)).mpr (by decide +kernel)

/-- The peer ends a session in which it offered a file: the list node of the content is read
after it was freed.
-/
theorem terminate_reads_freed_node
    : ¬∀ env w s, Reachable env s → ∀ message, Taken message → AnsweredOnce env w s message := by
  intro claimed
  let withdrawn := jingleSet "romeo@verona/a" "session-terminate" "s1" []
  have passed : (execute plainEnv (fun _ _ => True) loaded
      [(plainWorld, .jingleIq fileOffer)]).any (fun s =>
        (jingleHandleIq plainEnv plainWorld withdrawn s).state.staleReads != s.staleReads)
      = true := by decide +kernel
  obtain ⟨s, run, read⟩ := execute_any _ (loaded_reached plainEnv _) passed
  obtain ⟨s', ends, answered⟩ := claimed plainEnv plainWorld s run withdrawn (by decide)
  rw [ends, Outcome.state, answered.clean] at read
  simp at read

end McabberJingle
