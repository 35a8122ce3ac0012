import McabberJingle.Guarantees.Replies
import McabberJingle.Guarantees.Validation

/-! Which callbacks of the modules an IQ about a session runs: the handlers asked about a
session-info or a transport-info, the `start` of accepted contents, and the `stop` of a
session that ends.
-/

namespace McabberJingle

open Program Program.Prog

variable {env : Env} {w : World} {s : State} {message : LmMessage} {jn : JingleNode}
  {p : SessionPtr} {js : JingleSession}

-----------------------------------------------------------------------------------------
-- The dispatcher around a handler
-----------------------------------------------------------------------------------------

/-- A handler that ends with a node to be freed once is all that happens. -/
theorem jingleHandleIq_done {handler : JingleNode → Run JingleNode} {jn' : JingleNode}
    {s' : State} (valid : jingleRequest env message = some jn)
    (handled : actionHandler env w jn.action = some handler) (ends : handler jn s = .done jn' s')
    (unfreed : jn'.contentFreed = false)
    : jingleHandleIq env w message s = .done .removeMessage s' := by
  rw [jingleHandleIq_request valid handled, bind_done ends, jingleFreeJinglenode, unfreed]
  rfl

/-- The empty result that acknowledges an IQ. -/
def resultOf (message : LmMessage) : LmMessage := message.newIqFromQuery .result

/-- A result is no error. -/
theorem resultOf_ne_error (message : LmMessage) (errtype cond : String)
    (jinglecond : Option String)
    : resultOf message ≠ jingleNewIqError message errtype cond jinglecond := by
  intro same
  have kinds := congrArg LmMessage.subType same
  cases jinglecond <;> cases kinds

/-- The last answer of a state is known. -/
theorem answer_unique {s s' : State} {answer answer' : LmMessage} (same : s'.sent = s.sent)
    (states : s.replied message answer = s'.replied message answer')
    : answer = answer' := by
  have sent := congrArg State.sent states
  simp only [State.replied, same] at sent
  simpa using sent

-----------------------------------------------------------------------------------------
-- session-info
-----------------------------------------------------------------------------------------

/-- Asking the application of a content about the child of a session-info. -/
def askInfo (child : LmMessageNode) (sc : SessionContent) : Run JingleHandleStatus := do
  let _ ← deref .appfuncs sc.appfuncs
  let description ← deref .description sc.description
  FileTransfer.handle .sessionInfo description child

/-- How a session-info with the payload `child` should be answered: the first content whose
handler takes it is the one that is modified, and the answer tells whether there is one. The
hash of a file is taken by the first content.
-/
structure InfoAnswered (env : Env) (w : World) (s : State) (message : LmMessage)
    (child : LmMessageNode) (contents : List SessionContent)
    : Prop where
  taken : ∀ before sc after s₁, contents = before ++ sc :: after →
    (∀ sc' ∈ before, ∀ s', askInfo child sc' s ≠ .done .handled s') →
    askInfo child sc s = .done .handled s₁ →
    jingleHandleIq env w message s = .done .removeMessage (s₁.replied message (resultOf message))
  refused : (∀ sc ∈ contents, ∀ s', askInfo child sc s ≠ .done .handled s') →
    jingleHandleIq env w message s
      = .done .removeMessage (s.replied message
          (jingleNewIqError message "modify" "feature-not-implemented" (some "unsupported-info")))
  hash : takesHash child = true → ∀ sc rest, contents = sc :: rest →
    ∃ d, sc.description = some d
      ∧ jingleHandleIq env w message s
        = .done .removeMessage
            ({ s with infoList :=
                s.infoList.modify d (fun jft => { jft with hash := child.value }) }.replied
              message (resultOf message))

/-- What the application answers to a session-info, if it gets to an answer. -/
theorem handle_sessionInfo_ends {child : LmMessageNode} {d : FtPtr} {status : JingleHandleStatus}
    {s' : State} (ends : FileTransfer.handle .sessionInfo d child s = .done status s')
    : s'.sent = s.sent ∧ (status = .handled ↔ takesHash child = true) := by
  unfold takesHash
  unfold FileTransfer.handle at ends
  split at ends
  · rename_i takes
    obtain ⟨ft, s₁, read, ends⟩ := of_bind_done ends
    cases found : s.infoList.get? d with
    | none => cases (readFt_fault found).symm.trans read
    | some ft' =>
        cases (readFt_done found).symm.trans read
        cases ends
        exact ⟨rfl, by simp [takes.2.1, takes.2.2]⟩
  · rename_i passes
    cases ends
    refine ⟨rfl, iff_of_false (by simp) (fun takes => passes ⟨rfl, ?_⟩)⟩
    simpa using takes

/-- By induction on the contents: the loop stops at the first content when it does not take
the payload, and goes on to the end when it does.
-/
theorem offerInfo_ends {child : LmMessageNode} {contents : List SessionContent} {taken : Bool}
    {s' : State} (ends : offerInfo child contents s = .done taken s')
    : s'.sent = s.sent ∧ (taken = true ↔ takesHash child = false ∧ contents ≠ []) := by
  induction contents generalizing s with
  | nil =>
      cases ends
      exact ⟨rfl, by simp⟩
  | cons sc rest ih =>
      rw [offerInfo] at ends
      obtain ⟨appfuncs, s₁, app, ends⟩ := of_bind_done ends
      obtain ⟨d, s₂, description, ends⟩ := of_bind_done ends
      obtain ⟨status, s₃, asked, ends⟩ := of_bind_done ends
      have here : s₂ = s := by
        cases funcs : sc.appfuncs <;> rw [funcs] at app <;> cases app
        cases described : sc.description <;> rw [described] at description <;> cases description
        rfl
      subst here
      obtain ⟨sent, takes⟩ := handle_sessionInfo_ends asked
      cases status with
      | handled =>
          have hash := takes.mp rfl
          obtain ⟨sent', taken'⟩ := ih ends
          refine ⟨sent'.trans sent, taken'.trans ?_⟩
          simp [hash]
      | notHandled =>
          cases ends
          have other : takesHash child = false := by simpa using takes
          exact ⟨sent, by simp [other]⟩
      | handleError =>
          cases ends
          have other : takesHash child = false := by simpa using takes
          exact ⟨sent, by simp [other]⟩

section Info

variable {child : LmMessageNode} {others : List LmMessageNode}

/-- The code's answer to a session-info about a session with contents, if it gets to one. -/
theorem sessionInfo_answer (valid : jingleRequest env message = some jn)
    (action : jn.action = .sessionInfo) (found : sessionFind s jn = some (p, js))
    (children : jn.node.children = child :: others) (filled : js.content ≠ []) {s' : State}
    (ends : jingleHandleIq env w message s = .done .removeMessage s')
    : ∃ s₁ : State, s₁.sent = s.sent ∧ s' = s₁.replied message
        (if takesHash child then
          jingleNewIqError message "modify" "feature-not-implemented" (some "unsupported-info")
        else resultOf message) := by
  have handled : actionHandler env w jn.action = some handleSessionInfo := by
    rw [action]
    rfl
  obtain ⟨jn', ends⟩ := jingleHandleIq_ends valid handled ends
  rw [handleSessionInfo, bind_get, found] at ends
  dsimp only at ends
  rw [children] at ends
  obtain ⟨taken, s₁, offered, ends⟩ := of_bind_done ends
  obtain ⟨sent, takes⟩ := offerInfo_ends offered
  refine ⟨s₁, sent, ?_⟩
  rw [← (jingleRequest_node valid).1]
  cases hash : takesHash child with
  | true =>
      cases taken with
      | true => exact absurd (takes.mp rfl).1 (by simp [hash])
      | false =>
          cases ends
          rfl
  | false =>
      have told : taken = true := takes.mpr ⟨hash, filled⟩
      subst told
      cases ends
      rfl

/-- A hash is answered with an error, and anything else with a result. -/
theorem InfoAnswered.contents_empty (answered : InfoAnswered env w s message child js.content)
    (valid : jingleRequest env message = some jn) (action : jn.action = .sessionInfo)
    (found : sessionFind s jn = some (p, js)) (children : jn.node.children = child :: others)
    : js.content = [] := by
  by_contra filled
  cases hash : takesHash child with
  | true =>
      obtain ⟨sc, rest, split⟩ := List.exists_cons_of_ne_nil filled
      obtain ⟨d, _, ends⟩ := answered.hash hash sc rest split
      obtain ⟨s₁, sent, states⟩ := sessionInfo_answer valid action found children filled ends
      rw [hash, if_pos rfl] at states
      exact resultOf_ne_error _ _ _ _ (answer_unique (by exact sent) states)
  | false =>
      have untaken (sc : SessionContent) (s' : State) : askInfo child sc s ≠ .done .handled s' := by
        intro asked
        obtain ⟨_, s₁, _, asked⟩ := of_bind_done asked
        obtain ⟨d, s₂, _, asked⟩ := of_bind_done asked
        have takes := (handle_sessionInfo_ends asked).2.mp rfl
        rw [hash] at takes
        cases takes
      have ends := answered.refused (fun sc _ => untaken sc)
      obtain ⟨s₁, sent, states⟩ := sessionInfo_answer valid action found children filled ends
      rw [hash, if_neg (by simp)] at states
      exact resultOf_ne_error _ _ _ _ (answer_unique sent states).symm

/-- A session-info with a payload is answered as it should be exactly when the session has no
contents.
-/
theorem session_info_answered (w : World) (valid : jingleRequest env message = some jn)
    (action : jn.action = .sessionInfo) (found : sessionFind s jn = some (p, js))
    (children : jn.node.children = child :: others)
    : InfoAnswered env w s message child js.content ↔ js.content = [] := by
  refine ⟨fun answered => answered.contents_empty valid action found children, fun empty => ?_⟩
  have handled : actionHandler env w jn.action = some handleSessionInfo := by
    rw [action]
    rfl
  obtain ⟨same, _, unfreed⟩ := jingleRequest_node valid
  subst same
  rw [empty]
  refine ⟨fun before sc after s₁ split => ?_, fun _ => ?_, fun _ sc rest split => by cases split⟩
  · simp at split
  · refine jingleHandleIq_done valid handled ?_ unfreed
    rw [handleSessionInfo, bind_get, found]
    dsimp only
    rw [children, empty]
    rfl

end Info

/-- A hash for the session "s1". -/
def hashNode : JingleNode := requestNode .sessionInfo "s1" [hashElement]

theorem hashNode_valid : jingleRequest plainEnv hashNode.message = some hashNode := rfl

/-- A session without contents understands no payload. -/
theorem session_info_answered_bare
    : InfoAnswered plainEnv plainWorld oneSession hashNode.message hashElement [] := by
  have found : sessionFind oneSession hashNode = some (0, bareSession) := rfl
  exact (session_info_answered plainWorld hashNode_valid rfl found rfl).mpr rfl

/-- After a file was offered, a request about the session passes a test. -/
theorem offered_any (jn : JingleNode) (test : JingleSession → Bool)
    (passed : (execute plainEnv (fun _ _ => True) loaded
      [(plainWorld, .jingleIq fileOffer)]).any (fun s =>
        (sessionFind s jn).any (fun cell => test cell.2)) = true)
    : ∃ s p js, Reachable plainEnv s ∧ sessionFind s jn = some (p, js) ∧ test js = true := by
  obtain ⟨s, run, passes⟩ := execute_any _ (loaded_reached plainEnv _) passed
  obtain ⟨cell, found, passes⟩ := (Option.any_eq_true _ _).mp passes
  exact ⟨s, cell.1, cell.2, run, found, passes⟩

/-- The hash of an offered file is stored and answered with an error. -/
theorem hash_answered_with_error
    : ∃ s p js, Reachable plainEnv s ∧ sessionFind s hashNode = some (p, js)
        ∧ ¬InfoAnswered plainEnv plainWorld s hashNode.message hashElement js.content := by
  obtain ⟨s, p, js, run, found, filled⟩ := offered_any hashNode
    (fun js => !js.content.isEmpty) (by decide +kernel)
  refine ⟨s, p, js, run, found, fun answered => ?_⟩
  rw [answered.contents_empty hashNode_valid rfl found rfl] at filled
  cases filled

-----------------------------------------------------------------------------------------
-- transport-info
-----------------------------------------------------------------------------------------

/-- The first `<content/>` of a request, if it is in the grammar. -/
def firstContent (jn : JingleNode) : Option JingleContent :=
  (contentNodes jn.node.children).head?.bind (fun child =>
    if InGrammar child then (checkContent child none).1 else none)

/-- The content of the session that a transport-info is about, with the element that names it. -/
def infoTarget (jn : JingleNode) (js : JingleSession) : Option (JingleContent × SessionContent) :=
  (firstContent jn).bind (fun cn =>
    (sessionFindSessioncontent js cn.name).map (fun sc => (cn, sc)))

/-- How a transport-info should be answered: the handler of the transport it is about is run,
or nothing is when there is none.
-/
structure TransportInformed (env : Env) (w : World) (s : State) (message : LmMessage)
    (jn : JingleNode) (js : JingleSession)
    : Prop where
  handled : ∀ cn sc, infoTarget jn js = some (cn, sc) →
    ∃ transfuncs t status s₁ answer,
      sc.transfuncs = some transfuncs ∧ sc.transport = some t
      ∧ runHandle env transfuncs .transportInfo t cn.transport s = .done status s₁
      ∧ jingleHandleIq env w message s = .done .removeMessage (s₁.replied message answer)
      ∧ (status = .handled → answer = resultOf message)
  refused : infoTarget jn js = none →
    jingleHandleIq env w message s
      = .done .removeMessage
          (s.replied message (jingleNewIqError message "modify" "bad-request" none))

/-- A transport's handler leaves the record of its run alone. -/
theorem runHandle_transportInfo {transfuncs : JingleTransportFuncs} {t : TransportPtr}
    {node : LmMessageNode} {status : JingleHandleStatus} {s' : State}
    (ends : runHandle env transfuncs .transportInfo t node s = .done status s')
    : s'.handles = s.handles ++ [(t, node)] := by
  rw [runHandle_eq] at ends
  cases transfuncs with
  | ibb =>
      cases ends
      rfl
  | s5b =>
      have reads (s : State) : JingleTransportFuncs.s5b.handle env .transportInfo t node s
          = (do
            let _ ← readS5b t
            pure .handled : Run JingleHandleStatus) s := rfl
      rw [reads] at ends
      obtain ⟨js5b, s₁, read, ends⟩ := of_bind_done ends
      cases ends
      cases isS5b : ((s.handling t node).transports.get? t).any
          (fun transport => !transport.isIbb) with
      | true =>
          obtain ⟨_, there⟩ := exists_s5b isS5b
          cases (readS5b_done there).symm.trans read
          rfl
      | false =>
          obtain ⟨_, fault⟩ := readS5b_fault isS5b
          cases fault.symm.trans read

section Transport

variable (valid : jingleRequest env message = some jn) (action : jn.action = .transportInfo)
  (found : sessionFind s jn = some (p, js))

include valid action found

/-- Nothing has filled the contents of the node, so every transport-info is refused. -/
theorem transportInfo_refused (w : World)
    : jingleHandleIq env w message s
      = .done .removeMessage
          (s.replied message (jingleNewIqError message "modify" "bad-request" none)) := by
  have handled : actionHandler env w jn.action = some handleTransportInfo := by
    rw [action]
    rfl
  obtain ⟨same, empty, unfreed⟩ := jingleRequest_node valid
  subst same
  refine jingleHandleIq_done valid handled ?_ unfreed
  rw [handleTransportInfo, bind_get, found]
  dsimp only
  rw [empty]
  rfl

theorem TransportInformed.no_target (informed : TransportInformed env w s message jn js)
    : infoTarget jn js = none := by
  cases target : infoTarget jn js with
  | none => rfl
  | some pair =>
      obtain ⟨transfuncs, t, status, s₁, answer, _, _, runs, ends, _⟩ :=
        informed.handled pair.1 pair.2 target
      have handles := runHandle_transportInfo runs
      have states := (transportInfo_refused valid action found w).symm.trans ends
      simp only [Outcome.done.injEq, true_and] at states
      have same := congrArg State.handles states
      change s.handles = s₁.handles at same
      rw [← same] at handles
      simp at handles

/-- A transport-info is answered as it should be exactly when it is about no content. -/
theorem transport_info_dispatched (w : World)
    : TransportInformed env w s message jn js ↔ infoTarget jn js = none := by
  constructor
  · exact fun informed => informed.no_target valid action found
  · intro nothing
    refine ⟨fun cn sc target => ?_, fun _ => transportInfo_refused valid action found w⟩
    rw [nothing] at target
    cases target

end Transport

/-- A transport-info without contents is refused. -/
theorem transport_info_dispatched_bare
    : TransportInformed plainEnv plainWorld oneSession (requestNode .transportInfo "s1" []).message
        (requestNode .transportInfo "s1" []) bareSession :=
  (transport_info_dispatched (s := oneSession) (p := 0) rfl rfl rfl plainWorld).mpr rfl

/-- Candidates for the stream of the session "s1". -/
def candidatesNode : JingleNode :=
  requestNode .transportInfo "s1" [offeredContent "file" "b1"]

theorem candidatesNode_valid
    : jingleRequest plainEnv candidatesNode.message = some candidatesNode :=
  rfl

/-- A transport-info about the content of an offered file reaches no transport. -/
theorem candidates_refused
    : ∃ s p js, Reachable plainEnv s ∧ sessionFind s candidatesNode = some (p, js)
        ∧ ¬TransportInformed plainEnv plainWorld s candidatesNode.message candidatesNode js := by
  obtain ⟨s, p, js, run, found, target⟩ := offered_any candidatesNode
    (fun js => (infoTarget candidatesNode js).isSome) (by decide +kernel)
  refine ⟨s, p, js, run, found, fun informed => ?_⟩
  rw [informed.no_target candidatesNode_valid rfl found] at target
  cases target

-----------------------------------------------------------------------------------------
-- session-accept
-----------------------------------------------------------------------------------------

/-- The contents of a session-accept that the session has. -/
def knownContents (js : JingleSession) (contents : List JingleContent) : List JingleContent :=
  contents.filter (fun jc => (sessionFindSessioncontent js jc.name).isSome)

/-- What a session-accept that names `contents` should leave: those that the session has are
ACTIVE and started once each, in the order of the stanza; the others are what they were.
-/
structure ContentsStarted (s s' : State) (p : SessionPtr) (js : JingleSession)
    (contents : List JingleContent)
    : Prop where
  session : ∃ content, s'.sessions.get? p = some { js with content }
    ∧ (∀ jc ∈ contents, ∀ sc, sessionFindSessioncontent js jc.name = some sc →
      content.find? (fun sc => sc.name == jc.name) = some { sc with state := .active })
    ∧ content.filter (fun sc => !contents.any (fun jc => jc.name == sc.name))
      = js.content.filter (fun sc => !contents.any (fun jc => jc.name == sc.name))
  starts : s'.starts = s.starts
    ++ (knownContents js contents).map (fun jc => { owner := p, name := jc.name })

/-- The session-accept is handled to its end, and its contents are started. -/
def StartsAccepted (env : Env) (w : World) (s : State) (message : LmMessage) (jn : JingleNode)
    (p : SessionPtr) (js : JingleSession)
    : Prop :=
  ∃ s', jingleHandleIq env w message s = .done .removeMessage s'
    ∧ ContentsStarted s s' p js (checkContents jn).jn.content

section Accept

variable (valid : jingleRequest env message = some jn) (action : jn.action = .sessionAccept)
  (found : sessionFind s jn = some (p, js)) (checked : (checkContents jn).ok = true)

include valid found checked

/-- What the code does with a valid session-accept: nothing but taking its contents. -/
theorem handleSessionAccept_checked
    : handleSessionAccept env jn s
      = (do
          acceptContents env p (checkContents jn).jn.content
          pure (checkContents jn).jn : Run JingleNode)
        (s.replied message (resultOf message)) := by
  obtain ⟨same, _, _⟩ := jingleRequest_node valid
  subst same
  have same : sessionFindBySid s jn.sid jn.message.getFrom = some (p, js) := found
  rw [handleSessionAccept, bind_get, same]
  dsimp only
  rw [if_neg (by simp [checked])]
  rfl

include action

/-- No content is started, whatever is accepted. -/
theorem StartsAccepted.unnamed (started : StartsAccepted env w s message jn p js)
    : namesContent js (checkContents jn).jn.content = false := by
  have handled : actionHandler env w jn.action = some (handleSessionAccept env) := by
    rw [action]
    rfl
  have listed : s.sessions.get? p = some js := sessionFindBySid_listed found
  obtain ⟨s', ends, started⟩ := started
  obtain ⟨jn', ends⟩ := jingleHandleIq_ends valid handled ends
  rw [handleSessionAccept_checked valid found checked] at ends
  obtain ⟨_, s₁, accepts, ends⟩ := of_bind_done ends
  cases ends
  obtain ⟨goes, back⟩ := acceptContents_runs (s := s.replied message (resultOf message)) env listed
    (checkContents jn).jn.content
  obtain ⟨s₂, accepts', accepted⟩ := goes (back s' accepts)
  cases accepts.symm.trans accepts'
  have starts : s'.starts = s.starts := accepted.starts
  have none : (knownContents js (checkContents jn).jn.content).map
      (fun jc => ({ owner := p, name := jc.name } : SessionContentRef)) = [] := by
    have told := started.starts
    rw [starts] at told
    simpa using told
  rw [List.map_eq_nil_iff, knownContents, List.filter_eq_nil_iff] at none
  rw [namesContent, List.any_eq_false]
  exact none

/-- The contents of a session-accept are started exactly when it names none of the session. -/
theorem accepted_contents_started (w : World)
    : StartsAccepted env w s message jn p js
      ↔ namesContent js (checkContents jn).jn.content = false := by
  constructor
  · exact fun started => started.unnamed valid action found checked
  · intro unnamed
    have handled : actionHandler env w jn.action = some (handleSessionAccept env) := by
      rw [action]
      rfl
    have listed : s.sessions.get? p = some js := sessionFindBySid_listed found
    obtain ⟨_, _, unfreed⟩ := jingleRequest_node valid
    obtain ⟨_, kept, _⟩ := checkContentsLoop_ends jn none jn.node.children
    let s₁ := s.replied message (resultOf message)
    have accepts : acceptContents env p (checkContents jn).jn.content s₁ = .done () s₁ :=
      acceptContents_unnamed (s := s₁) env listed _ unnamed
    have missing (jc : JingleContent) (member : jc ∈ (checkContents jn).jn.content)
        : sessionFindSessioncontent js jc.name = none := by
      rw [namesContent, List.any_eq_false] at unnamed
      simpa using unnamed jc member
    refine ⟨s₁, jingleHandleIq_done valid handled ?_ ((kept checked).trans unfreed), ?_, ?_⟩
    · rw [handleSessionAccept_checked valid found checked, bind_done accepts]
      rfl
    · refine ⟨js.content, listed, fun jc member sc known => ?_, rfl⟩
      rw [missing jc member] at known
      cases known
    · have none : knownContents js (checkContents jn).jn.content = [] := by
        rw [knownContents, List.filter_eq_nil_iff]
        intro jc member
        simp [missing jc member]
      rw [none]
      exact (List.append_nil _).symm

end Accept

/-- The peer accepts a content of the offered session. -/
def acceptNode (name : String) : JingleNode :=
  requestNode .sessionAccept "our-sid" [offeredContent name "our-stream"]

theorem acceptNode_valid (name : String)
    : jingleRequest plainEnv (acceptNode name).message = some (acceptNode name) :=
  rfl

/-- An offer of ours can be accepted under a name. -/
theorem acceptable_offer (name : String) (test : JingleSession → Bool)
    (passed : (execute plainEnv (fun _ _ => True) loaded
      [(offeringWorld fourBytes, .jftSend (some "notes"))]).any (fun s =>
        (sessionFind s (acceptNode name)).any (fun cell =>
          decide (cell.2.origin = .outgoing) && test cell.2)) = true)
    : ∃ s p js, Reachable plainEnv s ∧ sessionFind s (acceptNode name) = some (p, js)
        ∧ js.origin = .outgoing ∧ test js = true := by
  obtain ⟨s, run, passes⟩ := execute_any _ (loaded_reached plainEnv _) passed
  obtain ⟨cell, found, passes⟩ := (Option.any_eq_true _ _).mp passes
  rw [Bool.and_eq_true, decide_eq_true_iff] at passes
  exact ⟨s, cell.1, cell.2, run, found, passes.1, passes.2⟩

/-- A session-accept that names no content of the session. -/
theorem accepted_contents_started_unknown
    : ∃ s p js, Reachable plainEnv s ∧ js.origin = .outgoing
        ∧ StartsAccepted plainEnv plainWorld s (acceptNode "other").message (acceptNode "other")
            p js := by
  obtain ⟨s, p, js, run, found, outgoing, unnamed⟩ := acceptable_offer "other"
    (fun js => !namesContent js (checkContents (acceptNode "other")).jn.content)
    (by decide +kernel)
  refine ⟨s, p, js, run, outgoing, ?_⟩
  have checked : (checkContents (acceptNode "other")).ok = true := by decide
  exact (accepted_contents_started (acceptNode_valid "other") rfl found checked plainWorld).mpr
    (by simpa using unnamed)

/-- The file that the peer accepts is never started. -/
theorem accepted_file_not_started
    : ∃ s p js, Reachable plainEnv s ∧ js.origin = .outgoing
        ∧ sessionFind s (acceptNode "file") = some (p, js)
        ∧ (∀ sc ∈ js.content, sc.state = .pending ∧ sc.transfuncs = some .ibb)
        ∧ ¬StartsAccepted plainEnv plainWorld s (acceptNode "file").message (acceptNode "file")
            p js := by
  obtain ⟨s, p, js, run, found, outgoing, passes⟩ := acceptable_offer "file"
    (fun js => namesContent js (checkContents (acceptNode "file")).jn.content
      && js.content.all (fun sc => sc.state = .pending && sc.transfuncs = some .ibb))
    (by decide +kernel)
  rw [Bool.and_eq_true] at passes
  refine ⟨s, p, js, run, outgoing, found, by simpa using passes.2, fun started => ?_⟩
  rw [started.unnamed (acceptNode_valid "file") rfl found (by decide)] at passes
  cases passes.1

-----------------------------------------------------------------------------------------
-- session-terminate
-----------------------------------------------------------------------------------------

/-- What a session-terminate should leave: the session is gone and the others are not, the
application of each content was told to stop, in their order, and no freed node was read.
-/
structure StoppedOnce (s s' : State) (p : SessionPtr) (js : JingleSession) : Prop where
  sessions : s'.sessions = s.sessions.erase p
  stopped : ∃ reports, s'.stopReports = s.stopReports ++ reports
    ∧ reports.map (fun report => some report.1) = js.content.map SessionContent.description
  clean : s'.staleReads = s.staleReads

section Terminate

variable (valid : jingleRequest env message = some jn) (action : jn.action = .sessionTerminate)
  (found : sessionFind s jn = some (p, js))

include valid action found

theorem StoppedOnce.contents_empty {s' : State} (stopped : StoppedOnce s s' p js)
    (ends : jingleHandleIq env w message s = .done .removeMessage s')
    : js.content = [] := by
  have handled : actionHandler env w jn.action = some (handleSessionTerminate env w) := by
    rw [action]
    rfl
  obtain ⟨jn', ends⟩ := jingleHandleIq_ends valid handled ends
  by_contra filled
  have more := wp_done (handleSessionTerminate_readsFreed env w found filled) ends
  exact absurd stopped.clean (Nat.ne_of_gt more)

/-- A session-terminate stops everything once exactly when the session has no contents. -/
theorem session_stopped_once (w : World)
    : (∃ s', jingleHandleIq env w message s = .done .removeMessage s' ∧ StoppedOnce s s' p js)
      ↔ js.content = [] := by
  constructor
  · intro stops
    obtain ⟨s', ends, stopped⟩ := stops
    exact stopped.contents_empty valid action found ends
  · intro empty
    have handled : actionHandler env w jn.action = some (handleSessionTerminate env w) := by
      rw [action]
      rfl
    obtain ⟨_, _, unfreed⟩ := jingleRequest_node valid
    have ends := handleSessionTerminate_empty env w found empty
    refine ⟨_, jingleHandleIq_done valid handled ends unfreed, rfl, ⟨[], ?_, ?_⟩, rfl⟩
    · exact (List.append_nil _).symm
    · rw [empty]
      rfl

end Terminate

/-- The peer ends the session "s1". -/
def endNode : JingleNode := requestNode .sessionTerminate "s1" []

theorem endNode_valid : jingleRequest plainEnv endNode.message = some endNode := rfl

/-- A session without contents is ended cleanly. -/
theorem session_stopped_once_bare
    : ∃ s', jingleHandleIq plainEnv plainWorld endNode.message oneSession = .done .removeMessage s'
        ∧ StoppedOnce oneSession s' 0 bareSession := by
  have found : sessionFind oneSession endNode = some (0, bareSession) := rfl
  exact (session_stopped_once endNode_valid rfl found plainWorld).mpr rfl

/-- Ending a session with a file reads the list node that was just freed. -/
theorem session_end_reads_freed
    : ∃ s p js, Reachable plainEnv s ∧ sessionFind s endNode = some (p, js)
        ∧ ¬∃ s', jingleHandleIq plainEnv plainWorld endNode.message s = .done .removeMessage s'
          ∧ StoppedOnce s s' p js := by
  obtain ⟨s, p, js, run, found, filled⟩ := offered_any endNode
    (fun js => !js.content.isEmpty) (by decide +kernel)
  refine ⟨s, p, js, run, found, fun stops => ?_⟩
  obtain ⟨s', ends, stopped⟩ := stops
  rw [stopped.contents_empty endNode_valid rfl found ends] at filled
  cases filled

end McabberJingle
