import McabberJingle.Jingle.Dispatch

/-! What the dispatcher does with a Jingle request. -/

namespace McabberJingle

open Program Program.Prog

-----------------------------------------------------------------------------------------
-- The request in an IQ
-----------------------------------------------------------------------------------------

/-- The `<jingle/>` request in an IQ, once it has passed `check_jingle`. -/
def jingleRequest (env : Env) (message : LmMessage) : Option JingleNode :=
  if message.subType ≠ .set then
    none
  else
    match message.node.getChild "jingle" with
    | none => none
    | some jnode =>
        if jnode.getAttribute "xmlns" ≠ some NS_JINGLE then
          none
        else
          (checkJingle env.checkJidSyntax message jnode).toOption

theorem checkJingle_node {checkJidSyntax : String → Bool} {message : LmMessage}
    {node : LmMessageNode} {jn : JingleNode} (ok : checkJingle checkJidSyntax message node = .ok jn)
    : jn.message = message ∧ jn.node = node ∧ jn.content = [] ∧ jn.contentFreed = false := by
  unfold checkJingle at ok
  split at ok
  · dsimp only at ok
    split at ok
    · cases ok
    split at ok
    · cases ok
    · cases ok
      exact ⟨rfl, rfl, rfl, rfl⟩
  · cases ok

theorem jingleRequest_node {env : Env} {message : LmMessage} {jn : JingleNode}
    (valid : jingleRequest env message = some jn)
    : jn.message = message ∧ jn.content = [] ∧ jn.contentFreed = false := by
  unfold jingleRequest at valid
  split at valid
  · cases valid
  split at valid
  · cases valid
  split at valid
  · cases valid
  rename_i jnode _ _
  cases checked : checkJingle env.checkJidSyntax message jnode with
  | error error =>
      rw [checked] at valid
      cases valid
  | ok jn' =>
      rw [checked] at valid
      cases valid
      obtain ⟨same, _, empty, notFreed⟩ := checkJingle_node checked
      exact ⟨same, empty, notFreed⟩

/-- A valid Jingle request goes to the handler of its action, if there is one. -/
theorem jingleHandleIq_valid {env : Env} {w : World} {message : LmMessage} {jn : JingleNode}
    (valid : jingleRequest env message = some jn)
    : jingleHandleIq env w message = (do
        let jn ← ((actionHandler env w jn.action).getD (fun jn => do
          jingleSendIqError message "cancel" "feature-not-implemented" none
          pure jn)) jn
        jingleFreeJinglenode jn
        pure LmHandlerResult.removeMessage) := by
  unfold jingleRequest at valid
  unfold jingleHandleIq
  by_cases isSet : message.subType ≠ .set
  · rw [if_pos isSet] at valid
    cases valid
  rw [if_neg isSet] at valid ⊢
  cases jnodeFound : message.node.getChild "jingle" with
  | none =>
      rw [jnodeFound] at valid
      cases valid
  | some jnode =>
  simp only [jnodeFound] at valid ⊢
  by_cases ours : jnode.getAttribute "xmlns" ≠ some NS_JINGLE
  · rw [if_pos ours] at valid
    cases valid
  rw [if_neg ours] at valid ⊢
  cases checked : checkJingle env.checkJidSyntax message jnode with
  | error error =>
      rw [checked] at valid
      cases valid
  | ok jn' =>
      rw [checked] at valid
      cases valid
      dsimp only
      cases actionHandler env w jn.action with
      | none =>
          funext s
          rfl
      | some handler => rfl

/-- The dispatcher runs the handler of a valid Jingle request and frees its node. -/
theorem jingleHandleIq_request {env : Env} {w : World} {message : LmMessage} {jn : JingleNode}
    {handler : JingleNode → Run JingleNode} (valid : jingleRequest env message = some jn)
    (handled : actionHandler env w jn.action = some handler)
    : jingleHandleIq env w message = (do
        let jn ← handler jn
        jingleFreeJinglenode jn
        pure LmHandlerResult.removeMessage) := by
  rw [jingleHandleIq_valid valid, handled]
  rfl

/-- Freeing the node of a request leaves the state of its handler. -/
theorem jingleHandleIq_ends {env : Env} {w : World} {message : LmMessage} {jn : JingleNode}
    {handler : JingleNode → Run JingleNode} (valid : jingleRequest env message = some jn)
    (handled : actionHandler env w jn.action = some handler) {s s' : State}
    {result : LmHandlerResult} (run : jingleHandleIq env w message s = .done result s')
    : ∃ jn', handler jn s = .done jn' s' := by
  rw [jingleHandleIq_request valid handled] at run
  obtain ⟨jn', s₁, handles, run⟩ := of_bind_done run
  obtain ⟨_, s₂, freed, run⟩ := of_bind_done run
  cases run
  unfold jingleFreeJinglenode at freed
  split at freed
  · cases freed
  · cases freed
    exact ⟨jn', handles⟩

theorem checkContentsLoop_node (jn : JingleNode) (err : Option GError)
    (children : List LmMessageNode)
    : (checkContentsLoop jn err children).jn.message = jn.message
      ∧ (checkContentsLoop jn err children).jn.sid = jn.sid := by
  induction children generalizing jn err with
  | nil => exact ⟨rfl, rfl⟩
  | cons child rest ih =>
      simp only [checkContentsLoop]
      split
      · split
        · exact ⟨rfl, rfl⟩
        · exact ih _ _
      · exact ih _ _

theorem checkContent_transport {child : LmMessageNode} {err err' : Option GError}
    {cn : JingleContent} (checked : checkContent child err = (some cn, err'))
    : cn.transport.name = "transport" := by
  have named {node : LmMessageNode} (found : child.getChild "transport" = some node)
      : node.name = "transport" := by
    simpa using List.find?_some found
  unfold checkContent at checked
  grind

/-- By induction on the children: what a content is transported by is its `<transport/>`. -/
theorem checkContentsLoop_transport {jn : JingleNode} {err : Option GError}
    {children : List LmMessageNode} {cn : JingleContent}
    (member : cn ∈ (checkContentsLoop jn err children).jn.content)
    : cn ∈ jn.content ∨ cn.transport.name = "transport" := by
  induction children generalizing jn err with
  | nil => exact Or.inl member
  | cons child rest ih =>
      simp only [checkContentsLoop] at member
      split at member
      · split at member
        · exact Or.inl member
        · rename_i checked
          rcases ih member with old | new
          · rcases List.mem_append.mp old with before | here
            · exact Or.inl before
            · rw [List.mem_singleton.mp here]
              exact Or.inr (checkContent_transport checked)
          · exact Or.inr new
      · exact ih member

/-- The `<content/>` children of `<jingle/>`. -/
def contentNodes (children : List LmMessageNode) : List LmMessageNode :=
  children.filter (fun child => child.name == "content")

/-- Whether `check_content` makes something of the element. -/
def validContent (child : LmMessageNode) : Bool := (checkContent child none).1.isSome

/-- An error set before does not change what `check_content` returns. -/
theorem checkContent_fst (child : LmMessageNode) (err : Option GError)
    : (checkContent child err).1 = (checkContent child none).1 := by
  unfold checkContent
  split
  · rfl
  · dsimp only
    split
    · rfl
    · split <;> rfl

/-- By induction on the children: the loop ends at the first invalid content, with an error,
and frees the list if something is in it.
-/
theorem checkContentsLoop_ends (jn : JingleNode) (err : Option GError)
    (children : List LmMessageNode)
    : (checkContentsLoop jn err children).ok = (contentNodes children).all validContent
      ∧ ((checkContentsLoop jn err children).ok = true →
        (checkContentsLoop jn err children).jn.contentFreed = jn.contentFreed)
      ∧ ((checkContentsLoop jn err children).ok = false →
        (checkContentsLoop jn err children).err.isSome = true
        ∧ (checkContentsLoop jn err children).jn.contentFreed
          = (!jn.content.isEmpty || (contentNodes children).head?.any validContent)) := by
  induction children generalizing jn err with
  | nil => exact ⟨rfl, fun _ => rfl, fun h => by cases h⟩
  | cons child rest ih =>
      simp only [checkContentsLoop]
      by_cases named : child.name = "content"
      · have nodes : contentNodes (child :: rest) = child :: contentNodes rest := by
          simp [contentNodes, named]
        rw [if_pos named, nodes, List.all_cons, List.head?_cons, Option.any_some, validContent,
          ← checkContent_fst child err]
        cases checked : checkContent child err with
        | mk content err' =>
            cases content with
            | none =>
                have set : err'.isSome = true := by
                  have same : (checkContent child err).2 = err' := by rw [checked]
                  have none : (checkContent child err).1 = none := by rw [checked]
                  rw [← same]
                  unfold checkContent at none ⊢
                  grind [setError]
                exact ⟨rfl, fun h => by simp at h, fun _ => ⟨set, by simp⟩⟩
            | some cn =>
                obtain ⟨ok, unchanged, freed⟩ := ih { jn with content := jn.content ++ [cn] } err'
                refine ⟨by simpa using ok, unchanged, fun failed => ?_⟩
                obtain ⟨set, freed⟩ := freed failed
                exact ⟨set, by rw [freed]; simp⟩
      · have nodes : contentNodes (child :: rest) = contentNodes rest := by
          simp [contentNodes, named]
        rw [if_neg named, nodes]
        exact ih jn err

/-- If the first content is valid, all are. -/
def CheckedWhole (jn : JingleNode) : Prop :=
  ∀ first ∈ (contentNodes jn.node.children).head?, validContent first = true →
    ∀ child ∈ contentNodes jn.node.children, validContent child = true

instance (jn : JingleNode) : Decidable (CheckedWhole jn) := by
  unfold CheckedWhole
  infer_instance

/-- The content list is freed twice exactly when an invalid content comes after a valid one. -/
theorem checkContents_unfreed_iff {jn : JingleNode} (empty : jn.content = [])
    (unfreed : jn.contentFreed = false)
    : (checkContents jn).jn.contentFreed = false ↔ CheckedWhole jn := by
  obtain ⟨ok, unchanged, freed⟩ := checkContentsLoop_ends jn none jn.node.children
  rw [checkContents]
  cases passed : (checkContentsLoop jn none jn.node.children).ok with
  | true =>
      rw [passed] at ok
      rw [unchanged passed, unfreed]
      exact ⟨fun _ _ _ _ => List.all_eq_true.mp ok.symm, fun _ => rfl⟩
  | false =>
      have some_invalid : ¬∀ child ∈ contentNodes jn.node.children, validContent child = true := by
        rw [passed] at ok
        intro all
        rw [List.all_eq_true.mpr all] at ok
        cases ok
      rw [(freed passed).2, empty]
      unfold CheckedWhole
      cases nodes : contentNodes jn.node.children with
      | nil => simp [nodes] at some_invalid
      | cons first rest =>
          cases valid : validContent first with
          | true => simpa [nodes, valid] using some_invalid
          | false => simp [valid]

/-- Looking a session up for the checked node is looking it up for the node. -/
theorem sessionFind_checkContents (s : State) (jn : JingleNode)
    : sessionFind s (checkContents jn).jn = sessionFind s jn := by
  obtain ⟨message, sid⟩ := checkContentsLoop_node jn none jn.node.children
  simp only [sessionFind, checkContents, message, sid]

-----------------------------------------------------------------------------------------
-- Requests about a session that is not listed
-----------------------------------------------------------------------------------------

/-- The reply `unknown-session`. -/
def unknownSession (message : LmMessage) : Sent :=
  .reply message (jingleNewIqError message "cancel" "item-not-found" (some "unknown-session"))

/-- The actions that need a session. -/
def JingleAction.needsSession : JingleAction → Bool
  | .sessionInfo => true
  | .sessionAccept => true
  | .sessionTerminate => true
  | .transportInfo => true
  | _ => false

/-- A request that names no listed session is answered so, and nothing else happens. -/
theorem jingleHandleIq_unknown {env : Env} (w : World) {s : State} {message : LmMessage}
    {jn : JingleNode} (valid : jingleRequest env message = some jn)
    (needs : jn.action.needsSession = true) (absent : sessionFind s jn = none)
    : jingleHandleIq env w message s
      = .done .removeMessage { s with sent := s.sent ++ [unknownSession message] } := by
  obtain ⟨same, _, notFreed⟩ := jingleRequest_node valid
  have answered {handler : JingleNode → Run JingleNode}
      (handled : actionHandler env w jn.action = some handler)
      (answers : handler jn s
        = .done jn { s with sent := s.sent ++ [unknownSession jn.message] })
      : jingleHandleIq env w message s
        = .done .removeMessage { s with sent := s.sent ++ [unknownSession message] } := by
    rw [jingleHandleIq_request valid handled, bind_done answers, jingleFreeJinglenode, notFreed,
      same]
    rfl
  have missing : sessionFindBySid s jn.sid jn.message.getFrom = none := absent
  cases action : jn.action with
  | sessionInfo =>
      refine answered (congrArg (actionHandler env w) action) ?_
      rw [handleSessionInfo, bind_get, absent]
      rfl
  | sessionAccept =>
      refine answered (congrArg (actionHandler env w) action) ?_
      rw [handleSessionAccept, bind_get, missing]
      rfl
  | sessionTerminate =>
      refine answered (congrArg (actionHandler env w) action) ?_
      rw [handleSessionTerminate, bind_get, absent]
      rfl
  | transportInfo =>
      refine answered (congrArg (actionHandler env w) action) ?_
      rw [handleTransportInfo, bind_get, absent]
      rfl
  | _ => simp [action, JingleAction.needsSession] at needs

/-- The checks of an invitation that do not look at sessions. -/
def acceptable (env : Env) (w : World) (jn : JingleNode) : Bool :=
  let checked := checkContents jn
  jn.message.getFrom.any (fun sender => w.rosterFind (env.jidtodisp sender))
    && checked.ok && !checked.jn.content.isEmpty && checked.jn.content.any validDisposition

/-- What an invitation that opens a session does. -/
def openInvitation (env : Env) (w : World) (jn : JingleNode) : Run JingleNode := do
  createSession env w (checkContents jn).jn (checkContents jn).err
  pure (checkContents jn).jn

/-- An acceptable invitation that names no listed session opens one. -/
theorem handleSessionInitiate_new {env : Env} {w : World} {s : State} {jn : JingleNode}
    (passes : acceptable env w jn = true) (absent : sessionFind s jn = none)
    : handleSessionInitiate env w jn s = openInvitation env w jn s := by
  simp only [acceptable, Bool.and_eq_true, Bool.not_eq_true', Option.any_eq_true] at passes
  obtain ⟨⟨⟨⟨sender, known, listed⟩, ok⟩, filled⟩, disposed⟩ := passes
  have some_content : ¬(checkContents jn).jn.content.length < 1 := by
    cases content : (checkContents jn).jn.content with
    | nil => simp [content] at filled
    | cons cn rest => simp
  have first : (deref .string jn.message.getFrom : Run String) s = .done sender s := by
    rw [known]
    rfl
  rw [handleSessionInitiate, bind_done first, if_neg (by simp [listed]), if_neg (by simp [ok]),
    if_neg some_content, if_neg (by simp [disposed]), bind_get, absent]
  rfl

end McabberJingle
