import McabberJingle.Guarantees.Replies
import McabberJingle.Jingle.Making

/-! Which session-initiates get a session. The guards come one after the other, each with its
own answer, and only what passes all of them changes anything.
-/

namespace McabberJingle

open Program Program.Prog

variable {env : Env} {w : World} {s : State} {jn : JingleNode}

-----------------------------------------------------------------------------------------
-- The guards
-----------------------------------------------------------------------------------------

/-- The conditions of a session in their order, each with the error that answers a request
which fails it.
-/
def guards (env : Env) (w : World) (s : State) (jn : JingleNode)
    : List (Bool × String × Option String) := [
  (jn.message.getFrom.any (fun sender => w.rosterFind (env.jidtodisp sender)),
    "service-unavailable", none),
  ((checkContents jn).ok, "bad-request", none),
  (!(checkContents jn).jn.content.isEmpty, "bad-request", none),
  ((checkContents jn).jn.content.any validDisposition, "bad-request", none),
  ((sessionFind s jn).isNone, "unexpected-request", some "out-of-order")
]

/-- The error for the first condition that fails. -/
def refusal (env : Env) (w : World) (s : State) (jn : JingleNode)
    : Option (String × Option String) :=
  ((guards env w s jn).find? (fun guard => !guard.1)).map Prod.snd

/-- The state after a request was refused: one answer was sent. -/
def State.refused (s : State) (jn : JingleNode) (reason : String × Option String) : State :=
  s.replied jn.message (jingleNewIqError jn.message "cancel" reason.1 reason.2)

theorem refusal_eq_none_iff
    : refusal env w s jn = none ↔ acceptable env w jn = true ∧ sessionFind s jn = none := by
  unfold refusal guards acceptable
  simp only [Option.map_eq_none_iff, List.find?_eq_none, List.mem_cons, List.not_mem_nil, or_false,
    forall_eq_or_imp, forall_eq, Bool.not_eq_true', Bool.not_eq_false, Option.isNone_iff_eq_none,
    Bool.and_eq_true, and_assoc]

/-- By the order of the source: the first guard that fails answers. -/
theorem handleSessionInitiate_refused {sender : String} (known : jn.message.getFrom = some sender)
    {reason : String × Option String} (refused : refusal env w s jn = some reason)
    : ∃ jn', handleSessionInitiate env w jn s = .done jn' (s.refused jn reason) := by
  obtain ⟨_, _, failed⟩ := checkContentsLoop_ends jn none jn.node.children
  have answers (jn' : JingleNode) (cond : String) (jinglecond : Option String)
      : (do jingleSendIqError jn.message "cancel" cond jinglecond; pure jn' : Run JingleNode) s
        = .done jn' (s.refused jn (cond, jinglecond)) := rfl
  simp only [refusal, guards, known, Option.any_some] at refused
  rw [handleSessionInitiate, bind_done (deref_done known)]
  cases listed : w.rosterFind (env.jidtodisp sender) with
  | false =>
      rw [listed] at refused
      cases refused
      refine ⟨jn, ?_⟩
      rw [if_pos rfl]
      exact answers _ _ _
  | true =>
  rw [listed, List.find?_cons_of_neg (by simp)] at refused
  rw [if_neg (by simp)]
  cases ok : (checkContents jn).ok with
  | false =>
      rw [ok] at refused
      cases refused
      have set : (checkContents jn).err.isSome = true := (failed ok).1
      obtain ⟨error, set⟩ := Option.isSome_iff_exists.mp set
      refine ⟨(checkContents jn).jn, ?_⟩
      rw [if_pos rfl, bind_done (deref_done set)]
      exact answers _ _ _
  | true =>
  rw [ok, List.find?_cons_of_neg (by simp)] at refused
  rw [if_neg (by simp)]
  cases content : (checkContents jn).jn.content with
  | nil =>
      rw [content] at refused
      cases refused
      refine ⟨(checkContents jn).jn, ?_⟩
      rw [if_pos (by simp)]
      exact answers _ _ _
  | cons cn rest =>
  rw [content, List.find?_cons_of_neg (by simp)] at refused
  rw [if_neg (by simp)]
  cases disposed : (cn :: rest).any validDisposition with
  | false =>
      rw [disposed] at refused
      cases refused
      refine ⟨(checkContents jn).jn, ?_⟩
      rw [if_pos (by simp)]
      exact answers _ _ _
  | true =>
  rw [disposed, List.find?_cons_of_neg (by simp)] at refused
  rw [if_neg (by simp), bind_get]
  cases found : sessionFind s jn with
  | none =>
      rw [found] at refused
      cases refused
  | some cell =>
      rw [found] at refused
      cases refused
      refine ⟨(checkContents jn).jn, ?_⟩
      rw [if_pos (by simp)]
      exact answers _ _ _

-----------------------------------------------------------------------------------------
-- The gate
-----------------------------------------------------------------------------------------

/-- One session more at the end of the list, with the contents of the request that can be kept, if
there are any; the others are what they were.
-/
def Admitted (env : Env) (w : World) (s s' : State) (jn : JingleNode) : Prop :=
  ∃ fromJid toJid content, jn.message.getFrom = some fromJid ∧ jn.message.getTo = some toJid
    ∧ content.map SessionContent.name
      = ((checkContents jn).jn.content.filter (contentKept env w s)).map JingleContent.name
    ∧ s'.sessions.cells = s.sessions.cells ++ if content = [] then []
      else [(s.sessions.next, { invited jn fromJid toJid with content })]

/-- The request is refused for the first condition it fails, and nothing else happens, or it
passes them all and gets its session.
-/
def GateHolds (env : Env) (w : World) (s : State) (jn : JingleNode) : Prop :=
  ∃ jn' s', handleSessionInitiate env w jn s = .done jn' s'
    ∧ (∀ reason ∈ refusal env w s jn, s' = s.refused jn reason)
    ∧ (refusal env w s jn = none → Admitted env w s s' jn)

/-- A request with a sender that, if it is not refused, has an addressee and contents that
make a session without trouble.
-/
structure Presentable (env : Env) (w : World) (s : State) (jn : JingleNode) : Prop where
  sender : jn.message.getFrom.isSome = true
  addressee : refusal env w s jn = none → jn.message.getTo.isSome = true
  clean : refusal env w s jn = none →
    CleanContents env w s (checkContents jn).jn.content (checkContents jn).err

/-- What a request that passed the guards went through, up to the state `s'` it left. -/
structure Served (env : Env) (w : World) (s s' : State) (jn : JingleNode)
    (fromJid toJid : String) (content : List SessionContent) (s₁ : State)
    : Prop where
  sender : jn.message.getFrom = some fromJid
  addressee : jn.message.getTo = some toJid
  clean : CleanContents env w s (checkContents jn).jn.content (checkContents jn).err
  loop : addContents env w (some s.sessions.next)
    (if (checkContents jn).err.isSome then .set else .null) (checkContents jn).jn.content
    (s.inviting jn fromJid toJid) = .done () s₁
  making : Making env w (s.inviting jn fromJid toJid) s.sessions.next
    (invited jn fromJid toJid) (checkContents jn).jn.content content s₁
  settled : s' = s₁.settling w s.sessions.next (invited jn fromJid toJid) content

theorem invited_checkContents (jn : JingleNode) (fromJid toJid : String)
    : invited (checkContents jn).jn fromJid toJid = invited jn fromJid toJid := by
  have sid : (checkContents jn).jn.sid = jn.sid :=
    (checkContentsLoop_node jn none jn.node.children).2
  rw [invited, invited, sid]

theorem inviting_checkContents (s : State) (jn : JingleNode) (fromJid toJid : String)
    : s.inviting (checkContents jn).jn fromJid toJid = s.inviting jn fromJid toJid := by
  rw [State.inviting, State.inviting, invited_checkContents, checkContents_message]

theorem handleSessionInitiate_served {jn' : JingleNode} {s' : State} (layout : Layout s)
    (passes : refusal env w s jn = none)
    (runs : handleSessionInitiate env w jn s = .done jn' s')
    : ∃ fromJid toJid content s₁, Served env w s s' jn fromJid toJid content s₁ := by
  obtain ⟨acceptable, absent⟩ := refusal_eq_none_iff.mp passes
  rw [handleSessionInitiate_new acceptable absent, openInvitation] at runs
  obtain ⟨_, s₁, created, node⟩ := of_bind_done runs
  cases node
  simp only [McabberJingle.acceptable, Bool.and_eq_true, Option.any_eq_true] at acceptable
  obtain ⟨⟨⟨⟨sender, known, _⟩, _⟩, _⟩, _⟩ := acceptable
  have known' : (checkContents jn).jn.message.getFrom = some sender := by
    rw [checkContents_message, known]
  obtain ⟨_, clean⟩ := (createSession_runs env w (checkContents jn).err known'
    layout.streams).2 _ created
  obtain ⟨toJid, content, s₁, addressee, loop, making, settled⟩ :=
    createSession_makes known' layout.streams created
  rw [checkContents_message] at addressee
  rw [inviting_checkContents] at loop making
  rw [invited_checkContents] at making settled
  exact ⟨sender, toJid, content, s₁, known, addressee, clean, loop, making, settled⟩

/-- A request that passes the guards and is served to its end was fit to be. -/
theorem handleSessionInitiate_admits {jn' : JingleNode} {s' : State} (layout : Layout s)
    (passes : refusal env w s jn = none)
    (runs : handleSessionInitiate env w jn s = .done jn' s')
    : Admitted env w s s' jn ∧ jn.message.getTo.isSome = true
      ∧ CleanContents env w s (checkContents jn).jn.content (checkContents jn).err := by
  obtain ⟨fromJid, toJid, content, s₁, served⟩ := handleSessionInitiate_served layout passes runs
  refine ⟨⟨fromJid, toJid, content, served.sender, served.addressee, ?_, ?_⟩, ?_, served.clean⟩
  · exact served.making.names (s.inviting_listed jn fromJid toJid)
  · rw [served.settled]
    exact served.making.settled_cells
  · rw [served.addressee]
    rfl

/-- A request that passes the guards and can be made a session of is served to its end. -/
theorem handleSessionInitiate_runs (layout : Layout s) (passes : refusal env w s jn = none)
    (addressee : jn.message.getTo.isSome = true)
    (clean : CleanContents env w s (checkContents jn).jn.content (checkContents jn).err)
    : ∃ s', handleSessionInitiate env w jn s = .done (checkContents jn).jn s' := by
  obtain ⟨acceptable, absent⟩ := refusal_eq_none_iff.mp passes
  have checks := acceptable
  simp only [McabberJingle.acceptable, Bool.and_eq_true, Option.any_eq_true] at checks
  obtain ⟨⟨⟨⟨sender, known, _⟩, _⟩, _⟩, _⟩ := checks
  rw [← checkContents_message] at known addressee
  obtain ⟨s', created, _⟩ := (createSession_runs env w (checkContents jn).err known
    layout.streams).1 ⟨addressee, clean⟩
  refine ⟨s', ?_⟩
  rw [handleSessionInitiate_new acceptable absent, openInvitation, bind_done created]
  rfl

/-- In every reachable state the gate holds for exactly the presentable requests. -/
theorem session_gate_holds (run : Reachable env s) (w : World) (jn : JingleNode)
    : GateHolds env w s jn ↔ Presentable env w s jn := by
  have layout := layout_reached run
  constructor
  · intro holds
    obtain ⟨jn', s', runs, _, _⟩ := holds
    have sender : jn.message.getFrom.isSome = true := by
      cases known : jn.message.getFrom with
      | some sender => rfl
      | none =>
          rw [handleSessionInitiate, known] at runs
          cases runs
    exact ⟨sender, fun passes => (handleSessionInitiate_admits layout passes runs).2.1,
      fun passes => (handleSessionInitiate_admits layout passes runs).2.2⟩
  · intro presentable
    obtain ⟨sender, known⟩ := Option.isSome_iff_exists.mp presentable.sender
    cases refused : refusal env w s jn with
    | some reason =>
        obtain ⟨jn', runs⟩ := handleSessionInitiate_refused known refused
        refine ⟨jn', _, runs, fun reason' same => ?_, fun passes => ?_⟩
        · cases refused.symm.trans same
          rfl
        · cases refused.symm.trans passes
    | none =>
        obtain ⟨s', runs⟩ := handleSessionInitiate_runs layout refused
          (presentable.addressee refused) (presentable.clean refused)
        refine ⟨_, s', runs, fun reason same => ?_, fun passes => ?_⟩
        · cases refused.symm.trans same
        · exact (handleSessionInitiate_admits layout passes runs).1

/-- A file offered to us passes the gate. -/
theorem session_gate_holds_offer
    : GateHolds plainEnv plainWorld loaded
        (requestNode .sessionInitiate "s1" [offeredContent "file" "b1"]) :=
  (session_gate_holds (loaded_reached plainEnv _) plainWorld _).mpr
    ⟨by decide, fun _ => by decide, fun _ => by decide +kernel⟩

/-- A content whose file has no size. -/
def sizelessContent (name : String) : LmMessageNode :=
  element "content" [("name", name), ("creator", "initiator")]
    [element "description" [("xmlns", NS_JINGLE_APP_FT)]
      [element "offer" [] [element "file" [("xmlns", NS_SI_FT), ("name", "notes")] []]],
     element "transport"
      [("xmlns", NS_JINGLE_TRANSPORT_IBB), ("sid", name), ("block-size", "4096")] []]

/-- Two contents that cannot be added: the error of the first is freed again with the second,
and the session stays.
-/
theorem sizeless_contents_crash
    : ¬∀ (env : Env) (w : World) (s : State) (message : LmMessage) (jn : JingleNode),
        Reachable env s → jingleRequest env message = some jn → jn.action = .sessionInitiate →
        GateHolds env w s jn := by
  intro claim
  let contents := [sizelessContent "a", sizelessContent "b"]
  have valid : jingleRequest plainEnv
      (jingleSet "romeo@verona/a" "session-initiate" "s1" contents)
      = some (requestNode .sessionInitiate "s1" contents) := by
    rfl
  have run : Reachable plainEnv loaded := loaded_reached plainEnv _
  obtain ⟨jn', s', runs, _⟩ := claim plainEnv plainWorld loaded _ _ run valid rfl
  have admits := handleSessionInitiate_admits (layout_reached run) (by decide +kernel) runs
  exact absurd admits.2.2 (by decide +kernel)

end McabberJingle
