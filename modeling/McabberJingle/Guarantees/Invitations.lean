import McabberJingle.Guarantees.Gate
import McabberJingle.Guarantees.Validation

/-! Whether an invitation that passes the gate gets the contents it asks for. All contents
share one error variable: an error that was printed is freed but not reset, and one that
`check_contents` set is printed with the first content that has its modules.
-/

namespace McabberJingle

open Program Program.Prog

variable {env : Env} {w : World} {s₀ s : State} {p : SessionPtr} {js : JingleSession}

-----------------------------------------------------------------------------------------
-- What the loop prints
-----------------------------------------------------------------------------------------

/-- The variable `err` of `handle_session_initiate` with the error it points to. -/
inductive ErrPtr where
  | null
  | set (error : GError)
  | dangling

/-- The variable without the error. -/
def ErrPtr.var : ErrPtr → ErrVar
  | .null => .null
  | .set _ => .set
  | .dangling => .dangling

/-- The variable after `check_contents`. -/
def ErrPtr.ofOption : Option GError → ErrPtr
  | none => .null
  | some error => .set error

/-- `g_propagate_error`: an error that is there already is kept. -/
def ErrPtr.propagate (err : ErrPtr) : Option GError → ErrPtr
  | none => err
  | some error =>
      match err with
      | .null => .set error
      | err => err

/-- `addContents` with what it prints: the content it is at, and the error. -/
def addContentsPrinting (env : Env) (w : World) (sess : Option SessionPtr)
    : ErrPtr → List JingleContent → Run (List (JingleContent × GError))
  | _, [] => pure []
  | err, cn :: rest => do
      let s ← Prog.get
      if (jingleGetAppfuncs s (cn.description.getAttribute "xmlns")).isNone
          || (jingleGetTransportfuncs s (cn.transport.getAttribute "xmlns")).isNone then
        addContentsPrinting env w sess err rest
      else
        let p ← deref .session sess
        let error ← sessionAddContentFromJinglecontent env w p cn .pending
        match err.propagate error with
        | .null => addContentsPrinting env w sess .null rest
        | .set error => do
            let printed ← addContentsPrinting env w sess .dangling rest
            pure ((cn, error) :: printed)
        | .dangling => Prog.fail (.useAfterFree .gerror)

theorem ErrPtr.var_propagate (err : ErrPtr) (error : Option GError)
    : (err.propagate error).var = err.var.propagate error := by
  cases error <;> cases err <;> rfl

/-- A turn of the loop that prints, for a content that has its modules. -/
theorem addContentsPrinting_turn {cn : JingleContent} {error : Option GError} {s' : State}
    (rest : List JingleContent) (err : ErrPtr) (processed : contentProcessed s cn = true)
    (adds : sessionAddContentFromJinglecontent env w p cn .pending s = .done error s')
    : addContentsPrinting env w (some p) err (cn :: rest) s
      = (match err.propagate error with
        | .null => addContentsPrinting env w (some p) .null rest
        | .set error => do
            let printed ← addContentsPrinting env w (some p) .dangling rest
            pure ((cn, error) :: printed)
        | .dangling => Prog.fail (.useAfterFree .gerror) : Run (List (JingleContent × GError)))
        s' := by
  rw [addContentsPrinting, bind_get, contentProcessed_eq, processed, if_neg (by simp),
    bind_done (deref_done rfl), bind_done adds]

theorem addContentsPrinting_skip {cn : JingleContent} {rest : List JingleContent}
    (sess : Option SessionPtr) (err : ErrPtr) (skipped : contentProcessed s cn = false)
    : addContentsPrinting env w sess err (cn :: rest) s
      = addContentsPrinting env w sess err rest s := by
  rw [addContentsPrinting, bind_get, contentProcessed_eq, skipped, if_pos (by simp)]

/-- By induction on the contents: printing changes nothing. -/
theorem addContentsPrinting_var (err : ErrPtr) (contents : List JingleContent)
    : (do
        let _ ← addContentsPrinting env w (some p) err contents
        pure () : Run Unit) s
      = addContents env w (some p) err.var contents s := by
  induction contents generalizing s err with
  | nil => rfl
  | cons cn rest ih =>
      rw [addContents, bind_get, contentProcessed_eq]
      cases processed : contentProcessed s cn with
      | false =>
          rw [bind_congr_run (addContentsPrinting_skip _ err processed), if_pos (by simp)]
          exact ih err
      | true =>
      rw [if_neg (by simp), bind_done (deref_done rfl)]
      cases adds : sessionAddContentFromJinglecontent env w p cn .pending s with
      | fault error s₁ =>
          have stops : addContentsPrinting env w (some p) err (cn :: rest) s
              = .fault error s₁ := by
            rw [addContentsPrinting, bind_get, contentProcessed_eq, processed, if_neg (by simp),
              bind_done (deref_done rfl), bind_fault adds]
          rw [bind_fault stops, bind_fault adds]
      | done error s₁ =>
          have turn := addContentsPrinting_turn rest err processed adds
          rw [bind_done adds, ← ErrPtr.var_propagate]
          cases raised : err.propagate error with
          | null =>
              rw [raised] at turn
              rw [bind_congr_run turn]
              exact ih .null
          | set error =>
              rw [raised] at turn
              rw [bind_congr_run turn]
              exact (congrFun (bind_bind _ _ _).symm s₁).trans (ih .dangling)
          | dangling =>
              rw [raised] at turn
              rw [bind_congr_run turn]
              rfl

-----------------------------------------------------------------------------------------
-- Whose errors they are
-----------------------------------------------------------------------------------------

/-- The error that `check_content` sets for a creator it does not know. -/
def creatorError : GError := { code := .badvalue, message := "the creator attribute is invalid" }

/-- An error of the content itself: its creator is unknown, or it could not be added. -/
def OwnError (env : Env) (w : World) (s : State) (cn : JingleContent) (error : GError) : Prop :=
  contentError env w s cn = some error ∨ (cn.creator = none ∧ error = creatorError)

theorem SameModules.contentError {s s' : State} (same : SameModules s s') (cn : JingleContent)
    : contentError env w s' cn = contentError env w s cn := by
  have parses (transfuncs : JingleTransportFuncs)
      : failure (transfuncs.parse env w s' cn) = failure (transfuncs.parse env w s cn) := by
    cases transfuncs with
    | ibb => rfl
    | s5b =>
        simp only [JingleTransportFuncs.parse]
        cases cn.transport.getAttribute "sid" <;> rfl
  simp only [McabberJingle.contentError, jingleGetTransportfuncs, jingleFindTransport, same.2,
    parses]

theorem State.adding_modules (env : Env) (w : World) (p : SessionPtr) (s : State)
    (cn : JingleContent)
    : SameModules s (s.adding env w p cn) := by
  obtain ⟨_, _, same⟩ | ⟨_, _, _, jft, adds⟩ | ⟨_, _, _, _, jft, transport, _, _, _, _, adds⟩ :=
    State.adding_cases env w p s cn
  · rw [same]
    exact ⟨rfl, rfl⟩
  · rw [adds]
    exact ⟨rfl, rfl⟩
  · rw [adds]
    cases transport <;> exact ⟨rfl, rfl⟩

theorem SameModules.trans {s s' s'' : State} (first : SameModules s s')
    (second : SameModules s' s'')
    : SameModules s s'' :=
  ⟨second.1.trans first.1, second.2.trans first.2⟩

section Loop

variable {s' : State} {contents : List JingleContent} {printed : List (JingleContent × GError)}

/-- With a dangling error the loop gets to its end only past contents without modules. -/
theorem printing_dangling (listed : s.sessions.get? p = some js)
    (runs : addContentsPrinting env w (some p) .dangling contents s = .done printed s')
    : printed = [] ∧ ∀ cn ∈ contents, contentProcessed s cn = false := by
  induction contents with
  | nil =>
      cases runs
      exact ⟨rfl, fun _ member => absurd member List.not_mem_nil⟩
  | cons cn rest ih =>
      cases processed : contentProcessed s cn with
      | false =>
          rw [addContentsPrinting_skip _ _ processed] at runs
          obtain ⟨nothing, others⟩ := ih runs
          exact ⟨nothing, List.forall_mem_cons.mpr ⟨processed, others⟩⟩
      | true =>
          have adds := sessionAddContentFromJinglecontent_adds env w listed processed
          rw [addContentsPrinting_turn rest _ processed adds] at runs
          have kept : ErrPtr.dangling.propagate (contentError env w s cn) = .dangling := by
            cases contentError env w s cn <;> rfl
          rw [kept] at runs
          cases runs

/-- Without an error before, each content that fails prints its own. -/
theorem printing_null (listed : s.sessions.get? p = some js) (modules : SameModules s₀ s)
    (runs : addContentsPrinting env w (some p) .null contents s = .done printed s')
    : ∀ entry ∈ printed, contentError env w s₀ entry.1 = some entry.2 := by
  induction contents generalizing s js with
  | nil =>
      cases runs
      exact fun _ member => absurd member List.not_mem_nil
  | cons cn rest ih =>
      cases processed : contentProcessed s cn with
      | false =>
          rw [addContentsPrinting_skip _ _ processed] at runs
          exact ih listed modules runs
      | true =>
          have adds := sessionAddContentFromJinglecontent_adds env w listed processed
          rw [addContentsPrinting_turn rest _ processed adds] at runs
          obtain ⟨content, listed'⟩ := State.adding_listed env w cn listed
          cases error : contentError env w s cn with
          | none =>
              rw [error] at runs
              exact ih listed' (modules.trans (State.adding_modules env w p s cn)) runs
          | some error' =>
              rw [error] at runs
              obtain ⟨later, s₁, rest, ends⟩ := of_bind_done runs
              cases ends
              obtain ⟨nothing, _⟩ := printing_dangling listed' rest
              rw [nothing]
              intro entry member
              rw [List.mem_singleton.mp member, ← modules.contentError]
              exact error

/-- An error that was set before is printed with the first content that has its modules. -/
theorem printing_set (listed : s.sessions.get? p = some js) {error : GError}
    (runs : addContentsPrinting env w (some p) (.set error) contents s = .done printed s')
    : (∀ entry ∈ printed, entry.1 ∈ contents ∧ contentProcessed s entry.1 = true
        ∧ entry.2 = error)
      ∧ ∀ cn ∈ contents, contentProcessed s cn = true → (cn, error) ∈ printed := by
  induction contents with
  | nil =>
      cases runs
      exact ⟨fun _ member => absurd member List.not_mem_nil,
        fun _ member => absurd member List.not_mem_nil⟩
  | cons cn rest ih =>
      cases processed : contentProcessed s cn with
      | false =>
          rw [addContentsPrinting_skip _ _ processed] at runs
          obtain ⟨only, all⟩ := ih runs
          refine ⟨fun entry member => ?_, fun cn' member processed' => ?_⟩
          · obtain ⟨there, rest⟩ := only entry member
            exact ⟨List.mem_cons_of_mem _ there, rest⟩
          · cases List.mem_cons.mp member with
            | inl same =>
                rw [same, processed] at processed'
                cases processed'
            | inr later => exact all cn' later processed'
      | true =>
          have adds := sessionAddContentFromJinglecontent_adds env w listed processed
          rw [addContentsPrinting_turn rest _ processed adds] at runs
          obtain ⟨content, listed'⟩ := State.adding_listed env w cn listed
          have kept : (ErrPtr.set error).propagate (contentError env w s cn) = .set error := by
            cases contentError env w s cn <;> rfl
          rw [kept] at runs
          obtain ⟨later, s₁, rest, ends⟩ := of_bind_done runs
          cases ends
          obtain ⟨nothing, others⟩ := printing_dangling listed' rest
          rw [nothing]
          refine ⟨fun entry member => ?_, fun cn' member processed' => ?_⟩
          · rw [List.mem_singleton.mp member]
            exact ⟨List.mem_cons_self, processed, rfl⟩
          · cases List.mem_cons.mp member with
            | inl same => exact same ▸ List.mem_singleton_self _
            | inr later =>
                have none := others cn' later
                rw [(State.adding_modules env w p s cn).processed, processed'] at none
                cases none

end Loop

/-- A content that is returned sets no error but for its creator. -/
theorem checkContent_err {child : LmMessageNode} {err err' : Option GError} {cn : JingleContent}
    (checked : checkContent child err = (some cn, err'))
    : err' = err ∨ err' = setError err creatorError := by
  cases named : child.getAttribute "name" with
  | none =>
      unfold checkContent at checked
      rw [named] at checked
      cases checked
  | some name =>
      rw [checkContent_eq child err named] at checked
      dsimp only at checked
      cases sent : sendersOf (child.getAttribute "senders") with
      | none =>
          rw [sent] at checked
          cases checked
      | some senders =>
      cases described : child.getChild "description" with
      | none =>
          rw [sent, described] at checked
          cases checked
      | some description =>
      cases carried : child.getChild "transport" with
      | none =>
          rw [sent, described, carried] at checked
          cases checked
      | some transport =>
          rw [sent, described, carried] at checked
          have same := congrArg Prod.snd checked
          dsimp only [Option.elim_some] at same
          split at same
          · exact .inl same.symm
          · exact .inr same.symm

/-- By induction on the children: only creators have set the error of contents that pass. -/
theorem checkContentsLoop_err {jn : JingleNode} {err : Option GError}
    {children : List LmMessageNode} (before : ∀ error ∈ err, error = creatorError)
    (passes : (checkContentsLoop jn err children).ok = true)
    : ∀ error ∈ (checkContentsLoop jn err children).err, error = creatorError := by
  induction children generalizing jn err with
  | nil => exact before
  | cons child rest ih =>
      rw [checkContentsLoop] at passes ⊢
      by_cases named : child.name = "content"
      · rw [if_pos named] at passes ⊢
        cases checked : checkContent child err with
        | mk content err' =>
            rw [checked] at passes
            cases content with
            | none => cases passes
            | some cn =>
                refine ih ?_ passes
                obtain rfl | rfl := checkContent_err checked
                · exact before
                · intro error set
                  cases set
                  cases err with
                  | none => rfl
                  | some error => exact before error rfl
      · rw [if_neg named] at passes ⊢
        exact ih before passes

/-- What a content is refused for is not its creator. -/
theorem contentError_ne_creatorError (cn : JingleContent)
    : contentError env w s cn ≠ some creatorError := by
  have offer : failure (FileTransfer.parseOffer env w cn) ≠ some creatorError := by
    have other (err : GError) (message : err.message ≠ creatorError.message)
        : failure (.error err : Except GError JingleFT) ≠ some creatorError :=
      fun same => message (congrArg GError.message (Option.some.inj same))
    unfold FileTransfer.parseOffer
    split
    · exact other _ (by decide)
    split
    · exact other _ (by decide)
    split
    · exact other _ (by decide)
    split
    · dsimp only
      split
      · exact other _ (by decide)
      split
      · exact other _ (by decide)
      split
      · exact other _ (by decide)
      intro same
      cases same
    · exact other _ (by decide)
  have transport (transfuncs : JingleTransportFuncs)
      : failure (transfuncs.parse env w s cn) ≠ some creatorError := by
    cases transfuncs with
    | ibb =>
        simp only [JingleTransportFuncs.parse, Ibb.parseTransport]
        split
        · intro same
          cases same
        · simp [Except.map, failure, creatorError]
    | s5b =>
        simp only [JingleTransportFuncs.parse]
        split
        · simp [failure, creatorError]
        · intro same
          cases same
  unfold contentError
  cases failed : failure (FileTransfer.parseOffer env w cn) with
  | some error =>
      rw [failed] at offer
      exact offer
  | none =>
      rw [Option.none_or]
      intro set
      obtain ⟨transfuncs, _, failed⟩ := Option.bind_eq_some_iff.mp set
      exact transport transfuncs failed

-----------------------------------------------------------------------------------------
-- The whole invitation
-----------------------------------------------------------------------------------------

/-- The session that is there after an invitation: one content for each element that can be
added, in their order and as it was sent, and each error that is printed is that of the
content it is printed with.
-/
structure AsSent (env : Env) (w : World) (s s' : State) (jn : JingleNode)
    (fromJid toJid : String) (content : List SessionContent)
    : Prop where
  sender : jn.message.getFrom = some fromJid
  addressee : jn.message.getTo = some toJid
  contents : List.Forall₂ (Made env w s s')
    ((checkContents jn).jn.content.filter (contentKept env w s)) content
  session : content ≠ [] →
    s'.sessions.get? s.sessions.next = some { invited jn fromJid toJid with content }
  errors : ∃ printed s₁,
    addContentsPrinting env w (some s.sessions.next) (.ofOption (checkContents jn).err)
        (checkContents jn).jn.content (s.inviting jn fromJid toJid) = .done printed s₁
      ∧ ∀ entry ∈ printed, OwnError env w s entry.1 entry.2

/-- The invitation is served to its end, with a session that is as it was sent. -/
def ContentsAsSent (env : Env) (w : World) (s : State) (jn : JingleNode) : Prop :=
  ∃ jn' s' fromJid toJid content, handleSessionInitiate env w jn s = .done jn' s'
    ∧ AsSent env w s s' jn fromJid toJid content

/-- An invitation whose contents do not get in each other's way. -/
structure Separate (env : Env) (w : World) (s : State) (jn : JingleNode) : Prop where
  addressee : jn.message.getTo.isSome = true
  clean : CleanContents env w s (checkContents jn).jn.content (checkContents jn).err
  described : (describedNames env w s (checkContents jn).jn.content).Nodup
  creators : (checkContents jn).err.isSome = true →
    ∀ cn ∈ (checkContents jn).jn.content, contentProcessed s cn = true → cn.creator = none

theorem ErrPtr.var_ofOption (err : Option GError)
    : (ErrPtr.ofOption err).var = if err.isSome then .set else .null := by
  cases err <;> rfl

section Invitation

variable {jn : JingleNode} {s' : State} {fromJid toJid : String} {content : List SessionContent}

/-- The same loop prints, whether or not anyone looks. -/
theorem Served.prints (served : Served env w s s' jn fromJid toJid content s₀)
    : ∃ printed, addContentsPrinting env w (some s.sessions.next) (.ofOption (checkContents jn).err)
        (checkContents jn).jn.content (s.inviting jn fromJid toJid) = .done printed s₀ := by
  have loop := served.loop
  rw [← ErrPtr.var_ofOption, ← addContentsPrinting_var] at loop
  obtain ⟨printed, s₁, runs, ends⟩ := of_bind_done loop
  cases ends
  exact ⟨printed, runs⟩

/-- What is printed is the contents' own exactly if an error of `check_contents` meets only
contents whose creator is unknown.
-/
theorem printed_own_iff
    (passes : (checkContents jn).ok = true) {printed : List (JingleContent × GError)} {s₁ : State}
    (runs : addContentsPrinting env w (some s.sessions.next) (.ofOption (checkContents jn).err)
      (checkContents jn).jn.content (s.inviting jn fromJid toJid) = .done printed s₁)
    : (∀ entry ∈ printed, OwnError env w s entry.1 entry.2)
      ↔ ((checkContents jn).err.isSome = true →
        ∀ cn ∈ (checkContents jn).jn.content, contentProcessed s cn = true →
          cn.creator = none) := by
  have listed := s.inviting_listed jn fromJid toJid
  have modules : SameModules s (s.inviting jn fromJid toJid) := ⟨rfl, rfl⟩
  cases set : (checkContents jn).err with
  | none =>
      rw [set] at runs
      have own := printing_null listed modules runs
      exact ⟨fun _ none => (by cases none), fun _ entry member => .inl (own entry member)⟩
  | some error =>
      have creator : error = creatorError :=
        checkContentsLoop_err (fun _ none => by cases none) passes error set
      rw [set] at runs
      obtain ⟨only, all⟩ := printing_set listed runs
      simp only [modules.processed] at only all
      constructor
      · intro own _ cn member processed
        obtain failed | ⟨unknown, _⟩ := own _ (all cn member processed)
        · rw [creator] at failed
          exact absurd failed (contentError_ne_creatorError cn)
        · exact unknown
      · intro unknown entry member
        obtain ⟨there, processed, same⟩ := only entry member
        exact .inr ⟨unknown rfl entry.1 there processed, same.trans creator⟩

theorem Made.congr {s₁ : State} {cn : JingleContent} {sc : SessionContent}
    (made : Made env w s₀ s cn sc) (list : s₁.infoList = s.infoList)
    (transports : s₁.transports = s.transports)
    : Made env w s₀ s₁ cn sc := by
  refine ⟨made.name, made.state, ?_, ?_⟩
  · rw [list]
    exact made.description
  · rw [transports]
    exact made.transport

theorem Made.base {s₁ : State} {cn : JingleContent} {sc : SessionContent}
    (made : Made env w (s.inviting jn fromJid toJid) s₁ cn sc)
    : Made env w s s₁ cn sc :=
  ⟨made.name, made.state, made.description, made.transport⟩

theorem State.settling_same (s : State) (w : World) (p : SessionPtr) (js : JingleSession)
    (content : List SessionContent)
    : (s.settling w p js content).infoList = s.infoList
      ∧ (s.settling w p js content).transports = s.transports := by
  unfold State.settling State.asking
  split
  · exact ⟨rfl, rfl⟩
  · split <;> exact ⟨rfl, rfl⟩

/-- The listed session has the contents that were made. -/
theorem Served.session (served : Served env w s s' jn fromJid toJid content s₀)
    (filled : content ≠ [])
    : s'.sessions.get? s.sessions.next = some { invited jn fromJid toJid with content } := by
  rw [Pool.get?_eq_some_iff, served.settled, served.making.settled_cells, if_neg filled]
  exact List.mem_append_right _ (List.mem_singleton_self _)

theorem Served.asSent (served : Served env w s s' jn fromJid toJid content s₀)
    (passes : (checkContents jn).ok = true) (separate : Separate env w s jn)
    : AsSent env w s s' jn fromJid toJid content := by
  obtain ⟨list, transports⟩ :=
    s₀.settling_same w s.sessions.next (invited jn fromJid toJid) content
  obtain ⟨printed, runs⟩ := served.prints
  refine ⟨served.sender, served.addressee, ?_, served.session, printed, s₀, runs,
    (printed_own_iff passes runs).mpr separate.creators⟩
  have made := served.making.made separate.described
  rw [← served.settled] at list transports
  exact made.imp (fun _ _ made => made.base.congr list transports)

theorem Served.separate {content' : List SessionContent}
    (served : Served env w s s' jn fromJid toJid content s₀)
    (passes : (checkContents jn).ok = true)
    (sent : AsSent env w s s' jn fromJid toJid content')
    : Separate env w s jn := by
  have same : content' = content := by
    have start := s.inviting_listed jn fromJid toJid
    have names := congrArg List.length (served.making.names start)
    have lengths := sent.contents.length_eq
    rw [List.length_map, List.length_map] at names
    have equal : content.length = content'.length := names.trans lengths
    cases content with
    | nil => exact List.eq_nil_of_length_eq_zero equal.symm
    | cons sc rest =>
        have filled : content' ≠ [] := by
          intro empty
          rw [empty] at equal
          cases equal
        have listed := (sent.session filled).symm.trans (served.session (List.cons_ne_nil _ _))
        exact congrArg JingleSession.content (Option.some.inj listed)
  obtain ⟨printed, s₁, runs, own⟩ := sent.errors
  refine ⟨?_, served.clean, ?_, (printed_own_iff passes runs).mp own⟩
  · rw [served.addressee]
    rfl
  · by_contra repeats
    obtain ⟨sc, member, foreign⟩ := served.making.foreign repeats
    rw [same] at sent
    obtain ⟨cn, _, made⟩ := forall₂_mem_right sent.contents member
    exact foreign made.keepsDescription

end Invitation

/-- An invitation that passes the gate in a reachable state gets its contents as they were sent
exactly if they do not get in each other's way.
-/
theorem contents_as_sent {jn : JingleNode} (run : Reachable env s)
    (passes : refusal env w s jn = none)
    : ContentsAsSent env w s jn ↔ Separate env w s jn := by
  have layout := layout_reached run
  have ok : (checkContents jn).ok = true := by
    have checks := (refusal_eq_none_iff.mp passes).1
    simp only [acceptable, Bool.and_eq_true] at checks
    exact checks.1.1.2
  constructor
  · intro holds
    obtain ⟨jn', s', fromJid, toJid, content', runs, sent⟩ := holds
    obtain ⟨fromJid', toJid', content, s₁, served⟩ :=
      handleSessionInitiate_served layout passes runs
    cases served.sender.symm.trans sent.sender
    cases served.addressee.symm.trans sent.addressee
    exact served.separate ok sent
  · intro separate
    obtain ⟨s', runs⟩ := handleSessionInitiate_runs layout passes separate.addressee
      separate.clean
    obtain ⟨fromJid, toJid, content, s₁, served⟩ :=
      handleSessionInitiate_served layout passes runs
    exact ⟨_, s', fromJid, toJid, content, runs, served.asSent ok separate⟩

/-- Two files in one invitation. -/
theorem contents_as_sent_two
    : ContentsAsSent plainEnv plainWorld loaded (requestNode .sessionInitiate "s1"
        [offeredContent "a" "b1", offeredContent "b" "b2"]) := by
  have run : Reachable plainEnv loaded := loaded_reached plainEnv _
  exact (contents_as_sent run (by decide +kernel)).mpr
    ⟨by decide, by decide +kernel, by decide +kernel, by decide +kernel⟩

/-- A content without a file size before a good one: its error was freed when the good one is
added, and is reported again.
-/
theorem sizeless_content_stops_next
    : ¬∀ (env : Env) (w : World) (s : State) (jn : JingleNode), Reachable env s →
        refusal env w s jn = none → ContentsAsSent env w s jn := by
  intro claim
  have run : Reachable plainEnv loaded := loaded_reached plainEnv _
  obtain ⟨_, s', _, _, _, runs, _⟩ := claim plainEnv plainWorld loaded
    (requestNode .sessionInitiate "s1" [sizelessContent "a", offeredContent "b" "b1"]) run
    (by decide +kernel)
  have admits := handleSessionInitiate_admits (layout_reached run) (by decide +kernel) runs
  exact absurd admits.2.2 (by decide +kernel)

end McabberJingle
