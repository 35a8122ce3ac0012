import McabberJingle.Jingle.Invitation

/-! When the code gets to the end of a session-accept, and what it changes on the way. -/

namespace McabberJingle

open Program Program.Prog

variable {env : Env} {s : State}

-----------------------------------------------------------------------------------------
-- One transport
-----------------------------------------------------------------------------------------

/-- Whether a transport module can take the `<transport/>` of a session-accept. -/
def JingleTransportFuncs.ready (s : State) (t : TransportPtr) (node : LmMessageNode)
    : JingleTransportFuncs → Bool
  | .ibb =>
      node.getAttribute "xmlns" != some NS_JINGLE_TRANSPORT_IBB
        || (s.transports.get? t).any Transport.isIbb
  | .s5b => (s.transports.get? t).any (fun transport => !transport.isIbb)

/-- The transports are those of `s`, each of the kind it had. -/
def SameKinds (s s' : State) : Prop :=
  ∀ t, (s'.transports.get? t).map Transport.isIbb = (s.transports.get? t).map Transport.isIbb

theorem SameKinds.ready {s' : State} (same : SameKinds s s') (t : TransportPtr)
    (node : LmMessageNode) (transfuncs : JingleTransportFuncs)
    : transfuncs.ready s' t node = transfuncs.ready s t node := by
  have kind := same t
  cases transfuncs <;> simp only [JingleTransportFuncs.ready] <;>
    cases found : s.transports.get? t <;> cases found' : s'.transports.get? t <;>
      simp_all

/-- What a transport does with its part of a session-accept. -/
def acceptTransport (env : Env) (transfuncs : JingleTransportFuncs) (t : TransportPtr)
    (node : LmMessageNode) (sc : SessionContentRef)
    : Run Unit := do
  let _ ← runHandle env transfuncs .sessionAccept t node
  Prog.modify (fun s => { s with inits := s.inits ++ [(sc, t)] })
  transfuncs.init sc t

/-- What a module makes of the transport that the `<transport/>` of a session-accept is for. -/
def JingleTransportFuncs.takes (env : Env) (node : LmMessageNode)
    : JingleTransportFuncs → Transport → Transport
  | .ibb, .ibb jibb =>
      if node.getAttribute "xmlns" = some NS_JINGLE_TRANSPORT_IBB then
        let blocksize := Ibb.toGuint64 (gAsciiStrtoll (node.getAttribute "block-size"))
        .ibb { jibb with
          blocksize := if blocksize < jibb.blocksize then blocksize else jibb.blocksize }
      else
        .ibb jibb
  | .s5b, .s5b js5b => .s5b { js5b with candidates := S5b.parseCandidates env node }
  | _, transport => transport

/-- What handling and initialising the transport `t` changes. -/
structure TransportTaken (env : Env) (transfuncs : JingleTransportFuncs) (node : LmMessageNode)
    (s s' : State) (sc : SessionContentRef) (t : TransportPtr)
    : Prop where
  kinds : SameKinds s s'
  sessions : s'.sessions = s.sessions
  sent : s'.sent = s.sent
  staleReads : s'.staleReads = s.staleReads
  taken : s'.transports.get? t = (s.transports.get? t).map (transfuncs.takes env node)
  others : ∀ t', t' ≠ t → s'.transports.get? t' = s.transports.get? t'
  inits : s'.inits = s.inits ++ [(sc, t)]
  starts : s'.starts = s.starts

/-- Writing a transport back keeps its kind. -/
theorem sameKinds_modify {t : TransportPtr} {old new : Transport}
    (there : s.transports.get? t = some old) (kind : new.isIbb = old.isIbb)
    : SameKinds s { s with transports := s.transports.modify t (fun _ => new) } := by
  intro t'
  by_cases here : t' = t
  · subst here
    simp [there, kind]
  · simp only [Pool.get?_modify_of_ne _ here]

theorem acceptTransport_runs (env : Env) (transfuncs : JingleTransportFuncs) (t : TransportPtr)
    (node : LmMessageNode) (sc : SessionContentRef)
    : (transfuncs.ready s t node = true →
        ∃ s', acceptTransport env transfuncs t node sc s = .done () s'
          ∧ TransportTaken env transfuncs node s s' sc t)
      ∧ (transfuncs.ready s t node = false →
        ∃ error s', acceptTransport env transfuncs t node sc s = .fault error s') := by
  have handles := runHandle_eq env transfuncs .sessionAccept t node s
  let s₀ := s.handling t node
  cases transfuncs with
  | ibb =>
      by_cases ours : node.getAttribute "xmlns" = some NS_JINGLE_TRANSPORT_IBB
      · have reads (s : State) : JingleTransportFuncs.ibb.handle env .sessionAccept t node s
            = (do
              let jibb ← readIbb t
              let blocksize := Ibb.toGuint64 (gAsciiStrtoll (node.getAttribute "block-size"))
              writeIbb t { jibb with
                blocksize := if blocksize < jibb.blocksize then blocksize else jibb.blocksize }
              pure .handled : Run JingleHandleStatus) s := by
          rw [JingleTransportFuncs.handle, Ibb.handle, if_pos ⟨rfl, ours⟩]
        simp only [JingleTransportFuncs.ready, ours, bne_self_eq_false, Bool.false_or]
        constructor
        · intro isIbb
          obtain ⟨jibb, there⟩ := exists_ibb isIbb
          have there₀ : s₀.transports.get? t = some (.ibb jibb) := there
          have taken := handles.trans ((reads s₀).trans (bind_done (readIbb_done there₀)))
          refine ⟨_, bind_done taken, sameKinds_modify there rfl, rfl, rfl, rfl, ?_,
            fun t' other => Pool.get?_modify_of_ne _ other, rfl, rfl⟩
          rw [there, Option.map_some, JingleTransportFuncs.takes, if_pos ours]
          exact (Pool.get?_modify_self _ _ _).trans (by rw [there₀]; rfl)
        · intro notIbb
          obtain ⟨error, fault⟩ := readIbb_fault (s := s₀) notIbb
          exact ⟨error, s₀, bind_fault (handles.trans ((reads s₀).trans (bind_fault fault)))⟩
      · have passes : JingleTransportFuncs.ibb.handle env .sessionAccept t node s₀
            = .done .notHandled s₀ := by
          rw [JingleTransportFuncs.handle, Ibb.handle, if_neg (fun both => ours both.2)]
          rfl
        have ready : JingleTransportFuncs.ibb.ready s t node = true := by
          simp [JingleTransportFuncs.ready, ours]
        have same : JingleTransportFuncs.ibb.takes env node = id := by
          funext transport
          cases transport with
          | ibb jibb => exact if_neg ours
          | s5b js5b => rfl
        rw [ready]
        refine ⟨fun _ => ⟨_, bind_done (handles.trans passes), fun _ => rfl, rfl, rfl, rfl, ?_,
          fun _ _ => rfl, rfl, rfl⟩, fun h => by cases h⟩
        rw [same, Option.map_id]
        rfl
  | s5b =>
      have reads (s : State) : JingleTransportFuncs.s5b.handle env .sessionAccept t node s
          = (do
            let js5b ← readS5b t
            modifyTransport t (fun _ =>
              .s5b { js5b with candidates := S5b.parseCandidates env node })
            pure .handled : Run JingleHandleStatus) s := rfl
      constructor
      · intro isS5b
        obtain ⟨js5b, there⟩ := exists_s5b isS5b
        let taken : Transport := .s5b { js5b with candidates := S5b.parseCandidates env node }
        let s₁ : State := { s₀ with transports := s₀.transports.modify t (fun _ => taken) }
        have there₀ : s₀.transports.get? t = some (.s5b js5b) := there
        have handled : runHandle env .s5b .sessionAccept t node s = .done .handled s₁ :=
          handles.trans ((reads s₀).trans (bind_done (readS5b_done there₀)))
        let s₂ : State := { s₁ with inits := s₁.inits ++ [(sc, t)] }
        have there₂ : s₂.transports.get? t = some taken := by
          simp [s₂, s₁, there₀]
        have recorded
            : (Prog.modify (fun s => { s with inits := s.inits ++ [(sc, t)] }) : Run Unit) s₁
              = .done () s₂ := rfl
        refine ⟨s₂, ?_, sameKinds_modify there rfl, rfl, rfl, rfl, ?_,
          fun t' other => Pool.get?_modify_of_ne _ other, rfl, rfl⟩
        · rw [acceptTransport, bind_done handled, bind_done recorded]
          exact bind_done (readS5b_done there₂)
        · rw [there₂, there]
          rfl
      · intro notS5b
        obtain ⟨error, fault⟩ := readS5b_fault (s := s₀) notS5b
        exact ⟨error, s₀, bind_fault (handles.trans ((reads s₀).trans (bind_fault fault)))⟩

-----------------------------------------------------------------------------------------
-- All contents
-----------------------------------------------------------------------------------------

/-- Whether a content of the session can take its part of a session-accept. -/
def acceptable? (s : State) (jc : JingleContent) (sc : SessionContent) : Bool :=
  sc.transfuncs.any (fun transfuncs =>
    sc.transport.any (fun t => transfuncs.ready s t jc.transport))

/-- What serving a session-accept needs of the session: every content that it names can take
its part.
-/
def AcceptServed (s : State) (js : JingleSession) (contents : List JingleContent) : Prop :=
  ∀ jc ∈ contents, ∀ sc ∈ sessionFindSessioncontent js jc.name, acceptable? s jc sc = true

/-- Making a content ACTIVE leaves what is found under each name, but for the state. -/
theorem find?_changeState (content : List SessionContent) (name name' : String)
    (state : SessionState)
    : ((updateFirst name (fun sc => { sc with state }) content).find?
        (fun sc => sc.name == name')).map (fun sc => (sc.transfuncs, sc.transport))
      = (content.find? (fun sc => sc.name == name')).map (fun sc =>
          (sc.transfuncs, sc.transport)) := by
  induction content with
  | nil => rfl
  | cons sc rest ih =>
      simp only [updateFirst]
      split
      · by_cases here : sc.name = name' <;> simp [here]
      · by_cases here : sc.name = name'
        · simp [here]
        · simp only [List.find?_cons, beq_eq_false_iff_ne.mpr here]
          exact ih

theorem acceptServed_congr {s' : State} {js js' : JingleSession} (kinds : SameKinds s s')
    (same : ∀ name, (sessionFindSessioncontent js' name).map
        (fun sc => (sc.transfuncs, sc.transport))
      = (sessionFindSessioncontent js name).map (fun sc => (sc.transfuncs, sc.transport)))
    (contents : List JingleContent)
    : AcceptServed s' js' contents ↔ AcceptServed s js contents := by
  have acceptable (jc : JingleContent) {sc sc' : SessionContent}
      (pointers : (sc'.transfuncs, sc'.transport) = (sc.transfuncs, sc.transport))
      : acceptable? s' jc sc' = acceptable? s jc sc := by
    obtain ⟨sameFuncs, sameTransport⟩ := Prod.mk.inj pointers
    simp only [acceptable?, sameFuncs, sameTransport, kinds.ready]
  have found (jc : JingleContent)
      : (∀ sc ∈ sessionFindSessioncontent js' jc.name, acceptable? s' jc sc = true)
        ↔ ∀ sc ∈ sessionFindSessioncontent js jc.name, acceptable? s jc sc = true := by
    have pointers := same jc.name
    cases after : sessionFindSessioncontent js' jc.name with
    | none =>
        rw [after, Option.map_none] at pointers
        rw [Option.map_eq_none_iff.mp pointers.symm]
        simp
    | some sc' =>
        rw [after, Option.map_some] at pointers
        obtain ⟨sc, before, pointers⟩ := Option.map_eq_some_iff.mp pointers.symm
        simp [before, acceptable jc pointers.symm]
  exact forall₂_congr (fun jc _ => found jc)

/-- The contents of a session after those that the stanza names were made ACTIVE. -/
def activated : List JingleContent → List SessionContent → List SessionContent
  | [], content => content
  | jc :: rest, content =>
      activated rest (updateFirst jc.name (fun sc => { sc with state := .active }) content)

/-- What is found under a name after a content was made ACTIVE. -/
theorem find?_activate (content : List SessionContent) (name name' : String)
    : (updateFirst name (fun sc => { sc with state := .active }) content).find?
        (fun sc => sc.name == name')
      = (content.find? (fun sc => sc.name == name')).map (fun sc =>
          if name = name' then { sc with state := .active } else sc) := by
  induction content with
  | nil => rfl
  | cons sc rest ih =>
      simp only [updateFirst]
      by_cases named : sc.name = name
      · rw [if_pos named]
        by_cases found : sc.name = name'
        · simp [found, ← named]
        · simp [found, ← named, Option.map_id']
      · rw [if_neg named]
        by_cases found : sc.name = name'
        · have other : name ≠ name' := fun same => named (found.trans same.symm)
          simp [found, other]
        · simp only [List.find?_cons, beq_eq_false_iff_ne.mpr found]
          exact ih

/-- By induction on the stanza: what is found under a name that it has is ACTIVE. -/
theorem find?_activated (contents : List JingleContent) (content : List SessionContent)
    (name : String)
    : (activated contents content).find? (fun sc => sc.name == name)
      = (content.find? (fun sc => sc.name == name)).map (fun sc =>
          if name ∈ contents.map JingleContent.name then { sc with state := .active } else sc) := by
  induction contents generalizing content with
  | nil => simp [activated]
  | cons jc rest ih =>
      rw [activated, ih, find?_activate, Option.map_map]
      congr 1
      funext sc
      have other (differs : ¬jc.name = name) : ¬name = jc.name := fun same => differs same.symm
      by_cases here : jc.name = name
      · by_cases later : name ∈ rest.map JingleContent.name <;> simp [here, later]
      · by_cases later : name ∈ rest.map JingleContent.name <;> simp [here, other here, later]

/-- Changing the first content of a name into what it is changes nothing. -/
theorem updateFirst_of_same {content : List SessionContent} {name : String}
    {f : SessionContent → SessionContent}
    (same : ∀ sc ∈ content.find? (fun sc => sc.name == name), f sc = sc)
    : updateFirst name f content = content := by
  induction content with
  | nil => rfl
  | cons sc rest ih =>
      simp only [updateFirst]
      by_cases named : sc.name = name
      · rw [if_pos named, same sc (by simp [named])]
      · rw [if_neg named, ih (by simpa [List.find?_cons, named] using same)]

/-- The stanza changes no content when all that it names are ACTIVE already. -/
theorem activated_eq_self_iff {contents : List JingleContent} {content : List SessionContent}
    : activated contents content = content
      ↔ ∀ jc ∈ contents, ∀ sc ∈ content.find? (fun sc => sc.name == jc.name),
          sc.state = .active := by
  constructor
  · intro same jc member sc found
    have active := find?_activated contents content jc.name
    rw [same, found, Option.map_some, if_pos (List.mem_map_of_mem member)] at active
    exact congrArg SessionContent.state (Option.some.inj active)
  · intro active
    induction contents with
    | nil => rfl
    | cons jc rest ih =>
        have here : updateFirst jc.name (fun sc => { sc with state := .active }) content
            = content := by
          refine updateFirst_of_same (fun sc found => ?_)
          rw [← active jc List.mem_cons_self sc found]
        rw [activated, here]
        exact ih (fun jc' member => active jc' (List.mem_cons_of_mem _ member))

/-- The stanza names the content of the session whose transport is `t`. -/
def NamesTransport (js : JingleSession) (contents : List JingleContent) (name : String)
    (t : TransportPtr)
    : Prop :=
  ∃ jc ∈ contents, jc.name = name
    ∧ ∃ sc ∈ sessionFindSessioncontent js jc.name, sc.transport = some t

/-- What becomes of the transport `t` of a session when a stanza names the content. -/
def JingleSession.takes (env : Env) (js : JingleSession) (t : TransportPtr)
    (transport : Transport) (jc : JingleContent)
    : Transport :=
  match sessionFindSessioncontent js jc.name with
  | none => transport
  | some sc =>
      match sc.transfuncs with
      | none => transport
      | some transfuncs =>
          if sc.transport = some t then transfuncs.takes env jc.transport transport
          else transport

/-- What accepting the contents that the stanza names changes. -/
structure AcceptedBy (env : Env) (contents : List JingleContent) (p : SessionPtr)
    (js : JingleSession) (s s' : State)
    : Prop where
  sent : s'.sent = s.sent
  staleReads : s'.staleReads = s.staleReads
  session : s'.sessions.get? p = some { js with content := activated contents js.content }
  others : ∀ q, q ≠ p → s'.sessions.get? q = s.sessions.get? q
  transports : ∀ t, s'.transports.get? t ≠ s.transports.get? t →
    ∃ name, NamesTransport js contents name t
  taken : ∀ t, s'.transports.get? t
    = (s.transports.get? t).map (contents.foldl (js.takes env t))
  inits : ∃ new, s'.inits = s.inits ++ new
    ∧ ∀ sc t, (sc, t) ∈ new ↔ sc.owner = p ∧ NamesTransport js contents sc.name t
  starts : s'.starts = s.starts

/-- A content that is not there is passed over. -/
theorem AcceptedBy.skip {p : SessionPtr} {js : JingleSession} {jc : JingleContent}
    {rest : List JingleContent} {s' : State} (accepted : AcceptedBy env rest p js s s')
    (missing : sessionFindSessioncontent js jc.name = none)
    : AcceptedBy env (jc :: rest) p js s s' := by
  have fresh : jc.name ∉ js.content.map SessionContent.name := by
    have absent := List.find?_eq_none.mp missing
    intro member
    obtain ⟨sc, there, same⟩ := List.mem_map.mp member
    exact absent sc there (by simp [same])
  have names (name : String) (t : TransportPtr)
      : NamesTransport js (jc :: rest) name t ↔ NamesTransport js rest name t := by
    simp [NamesTransport, missing]
  have passes (t : TransportPtr) (transport : Transport)
      : js.takes env t transport jc = transport := by
    rw [JingleSession.takes, missing]
  refine { accepted with session := ?_, transports := ?_, taken := ?_, inits := ?_ }
  · rw [activated, updateFirst_of_fresh fresh]
    exact accepted.session
  · simpa only [names] using accepted.transports
  · simpa only [List.foldl_cons, passes] using accepted.taken
  · simpa only [names] using accepted.inits

/-- Making a content ACTIVE leaves the transports that a stanza names. -/
theorem namesTransport_changeState (js : JingleSession) (changed : String) (state : SessionState)
    (contents : List JingleContent) (name : String) (t : TransportPtr)
    : NamesTransport
        { js with content := updateFirst changed (fun sc => { sc with state }) js.content }
        contents name t
      ↔ NamesTransport js contents name t := by
  have carries (name : String)
      : (∃ sc ∈ (updateFirst changed (fun sc => { sc with state }) js.content).find?
          (fun sc => sc.name == name), sc.transport = some t)
        ↔ ∃ sc ∈ js.content.find? (fun sc => sc.name == name), sc.transport = some t := by
    have same := find?_changeState js.content changed name state
    have transports := congrArg (Option.map Prod.snd) same
    simp only [Option.map_map, Function.comp_def] at transports
    have either (found : Option SessionContent)
        : (∃ sc ∈ found, sc.transport = some t)
          ↔ some t ∈ found.map (fun sc => sc.transport) := by
      cases found <;> simp
    rw [either, either, transports]
  simp only [NamesTransport, sessionFindSessioncontent, carries]

/-- It leaves what the modules make of the transports, too. -/
theorem takes_changeState (env : Env) (js : JingleSession) (changed : String)
    (state : SessionState) (t : TransportPtr)
    : JingleSession.takes env
        { js with content := updateFirst changed (fun sc => { sc with state }) js.content } t
      = js.takes env t := by
  funext transport jc
  have same := find?_changeState js.content changed jc.name state
  unfold JingleSession.takes sessionFindSessioncontent
  cases before : js.content.find? (fun sc => sc.name == jc.name) with
  | none =>
      rw [before, Option.map_none] at same
      rw [Option.map_eq_none_iff.mp same]
  | some sc =>
      rw [before, Option.map_some] at same
      obtain ⟨sc', after, pointers⟩ := Option.map_eq_some_iff.mp same
      obtain ⟨sameFuncs, sameTransport⟩ := Prod.mk.inj pointers
      rw [after]
      dsimp only
      rw [sameFuncs, sameTransport]

/-- The first content named is made ACTIVE and taken, then the others. -/
theorem AcceptedBy.cons {p : SessionPtr} {js : JingleSession} {jc : JingleContent}
    {rest : List JingleContent} {sc : SessionContent} {transfuncs : JingleTransportFuncs}
    {t : TransportPtr} {s₁ s₂ s' : State}
    (found : sessionFindSessioncontent js jc.name = some sc)
    (funcs : sc.transfuncs = some transfuncs) (carried : sc.transport = some t)
    (changed : s₁ = s.withContent p (updateFirst jc.name (fun sc => { sc with state := .active })))
    (taken : TransportTaken env transfuncs jc.transport s₁ s₂ { owner := p, name := jc.name } t)
    (accepted : AcceptedBy env rest p
      { js with content := updateFirst jc.name (fun sc => { sc with state := .active }) js.content }
      s₂ s')
    : AcceptedBy env (jc :: rest) p js s s' := by
  subst changed
  have here : NamesTransport js (jc :: rest) jc.name t :=
    ⟨jc, List.mem_cons_self, rfl, sc, found, carried⟩
  have later {name : String} {t' : TransportPtr} (names : NamesTransport js rest name t')
      : NamesTransport js (jc :: rest) name t' := by
    obtain ⟨jc', member, rest⟩ := names
    exact ⟨jc', List.mem_cons_of_mem _ member, rest⟩
  refine ⟨accepted.sent.trans taken.sent, accepted.staleReads.trans taken.staleReads,
    accepted.session, fun q other => ?_, fun t' changed => ?_, fun t' => ?_, ?_,
    accepted.starts.trans taken.starts⟩
  · rw [accepted.others q other, taken.sessions]
    exact Pool.get?_modify_of_ne _ other
  · by_cases since : s'.transports.get? t' = s₂.transports.get? t'
    · by_cases same : t' = t
      · exact ⟨jc.name, same ▸ here⟩
      · exact absurd (since.trans (taken.others t' same)) changed
    · obtain ⟨name, names⟩ := accepted.transports t' since
      exact ⟨name, later ((namesTransport_changeState js jc.name .active rest name t').mp names)⟩
  · have first : s₂.transports.get? t'
        = (s.transports.get? t').map (fun transport => js.takes env t' transport jc) := by
      simp only [JingleSession.takes, found, funcs, carried, Option.some.injEq]
      by_cases here : t = t'
      · subst here
        simp only [if_true]
        exact taken.taken
      · simp only [if_neg here, Option.map_id']
        exact taken.others t' (Ne.symm here)
    rw [accepted.taken t', takes_changeState, first, Option.map_map]
    rfl
  · obtain ⟨new, appended, exact_new⟩ := accepted.inits
    refine ⟨({ owner := p, name := jc.name }, t) :: new, ?_, fun sc' t' => ?_⟩
    · rw [appended, taken.inits]
      simp [State.withContent]
    · rw [List.mem_cons, exact_new, namesTransport_changeState]
      constructor
      · intro either
        rcases either with first | ⟨owner, names⟩
        · cases first
          exact ⟨rfl, here⟩
        · exact ⟨owner, later names⟩
      · intro both
        obtain ⟨owner, jc', member, name, sc'', found', carried'⟩ := both
        rcases List.mem_cons.mp member with rfl | member
        · cases found.symm.trans found'
          cases carried.symm.trans carried'
          exact Or.inl (Prod.ext (by cases sc'; cases owner; cases name; rfl) rfl)
        · exact Or.inr ⟨owner, jc', member, name, sc'', found', carried'⟩

/-- By induction on the contents of the stanza. -/
theorem acceptContents_runs (env : Env) {p : SessionPtr} {js : JingleSession}
    (listed : s.sessions.get? p = some js) (contents : List JingleContent)
    : (AcceptServed s js contents →
        ∃ s', acceptContents env p contents s = .done () s' ∧ AcceptedBy env contents p js s s')
      ∧ (∀ s', acceptContents env p contents s = .done () s' → AcceptServed s js contents) := by
  induction contents generalizing s js with
  | nil =>
      refine ⟨fun _ => ⟨s, rfl, rfl, rfl, listed, fun _ _ => rfl,
        fun t changed => absurd rfl changed, fun t => (by simp),
        ⟨[], by simp, by simp [NamesTransport]⟩, rfl⟩,
        fun _ _ _ member => by cases member⟩
  | cons jc rest ih =>
      rw [acceptContents, bind_done (readSession_done listed)]
      have split : AcceptServed s js (jc :: rest)
          ↔ (∀ sc ∈ sessionFindSessioncontent js jc.name, acceptable? s jc sc = true)
            ∧ AcceptServed s js rest := by
        simp [AcceptServed]
      rw [split]
      cases found : sessionFindSessioncontent js jc.name with
      | none =>
          simp only [Option.mem_def, reduceCtorEq, false_implies, implies_true, true_and]
          obtain ⟨goes, back⟩ := ih listed
          refine ⟨fun served => ?_, back⟩
          obtain ⟨s', runs, accepted⟩ := goes served
          exact ⟨s', runs, accepted.skip found⟩
      | some sc =>
      simp only [Option.mem_some_iff, forall_eq']
      let active := updateFirst jc.name (fun sc => { sc with state := .active })
      let s₁ := s.withContent p active
      have changed : sessionChangestateSessioncontent p jc.name .active s = .done () s₁ := by
        rw [sessionChangestateSessioncontent, bind_done (readSession_done listed), modifyContent_eq]
      rw [bind_done changed]
      cases funcs : sc.transfuncs with
      | none =>
          have dead : acceptable? s jc sc = false := by
            simp [acceptable?, funcs]
          rw [dead]
          refine ⟨fun served => absurd served.1 (by simp), fun s' runs => ?_⟩
          cases (bind_fault rfl).symm.trans runs
      | some transfuncs =>
      rw [bind_done (deref_done rfl)]
      cases carried : sc.transport with
      | none =>
          have dead : acceptable? s jc sc = false := by
            simp [acceptable?, funcs, carried]
          rw [dead]
          refine ⟨fun served => absurd served.1 (by simp), fun s' runs => ?_⟩
          cases (bind_fault rfl).symm.trans runs
      | some t =>
      have acceptable : acceptable? s jc sc = transfuncs.ready s t jc.transport := by
        simp [acceptable?, funcs, carried]
      obtain ⟨goes, stops⟩ := acceptTransport_runs (s := s₁) env transfuncs t jc.transport
        { owner := p, name := jc.name }
      have joined : (do
            let _ ← runHandle env transfuncs .sessionAccept t jc.transport
            Prog.modify (fun s =>
              { s with inits := s.inits ++ [({ owner := p, name := jc.name }, t)] })
            transfuncs.init { owner := p, name := jc.name } t
            acceptContents env p rest : Run Unit)
          = (acceptTransport env transfuncs t jc.transport { owner := p, name := jc.name }
            >>= fun _ => acceptContents env p rest) := by
        simp only [acceptTransport, ← bind_bind]
      rw [bind_done (deref_done rfl), joined, acceptable]
      cases ready : transfuncs.ready s t jc.transport with
      | false =>
          obtain ⟨error, s₂, fault⟩ := stops ready
          refine ⟨fun served => absurd served.1 (by simp), fun s' runs => ?_⟩
          cases (bind_fault fault).symm.trans runs
      | true =>
          obtain ⟨s₂, runs₂, taken⟩ := goes ready
          have listed₂ : s₂.sessions.get? p = some { js with content := active js.content } := by
            rw [taken.sessions]
            exact State.withContent_listed listed active
          have same : AcceptServed s₂ { js with content := active js.content } rest
              ↔ AcceptServed s js rest := by
            refine acceptServed_congr taken.kinds (fun name => ?_) rest
            exact find?_changeState js.content jc.name name .active
          obtain ⟨again, back⟩ := ih listed₂
          refine ⟨fun served => ?_, fun s' runs => ?_⟩
          · obtain ⟨s', runs, accepted⟩ := again (same.mpr served.2)
            exact ⟨s', (bind_done runs₂).trans runs, accepted.cons found funcs carried rfl taken⟩
          · exact ⟨rfl, same.mp (back s' ((bind_done runs₂).symm.trans runs))⟩

end McabberJingle
