import McabberJingle.Jingle.Opening

/-! What exactly an invitation makes: its contents one by one, and which of them keep the
description they were given.
-/

namespace McabberJingle

open Program Program.Prog

variable {env : Env} {w : World} {s₀ s : State} {p : SessionPtr} {js : JingleSession}

-----------------------------------------------------------------------------------------
-- The loop as a fold
-----------------------------------------------------------------------------------------

/-- A content that gets a description. -/
def SessionContent.describe (sc : SessionContent) (cn : JingleContent)
    (appfuncs : JingleAppFuncs) (d : FtPtr)
    : SessionContent :=
  { sc with
    xmlnsDesc := some ((cn.description.getAttribute "xmlns").getD "")
    appfuncs := some appfuncs
    description := some d }

/-- What one turn of the loop does, wherever its error goes. -/
def State.adding (env : Env) (w : World) (p : SessionPtr) (s : State) (cn : JingleContent)
    : State :=
  match jingleGetAppfuncs s (cn.description.getAttribute "xmlns"),
    jingleGetTransportfuncs s (cn.transport.getAttribute "xmlns"),
    FileTransfer.parseOffer env w cn with
  | some appfuncs, some transfuncs, .ok jft =>
      match transfuncs.parse env w s cn with
      | .error _ =>
          (s.listing jft).withContent p
            (updateFirst cn.name (fun sc => sc.describe cn appfuncs s.infoList.next))
      | .ok transport =>
          ((s.listing jft).carrying transport).withContent p
            (fun content => withTrans cn transfuncs s.transports.next
              (withApp .pending cn appfuncs s.infoList.next content))
  | _, _, _ => s

/-- The error of a parser that failed. -/
def failure {α : Type} : Except GError α → Option GError
  | .error err => some err
  | .ok _ => none

/-- The error with which `session_add_content_from_jinglecontent` refuses a content: that of the
description, or else that of the transport.
-/
def contentError (env : Env) (w : World) (s : State) (cn : JingleContent) : Option GError :=
  (failure (FileTransfer.parseOffer env w cn)).or
    ((jingleGetTransportfuncs s (cn.transport.getAttribute "xmlns")).bind (fun transfuncs =>
      failure (transfuncs.parse env w s cn)))

/-- A turn leaves the state alone, stores a description, or makes a content. -/
theorem State.adding_cases (env : Env) (w : World) (p : SessionPtr) (s : State)
    (cn : JingleContent)
    : (contentDescribed env w s cn = false ∧ contentKept env w s cn = false
        ∧ s.adding env w p cn = s)
      ∨ (contentDescribed env w s cn = true ∧ contentKept env w s cn = false
        ∧ ∃ appfuncs jft, s.adding env w p cn = (s.listing jft).withContent p
            (updateFirst cn.name (fun sc => sc.describe cn appfuncs s.infoList.next)))
      ∨ (contentDescribed env w s cn = true ∧ contentKept env w s cn = true
        ∧ ∃ appfuncs transfuncs jft transport,
          jingleGetAppfuncs s (cn.description.getAttribute "xmlns") = some appfuncs
          ∧ jingleGetTransportfuncs s (cn.transport.getAttribute "xmlns") = some transfuncs
          ∧ FileTransfer.parseOffer env w cn = .ok jft
          ∧ transfuncs.parse env w s cn = .ok transport
          ∧ s.adding env w p cn = ((s.listing jft).carrying transport).withContent p
            (fun content => withTrans cn transfuncs s.transports.next
              (withApp .pending cn appfuncs s.infoList.next content))) := by
  unfold contentDescribed contentProcessed contentKept State.adding
  cases knownApp : jingleGetAppfuncs s (cn.description.getAttribute "xmlns") with
  | none => exact .inl ⟨rfl, rfl, rfl⟩
  | some appfuncs =>
  cases known : jingleGetTransportfuncs s (cn.transport.getAttribute "xmlns") with
  | none =>
      refine .inl ⟨rfl, ?_, rfl⟩
      simp
  | some transfuncs =>
  have accepts := transfuncs.accepts_iff env w s cn
  cases offered : FileTransfer.parseOffer env w cn with
  | error err => exact .inl ⟨rfl, rfl, rfl⟩
  | ok jft =>
  cases parsed : transfuncs.parse env w s cn with
  | error err =>
      refine .inr (.inl ⟨rfl, ?_, appfuncs, jft, ?_⟩)
      · rw [Option.any_some, accepts, parsed]
        rfl
      · dsimp only
        rw [parsed]
  | ok transport =>
      refine .inr (.inr ⟨rfl, ?_, appfuncs, transfuncs, jft, transport, rfl, rfl, rfl, parsed, ?_⟩)
      · rw [Option.any_some, accepts, parsed]
        rfl
      · dsimp only
        rw [parsed]

/-- A processed content has its turn, with an error or without. -/
theorem sessionAddContentFromJinglecontent_adds (env : Env) (w : World) {cn : JingleContent}
    (listed : s.sessions.get? p = some js) (processed : contentProcessed s cn = true)
    : sessionAddContentFromJinglecontent env w p cn .pending s
      = .done (contentError env w s cn) (s.adding env w p cn) := by
  simp only [contentProcessed, Bool.and_eq_true, Option.isSome_iff_exists] at processed
  obtain ⟨⟨appfuncs, knownApp⟩, ⟨transfuncs, known⟩⟩ := processed
  have runs := sessionAddContentFromJinglecontent_eq env w listed knownApp known .pending
  rw [State.adding, contentError, knownApp, known]
  cases offered : FileTransfer.parseOffer env w cn with
  | error err =>
      rw [offered] at runs
      exact runs
  | ok jft =>
      rw [offered] at runs
      dsimp only [Option.bind_some, failure, Option.none_or] at runs ⊢
      cases parsed : transfuncs.parse env w s cn with
      | error err =>
          rw [parsed] at runs
          simp only [dropLast_withApp] at runs
          exact runs
      | ok transport =>
          rw [parsed] at runs
          exact runs

theorem State.adding_listed (env : Env) (w : World) (cn : JingleContent)
    (listed : s.sessions.get? p = some js)
    : ∃ content, (s.adding env w p cn).sessions.get? p = some { js with content } := by
  obtain ⟨_, _, same⟩ | ⟨_, _, _, jft, adds⟩ | ⟨_, _, _, _, jft, transport, _, _, _, _, adds⟩ :=
    State.adding_cases env w p s cn
  · rw [same]
    exact ⟨js.content, listed⟩
  · rw [adds]
    exact ⟨_, State.withContent_listed (s := s.listing jft) listed _⟩
  · rw [adds]
    have listed' : ((s.listing jft).carrying transport).sessions.get? p = some js := by
      rw [State.carrying_sessions]
      exact listed
    exact ⟨_, State.withContent_listed listed' _⟩

/-- By induction on the contents: a loop that gets to its end took every turn. -/
theorem addContents_adds {s' : State} (err : ErrVar) (contents : List JingleContent)
    (listed : s.sessions.get? p = some js)
    (runs : addContents env w (some p) err contents s = .done () s')
    : s' = contents.foldl (State.adding env w p) s := by
  induction contents generalizing s js err with
  | nil =>
      cases runs
      rfl
  | cons cn rest ih =>
      rw [addContents, bind_get, contentProcessed_eq] at runs
      cases processed : contentProcessed s cn with
      | false =>
          rw [processed, if_pos (by simp)] at runs
          have unprocessed : s.adding env w p cn = s := by
            have undescribed : contentDescribed env w s cn = false := by
              rw [contentDescribed, processed, Bool.false_and]
            obtain ⟨_, _, same⟩ | ⟨described, _⟩ | ⟨described, _⟩ :=
              State.adding_cases env w p s cn
            · exact same
            · cases undescribed.symm.trans described
            · cases undescribed.symm.trans described
          rw [List.foldl_cons, unprocessed]
          exact ih err listed runs
      | true =>
          have adds := sessionAddContentFromJinglecontent_adds env w listed processed
          rw [processed, if_neg (by simp), bind_done (deref_done rfl), bind_done adds] at runs
          obtain ⟨content, listed'⟩ := State.adding_listed env w cn listed
          rw [List.foldl_cons]
          cases report : reportError (err.propagate (contentError env w s cn))
              (s.adding env w p cn) with
          | fault fault s₁ => cases (bind_fault report).symm.trans runs
          | done err' s₁ =>
              rw [bind_done report] at runs
              have same : s₁ = s.adding env w p cn := by
                cases raised : err.propagate (contentError env w s cn) with
                | null =>
                    rw [raised] at report
                    cases report
                    rfl
                | set =>
                    rw [raised] at report
                    cases report
                    rfl
                | dangling =>
                    rw [raised] at report
                    cases report
              rw [same] at runs
              exact ih err' listed' runs

theorem State.withContent_sessions (s : State) (p : SessionPtr)
    (g : List SessionContent → List SessionContent)
    : (s.withContent p g).sessions
      = s.sessions.modify p (fun js => { js with content := g js.content }) :=
  rfl

-----------------------------------------------------------------------------------------
-- One content as it was sent
-----------------------------------------------------------------------------------------

/-- The content `sc` is the `<content/>` element `cn`, with the description and the transport
that were made of it in a turn since `s₀`.
-/
structure Made (env : Env) (w : World) (s₀ s : State) (cn : JingleContent) (sc : SessionContent)
    : Prop where
  name : sc.name = cn.name
  state : sc.state = .pending
  description : ∃ appfuncs d jft,
    jingleGetAppfuncs s₀ (cn.description.getAttribute "xmlns") = some appfuncs
    ∧ FileTransfer.parseOffer env w cn = .ok jft ∧ s.infoList.get? d = some jft
    ∧ sc.suppliedApp = some (appfuncs, d) ∧ sc.description = some d
    ∧ sc.appfuncs = some appfuncs ∧ sc.xmlnsDesc = cn.description.getAttribute "xmlns"
  transport : ∃ transfuncs t transport,
    jingleGetTransportfuncs s₀ (cn.transport.getAttribute "xmlns") = some transfuncs
    ∧ transfuncs.parse env w s₀ cn = .ok transport ∧ s.transports.get? t = some transport
    ∧ s₀.transports.next ≤ t
    ∧ sc.suppliedTrans = some (transfuncs, t) ∧ sc.transport = some t
    ∧ sc.transfuncs = some transfuncs ∧ sc.xmlnsTrans = cn.transport.getAttribute "xmlns"

section Made

variable {cn : JingleContent} {sc : SessionContent}

theorem Made.listing (made : Made env w s₀ s cn sc) (jft : JingleFT)
    : Made env w s₀ (s.listing jft) cn sc := by
  obtain ⟨appfuncs, d, jft', known, offered, found, own⟩ := made.description
  refine { made with description := ⟨appfuncs, d, jft', known, offered, ?_, own⟩ }
  exact (Pool.get?_alloc_of_lt jft (Pool.lt_next found)).trans found

theorem Made.withContent (made : Made env w s₀ s cn sc) (p : SessionPtr)
    (g : List SessionContent → List SessionContent)
    : Made env w s₀ (s.withContent p g) cn sc :=
  ⟨made.name, made.state, made.description, made.transport⟩

/-- A new transport leaves the content as it was, unless it takes its stream. -/
theorem Made.carrying (made : Made env w s₀ s cn sc) (streams : StreamsSince s₀ s)
    {transport : Transport}
    (apart : ∀ jibb, transport = .ibb jibb → streamSid s₀ cn ≠ some jibb.sid)
    : Made env w s₀ (s.carrying transport) cn sc := by
  obtain ⟨transfuncs, t, own, known, parsed, found, new, rest⟩ := made.transport
  refine { made with description := ?_, transport :=
    ⟨transfuncs, t, own, known, parsed, ?_, new, rest⟩ }
  · cases transport <;> exact made.description
  · obtain same | ⟨jibb, rfl, replaced, _⟩ := get?_carrying transport (Pool.lt_next found)
    · exact same.trans found
    · obtain ⟨jibb', found', sid⟩ := streams jibb.sid t replaced new
      cases found.symm.trans found'
      refine absurd ?_ (apart jibb rfl)
      rw [← sid]
      exact streamSid_parsed known parsed

/-- What is read from a `<transport/>` element depends on our own addresses only. -/
theorem JingleTransportFuncs.parse_congr (transfuncs : JingleTransportFuncs) (cn : JingleContent)
    (same : s.localIps = s₀.localIps)
    : transfuncs.parse env w s cn = transfuncs.parse env w s₀ cn := by
  cases transfuncs with
  | ibb => rfl
  | s5b => simp only [JingleTransportFuncs.parse, S5b.getOurCandidates, same]

/-- The content just made is the element's. -/
theorem made_new {appfuncs : JingleAppFuncs} {transfuncs : JingleTransportFuncs} {jft : JingleFT}
    {transport : Transport} (built : StreamsSince s₀ s)
    (since : s₀.transports.next ≤ s.transports.next)
    (knownApp : jingleGetAppfuncs s₀ (cn.description.getAttribute "xmlns") = some appfuncs)
    (known : jingleGetTransportfuncs s₀ (cn.transport.getAttribute "xmlns") = some transfuncs)
    (offered : FileTransfer.parseOffer env w cn = .ok jft)
    (parsed : transfuncs.parse env w s₀ cn = .ok transport)
    : Made env w s₀ ((s.listing jft).carrying transport) cn
        (filledContent cn appfuncs s.infoList.next transfuncs s.transports.next) := by
  have there : ((s.listing jft).carrying transport).infoList.get? s.infoList.next = some jft := by
    cases transport <;> exact Pool.get?_alloc_self _ _
  refine ⟨rfl, rfl, ?_, ?_⟩
  · exact ⟨appfuncs, s.infoList.next, jft, knownApp, offered, there, rfl, rfl, rfl,
      (jingleGetAppfuncs_known knownApp).symm⟩
  · have entered := get?_carrying_self (s := s.listing jft) transport
      (fun _ _ entered => built.below since entered)
    exact ⟨transfuncs, s.transports.next, transport, known, parsed, entered, since, rfl, rfl, rfl,
      (jingleGetTransportfuncs_known known).symm⟩

end Made

/-- The content has the description that was given to it. -/
def KeepsDescription (sc : SessionContent) : Prop :=
  ∃ appfuncs d, sc.suppliedApp = some (appfuncs, d) ∧ sc.description = some d

theorem Made.keepsDescription {cn : JingleContent} {sc : SessionContent}
    (made : Made env w s₀ s cn sc)
    : KeepsDescription sc := by
  obtain ⟨appfuncs, d, _, _, _, _, supplied, described, _⟩ := made.description
  exact ⟨appfuncs, d, supplied, described⟩

/-- A description that is newer than the one it was given is another's. -/
theorem not_keepsDescription {sc : SessionContent} {d : FtPtr}
    (supplied : ∃ appfuncs d', sc.suppliedApp = some (appfuncs, d') ∧ d' < d)
    (cn : JingleContent) (appfuncs : JingleAppFuncs)
    : ¬KeepsDescription (sc.describe cn appfuncs d) := by
  intro keeps
  obtain ⟨_, d', given, older⟩ := supplied
  obtain ⟨_, d'', given', described⟩ := keeps
  cases described
  cases given.symm.trans given'
  exact Nat.lt_irrefl _ older

/-- A rewrite by name keeps each content or rewrites it. -/
theorem updateFirst_keeps (name : String) (f : SessionContent → SessionContent)
    {content : List SessionContent} {sc : SessionContent} (member : sc ∈ content)
    : sc ∈ updateFirst name f content ∨ f sc ∈ updateFirst name f content := by
  induction content with
  | nil => cases member
  | cons head rest ih =>
      simp only [updateFirst]
      split
      · cases List.mem_cons.mp member with
        | inl same => exact .inr (same ▸ List.mem_cons_self)
        | inr later => exact .inl (List.mem_cons_of_mem _ later)
      · cases List.mem_cons.mp member with
        | inl same => exact .inl (same ▸ List.mem_cons_self)
        | inr later => exact (ih later).imp (List.mem_cons_of_mem _) (List.mem_cons_of_mem _)

/-- A name that is taken is rewritten once. -/
theorem updateFirst_hits {name : String} {f : SessionContent → SessionContent}
    {content : List SessionContent} (named : name ∈ content.map SessionContent.name)
    : ∃ sc ∈ content, f sc ∈ updateFirst name f content := by
  induction content with
  | nil => cases named
  | cons head rest ih =>
      simp only [updateFirst]
      split
      · exact ⟨head, List.mem_cons_self, List.mem_cons_self⟩
      · rename_i other
        have later : name ∈ rest.map SessionContent.name :=
          (List.mem_cons.mp named).resolve_left (Ne.symm other)
        obtain ⟨sc, member, hit⟩ := ih later
        exact ⟨sc, List.mem_cons_of_mem _ member, List.mem_cons_of_mem _ hit⟩

-----------------------------------------------------------------------------------------
-- All contents
-----------------------------------------------------------------------------------------

/-- The names under which descriptions are stored. -/
def describedNames (env : Env) (w : World) (s : State) (contents : List JingleContent)
    : List String :=
  (contents.filter (contentDescribed env w s)).map JingleContent.name

/-- Contents that the loop gets through and that can be shown. -/
structure Orderly (env : Env) (w : World) (s : State) (contents : List JingleContent) : Prop where
  first : contents.Pairwise (fun cn cn' => contentProcessed s cn = true →
    contentProcessed s cn' = true → contentKept env w s cn = true)
  distinct : ((contents.filter (contentKept env w s)).map JingleContent.name).Nodup
  apart : (contents.filter (contentKept env w s)).Pairwise (StreamsApart s)

theorem CleanContents.orderly {contents : List JingleContent} {err : Option GError}
    (clean : CleanContents env w s contents err)
    : Orderly env w s contents := by
  refine ⟨?_, clean.distinct, clean.streams⟩
  have permitted := clean.permitted
  cases err with
  | none => exact permitted
  | some err =>
      refine List.Pairwise.imp ?_ permitted
      intro cn cn' alone processed processed'
      rw [alone processed] at processed'
      cases processed'

theorem Orderly.of_append {done rest : List JingleContent}
    (orderly : Orderly env w s (done ++ rest))
    : Orderly env w s done := by
  obtain ⟨first, distinct, apart⟩ := orderly
  rw [List.filter_append] at distinct apart
  rw [List.map_append] at distinct
  exact ⟨(List.pairwise_append.mp first).1, (List.nodup_append.mp distinct).1,
    (List.pairwise_append.mp apart).1⟩

/-- The session `p` after the turns of `done`, its contents `content`: as long as no two
descriptions share a name, all are as they were sent, and from then on one is not.
-/
structure Making (env : Env) (w : World) (s₀ : State) (p : SessionPtr) (js : JingleSession)
    (done : List JingleContent) (content : List SessionContent) (s : State)
    : Prop where
  built : Built s₀ p js (done.filter (contentKept env w s₀)) s
  localIps : s.localIps = s₀.localIps
  sessions : s.sessions = s₀.sessions.modify p (fun js => { js with content })
  supplied : ∀ sc ∈ content, ∃ appfuncs d, sc.suppliedApp = some (appfuncs, d)
    ∧ d < s.infoList.next
  made : (describedNames env w s₀ done).Nodup →
    List.Forall₂ (Made env w s₀ s) (done.filter (contentKept env w s₀)) content
  foreign : ¬(describedNames env w s₀ done).Nodup → ∃ sc ∈ content, ¬KeepsDescription sc

section Turns

variable {done : List JingleContent} {content : List SessionContent} {cn : JingleContent}

theorem Making.listed (making : Making env w s₀ p js done content s)
    (start : s₀.sessions.get? p = some js)
    : s.sessions.get? p = some { js with content } := by
  rw [making.sessions, Pool.get?_modify_self, start]
  rfl

theorem Making.names (making : Making env w s₀ p js done content s)
    (start : s₀.sessions.get? p = some js)
    : content.map SessionContent.name
      = (done.filter (contentKept env w s₀)).map JingleContent.name := by
  obtain ⟨content', listed, names, _⟩ := making.built.content
  cases (making.listed start).symm.trans listed
  exact names

theorem describedNames_append (done : List JingleContent) (cn : JingleContent)
    : describedNames env w s (done ++ [cn])
      = describedNames env w s done
        ++ if contentDescribed env w s cn then [cn.name] else [] := by
  unfold describedNames
  rw [List.filter_append, List.map_append]
  cases described : contentDescribed env w s cn <;> simp [described]

/-- A name under which a description was stored is one of the contents' names, unless the
loop ends there.
-/
theorem Orderly.kept_of_described (orderly : Orderly env w s (done ++ [cn]))
    (processed : contentProcessed s cn = true) (stored : cn.name ∈ describedNames env w s done)
    : cn.name ∈ (done.filter (contentKept env w s)).map JingleContent.name := by
  obtain ⟨cn', member, same⟩ := List.mem_map.mp stored
  obtain ⟨before, described⟩ := List.mem_filter.mp member
  have processed' : contentProcessed s cn' = true := by
    rw [contentDescribed, Bool.and_eq_true] at described
    exact described.1
  have kept := (List.pairwise_append.mp orderly.first).2.2 cn' before cn
    (List.mem_singleton_self _) processed' processed
  exact List.mem_map.mpr ⟨cn', List.mem_filter.mpr ⟨before, kept⟩, same⟩

/-- Contents that were kept have stored their descriptions. -/
theorem stored_of_kept {name : String}
    (kept : name ∈ (done.filter (contentKept env w s)).map JingleContent.name)
    : name ∈ describedNames env w s done := by
  obtain ⟨cn, member, rfl⟩ := List.mem_map.mp kept
  obtain ⟨before, keeps⟩ := List.mem_filter.mp member
  refine List.mem_map.mpr ⟨cn, List.mem_filter.mpr ⟨before, ?_⟩, rfl⟩
  have processed := contentProcessed_of_kept env w keeps
  rw [contentKept, Bool.and_eq_true, Bool.and_eq_true] at keeps
  rw [contentDescribed, processed, keeps.1.2]
  rfl

theorem SameModules.described {s s' : State} (same : SameModules s s') (cn : JingleContent)
    : contentDescribed env w s' cn = contentDescribed env w s cn := by
  rw [contentDescribed, contentDescribed, same.processed]

/-- A turn that changes nothing. -/
theorem Making.skip (making : Making env w s₀ p js done content s)
    (described : contentDescribed env w s₀ cn = false)
    (kept : contentKept env w s₀ cn = false)
    : Making env w s₀ p js (done ++ [cn]) content s := by
  have sameKept : (done ++ [cn]).filter (contentKept env w s₀)
      = done.filter (contentKept env w s₀) := by
    simp [List.filter_append, kept]
  have sameNames : describedNames env w s₀ (done ++ [cn]) = describedNames env w s₀ done := by
    simp [describedNames_append, described]
  refine ⟨?_, making.localIps, making.sessions, making.supplied, ?_, ?_⟩
  · rw [sameKept]
    exact making.built
  · rw [sameKept, sameNames]
    exact making.made
  · rw [sameNames]
    exact making.foreign

/-- A turn that only stores a description: it goes to an earlier content of that name. -/
theorem Making.describe (making : Making env w s₀ p js done content s)
    (start : s₀.sessions.get? p = some js) (orderly : Orderly env w s₀ (done ++ [cn]))
    (described : contentDescribed env w s₀ cn = true)
    (kept : contentKept env w s₀ cn = false) (appfuncs : JingleAppFuncs) (jft : JingleFT)
    : Making env w s₀ p js (done ++ [cn])
        (updateFirst cn.name (fun sc => sc.describe cn appfuncs s.infoList.next) content)
        ((s.listing jft).withContent p
          (updateFirst cn.name (fun sc => sc.describe cn appfuncs s.infoList.next))) := by
  have sameKept : (done ++ [cn]).filter (contentKept env w s₀)
      = done.filter (contentKept env w s₀) := by
    simp [List.filter_append, kept]
  have names : describedNames env w s₀ (done ++ [cn])
      = describedNames env w s₀ done ++ [cn.name] := by
    simp [describedNames_append, described]
  have processed : contentProcessed s₀ cn = true := by
    rw [contentDescribed, Bool.and_eq_true] at described
    exact described.1
  refine ⟨?_, making.localIps, ?_, ?_, fun nodup => ?_, fun repeats => ?_⟩
  · have built := making.built.described cn jft appfuncs
    simp only [dropLast_withApp] at built
    rw [sameKept]
    exact built
  · have sessions : (s.listing jft).sessions = _ := making.sessions
    rw [State.withContent_sessions, sessions, Pool.modify_modify]
  · intro sc member
    obtain old | ⟨old, there, _, rfl⟩ := mem_updateFirst member
    · obtain ⟨appfuncs', d, given, older⟩ := making.supplied sc old
      exact ⟨appfuncs', d, given, Nat.lt_succ_of_lt older⟩
    · obtain ⟨appfuncs', d, given, older⟩ := making.supplied old there
      exact ⟨appfuncs', d, given, Nat.lt_succ_of_lt older⟩
  · rw [names, List.nodup_append] at nodup
    have fresh : cn.name ∉ content.map SessionContent.name := by
      rw [making.names start]
      intro taken
      exact nodup.2.2 _ (stored_of_kept taken) _ (List.mem_singleton_self _) rfl
    rw [sameKept, updateFirst_of_fresh fresh]
    exact (making.made nodup.1).imp (fun _ _ made => (made.listing jft).withContent p _)
  · by_cases before : (describedNames env w s₀ done).Nodup
    · have stored : cn.name ∈ describedNames env w s₀ done := by
        by_contra absent
        rw [names] at repeats
        refine repeats (List.nodup_append.mpr ⟨before, List.nodup_singleton _, ?_⟩)
        intro name member name' last same
        rw [List.mem_singleton.mp last] at same
        exact absent (same ▸ member)
      have taken := orderly.kept_of_described processed stored
      rw [← making.names start] at taken
      obtain ⟨sc, there, hit⟩ := updateFirst_hits
        (f := fun sc => sc.describe cn appfuncs s.infoList.next) taken
      exact ⟨_, hit, not_keepsDescription (making.supplied sc there) cn appfuncs⟩
    · obtain ⟨sc, there, foreign⟩ := making.foreign before
      obtain same | rewritten := updateFirst_keeps cn.name
        (fun sc => sc.describe cn appfuncs s.infoList.next) there
      · exact ⟨sc, same, foreign⟩
      · exact ⟨_, rewritten, not_keepsDescription (making.supplied sc there) cn appfuncs⟩

/-- A turn that makes a content. -/
theorem Making.make (making : Making env w s₀ p js done content s)
    (start : s₀.sessions.get? p = some js) (orderly : Orderly env w s₀ (done ++ [cn]))
    (described : contentDescribed env w s₀ cn = true)
    (kept : contentKept env w s₀ cn = true) {appfuncs : JingleAppFuncs}
    {transfuncs : JingleTransportFuncs} {jft : JingleFT} {transport : Transport}
    (knownApp : jingleGetAppfuncs s₀ (cn.description.getAttribute "xmlns") = some appfuncs)
    (known : jingleGetTransportfuncs s₀ (cn.transport.getAttribute "xmlns") = some transfuncs)
    (offered : FileTransfer.parseOffer env w cn = .ok jft)
    (parsed : transfuncs.parse env w s cn = .ok transport)
    : Making env w s₀ p js (done ++ [cn])
        (content ++ [filledContent cn appfuncs s.infoList.next transfuncs s.transports.next])
        (((s.listing jft).carrying transport).withContent p
          (fun content => withTrans cn transfuncs s.transports.next
            (withApp .pending cn appfuncs s.infoList.next content))) := by
  have moreKept : (done ++ [cn]).filter (contentKept env w s₀)
      = done.filter (contentKept env w s₀) ++ [cn] := by
    simp [List.filter_append, kept]
  have names : describedNames env w s₀ (done ++ [cn])
      = describedNames env w s₀ done ++ [cn.name] := by
    simp [describedNames_append, described]
  have distinct := orderly.distinct
  have apart := orderly.apart
  rw [moreKept] at apart distinct
  rw [List.map_append, List.nodup_append] at distinct
  have unkept : cn.name ∉ (done.filter (contentKept env w s₀)).map JingleContent.name :=
    fun taken => distinct.2.2 _ taken _ (List.mem_singleton_self _) rfl
  have fresh : cn.name ∉ content.map SessionContent.name := by
    rw [making.names start]
    exact unkept
  have unstored : cn.name ∉ describedNames env w s₀ done := fun stored =>
    unkept (orderly.kept_of_described (contentProcessed_of_kept env w kept) stored)
  refine ⟨?_, ?_, ?_, ?_, fun nodup => ?_, fun repeats => ?_⟩
  · rw [moreKept]
    exact making.built.filled jft appfuncs known parsed
  · cases transport <;> exact making.localIps
  · have sessions : (s.listing jft).sessions = _ := making.sessions
    rw [State.withContent_sessions, State.carrying_sessions, sessions, Pool.modify_modify]
    simp only [withTrans_withApp_fresh fresh]
  · have next : (((s.listing jft).carrying transport).withContent p
        (fun content => withTrans cn transfuncs s.transports.next
          (withApp .pending cn appfuncs s.infoList.next content))).infoList.next
        = s.infoList.next + 1 := by
      cases transport <;> rfl
    rw [next]
    intro sc member
    obtain old | last := List.mem_append.mp member
    · obtain ⟨appfuncs', d, given, older⟩ := making.supplied sc old
      exact ⟨appfuncs', d, given, Nat.lt_succ_of_lt older⟩
    · rw [List.mem_singleton.mp last]
      exact ⟨appfuncs, s.infoList.next, rfl, Nat.lt_succ_self _⟩
  · rw [names, List.nodup_append] at nodup
    rw [moreKept]
    have streams : StreamsSince s₀ (s.listing jft) := making.built.streams
    have parsed₀ : transfuncs.parse env w s₀ cn = .ok transport := by
      rw [← transfuncs.parse_congr cn making.localIps]
      exact parsed
    refine List.rel_append ?_ (.cons ?_ .nil)
    · have all := making.made nodup.1
      refine forall₂_imp_mem all (fun cn' sc before made => ?_)
      refine ((made.listing jft).carrying streams ?_).withContent p _
      rintro jibb rfl asked
      exact (List.pairwise_append.mp apart).2.2 cn' before cn (List.mem_singleton_self _) jibb.sid
        asked (streamSid_parsed known parsed)
    · exact (made_new making.built.streams making.built.since knownApp known offered
        parsed₀).withContent p _
  · have before : ¬(describedNames env w s₀ done).Nodup := by
      intro nodup
      rw [names] at repeats
      refine repeats (List.nodup_append.mpr ⟨nodup, List.nodup_singleton _, ?_⟩)
      intro name member name' last same
      rw [List.mem_singleton.mp last] at same
      exact unstored (same ▸ member)
    obtain ⟨sc, there, foreign⟩ := making.foreign before
    exact ⟨sc, List.mem_append_left _ there, foreign⟩

/-- One turn, whatever it does. -/
theorem Making.add (making : Making env w s₀ p js done content s)
    (start : s₀.sessions.get? p = some js) (orderly : Orderly env w s₀ (done ++ [cn]))
    : ∃ content', Making env w s₀ p js (done ++ [cn]) content' (s.adding env w p cn) := by
  have same := making.built.modules
  have turn := State.adding_cases env w p s cn
  rw [same.described, same.kept] at turn
  obtain ⟨described, kept, unchanged⟩ | ⟨described, kept, appfuncs, jft, adds⟩
    | ⟨described, kept, appfuncs, transfuncs, jft, transport, knownApp, known, offered, parsed,
      adds⟩ := turn
  · rw [unchanged]
    exact ⟨content, making.skip described kept⟩
  · rw [adds]
    exact ⟨_, making.describe start orderly described kept appfuncs jft⟩
  · rw [adds]
    rw [jingleGetAppfuncs, jingleFindApp, same.1] at knownApp
    rw [jingleGetTransportfuncs, jingleFindTransport, same.2] at known
    exact ⟨_, making.make start orderly described kept knownApp known offered parsed⟩

/-- By induction on the contents that are left. -/
theorem Making.addAll (making : Making env w s₀ p js done content s)
    (start : s₀.sessions.get? p = some js) {rest : List JingleContent}
    (orderly : Orderly env w s₀ (done ++ rest))
    : ∃ content', Making env w s₀ p js (done ++ rest) content'
        (rest.foldl (State.adding env w p) s) := by
  induction rest generalizing done content s with
  | nil =>
      rw [List.append_nil]
      exact ⟨content, making⟩
  | cons cn rest ih =>
      rw [List.append_cons] at orderly ⊢
      obtain ⟨content', next⟩ := making.add start orderly.of_append
      exact ih next orderly

end Turns

/-- A session just created, with no content yet. -/
theorem making_start (start : s₀.sessions.get? p = some js) (empty : js.content = [])
    (known : ∀ entry ∈ s₀.jingleIBBs, entry.2 < s₀.transports.next)
    : Making env w s₀ p js [] [] s₀ := by
  refine ⟨built_start start empty known, rfl, ?_, fun _ member => absurd member List.not_mem_nil,
    fun _ => .nil, fun repeats => absurd List.nodup_nil repeats⟩
  refine (Pool.modify_of_same (fun value found => ?_)).symm
  cases start.symm.trans found
  rw [← empty]

-----------------------------------------------------------------------------------------
-- The whole session
-----------------------------------------------------------------------------------------

/-- A session that was filled is the one that the contents make, and then either the user is
asked or the session goes again.
-/
theorem fillSession_makes {s' : State} {jn : JingleNode} {err : Option GError}
    (listed : s.sessions.get? p = some js) (empty : js.content = [])
    (known : ∀ entry ∈ s.jingleIBBs, entry.2 < s.transports.next)
    (runs : fillSession env w (some p) jn err s = .done () s')
    : ∃ content s₁, addContents env w (some p) (if err.isSome then .set else .null) jn.content s
          = .done () s₁
        ∧ Making env w s p js jn.content content s₁ ∧ s' = s₁.settling w p js content := by
  have orderly := ((fillSession_runs env w jn err listed empty known).2 s' runs).orderly
  obtain ⟨content', s₁, loop, _, listed₁, settled⟩ :=
    fillSession_settles env w jn err listed empty known runs
  have start : Making env w s p js [] [] s := making_start listed empty known
  obtain ⟨content, making⟩ := start.addAll listed orderly
  rw [List.nil_append, ← addContents_adds _ _ listed loop] at making
  cases (making.listed listed).symm.trans listed₁
  exact ⟨_, s₁, loop, making, settled⟩

/-- The session of an invitation that was served. -/
theorem createSession_makes {s' : State} {jn : JingleNode} {err : Option GError}
    {fromJid : String} (sender : jn.message.getFrom = some fromJid)
    (known : ∀ entry ∈ s.jingleIBBs, entry.2 < s.transports.next)
    (runs : createSession env w jn err s = .done () s')
    : ∃ toJid content s₁, jn.message.getTo = some toJid
        ∧ addContents env w (some s.sessions.next) (if err.isSome then .set else .null) jn.content
            (s.inviting jn fromJid toJid) = .done () s₁
        ∧ Making env w (s.inviting jn fromJid toJid) s.sessions.next (invited jn fromJid toJid)
            jn.content content s₁
        ∧ s' = s₁.settling w s.sessions.next (invited jn fromJid toJid) content := by
  obtain ⟨addressee, _⟩ := (createSession_runs env w err sender known).2 s' runs
  obtain ⟨toJid, addressee⟩ := Option.isSome_iff_exists.mp addressee
  rw [createSession_eq env w s err sender addressee] at runs
  obtain ⟨content, s₁, loop, making, settled⟩ :=
    fillSession_makes (s.inviting_listed jn fromJid toJid) rfl known runs
  exact ⟨toJid, content, s₁, addressee, loop, making, settled⟩

/-- The session list after the session of an invitation was settled. -/
theorem Making.settled_cells {jn : JingleNode} {fromJid toJid : String}
    {content : List SessionContent} {contents : List JingleContent} {s₁ : State}
    (making : Making env w (s.inviting jn fromJid toJid) s.sessions.next
      (invited jn fromJid toJid) contents content s₁)
    : (s₁.settling w s.sessions.next (invited jn fromJid toJid) content).sessions.cells
      = s.sessions.cells ++ if content = [] then []
        else [(s.sessions.next, { invited jn fromJid toJid with content })] := by
  have sessions : s₁.sessions = s.sessions.alloc { invited jn fromJid toJid with content } :=
    making.sessions.trans (Pool.modify_alloc_self _ _ _)
  unfold State.settling
  by_cases empty : content = []
  · rw [if_pos empty, if_pos empty, List.append_nil]
    change (s₁.sessions.erase s.sessions.next).cells = _
    rw [sessions, Pool.cells_erase_alloc]
  · rw [if_neg empty, if_neg empty, State.asking]
    split <;> exact congrArg Pool.cells sessions

end McabberJingle
