import McabberJingle.Jingle.Invitation
import McabberJingle.Jingle.Requests
import McabberJingle.Program.Lists

/-! The session that an invitation opens, from its first content to the last: when the loop
over the contents gets to its end, and what it has built by then.
-/

namespace McabberJingle

open Program Program.Prog

variable {env : Env} {w : World}

-----------------------------------------------------------------------------------------
-- The loop over the contents
-----------------------------------------------------------------------------------------

/-- Whether the loop gets through the contents: an error is reported and freed, and the next
processed content then reads it again.
-/
def ErrVar.permits (env : Env) (w : World) (s : State) (contents : List JingleContent)
    : ErrVar → Prop
  | .null =>
      contents.Pairwise (fun cn cn' => contentProcessed s cn = true →
        contentProcessed s cn' = true → contentKept env w s cn = true)
  | .set =>
      contents.Pairwise (fun cn cn' => contentProcessed s cn = true →
        contentProcessed s cn' = false)
  | .dangling => ∀ cn ∈ contents, contentProcessed s cn = false

instance (env : Env) (w : World) (s : State) (contents : List JingleContent) (err : ErrVar)
    : Decidable (err.permits env w s contents) := by
  cases err <;> unfold ErrVar.permits <;> infer_instance

section Loop

variable {s₀ : State} {cn : JingleContent} {rest : List JingleContent}

/-- A content that is passed over does not count. -/
theorem ErrVar.permits_skip (skipped : contentProcessed s₀ cn = false) (err : ErrVar)
    : err.permits env w s₀ (cn :: rest) ↔ err.permits env w s₀ rest := by
  cases err <;> simp [ErrVar.permits, skipped]

/-- After a kept content nothing was reported. -/
theorem ErrVar.permits_kept (processed : contentProcessed s₀ cn = true)
    (kept : contentKept env w s₀ cn = true)
    : ErrVar.null.permits env w s₀ (cn :: rest) ↔ ErrVar.null.permits env w s₀ rest := by
  simp [ErrVar.permits, processed, kept]

/-- After a dropped content the error is dangling. -/
theorem ErrVar.permits_dropped (processed : contentProcessed s₀ cn = true)
    (dropped : contentKept env w s₀ cn = false)
    : ErrVar.null.permits env w s₀ (cn :: rest) ↔ ErrVar.dangling.permits env w s₀ rest := by
  simp only [ErrVar.permits, List.pairwise_cons, processed, dropped, true_implies,
    Bool.false_eq_true, imp_false, Bool.not_eq_true]
  refine ⟨And.left, fun none => ⟨none, ?_⟩⟩
  refine List.pairwise_of_forall_mem_list (fun cn' member _ _ processed' => ?_)
  simp [none cn' member] at processed'

/-- An error that was set before the loop is reported with the first processed content. -/
theorem ErrVar.permits_set (processed : contentProcessed s₀ cn = true)
    : ErrVar.set.permits env w s₀ (cn :: rest) ↔ ErrVar.dangling.permits env w s₀ rest := by
  simp only [ErrVar.permits, List.pairwise_cons, processed, true_implies]
  refine ⟨And.left, fun none => ⟨none, ?_⟩⟩
  exact List.pairwise_of_forall_mem_list (fun _ _ cn' member _ => none cn' member)

/-- By induction on the contents: what one processed content establishes from what was there
before holds at the end, and the loop gets there exactly when its errors permit.
-/
theorem addContents_runs {p : SessionPtr} {inv : List JingleContent → State → Prop}
    (modules : ∀ kept s, inv kept s → SameModules s₀ s)
    (added : ∀ kept s cn, inv kept s → contentProcessed s₀ cn = true →
      ∃ error s', sessionAddContentFromJinglecontent env w p cn .pending s = .done error s'
        ∧ (error = none ↔ contentKept env w s₀ cn = true)
        ∧ inv (kept ++ if contentKept env w s₀ cn then [cn] else []) s')
    {kept : List JingleContent} {s : State} (err : ErrVar) (contents : List JingleContent)
    (holds : inv kept s)
    : (err.permits env w s₀ contents →
        ∃ s', addContents env w (some p) err contents s = .done () s'
          ∧ inv (kept ++ contents.filter (contentKept env w s₀)) s')
      ∧ (¬err.permits env w s₀ contents →
        ∃ error s', addContents env w (some p) err contents s = .fault error s') := by
  induction contents generalizing kept s err with
  | nil =>
      refine ⟨fun _ => ⟨s, rfl, by simpa using holds⟩, fun stuck => absurd ?_ stuck⟩
      cases err <;> simp [ErrVar.permits]
  | cons cn rest ih =>
      have sameHere : contentProcessed s cn = contentProcessed s₀ cn :=
        (modules kept s holds).processed cn
      cases processed : contentProcessed s₀ cn with
      | false =>
          have dropped : contentKept env w s₀ cn = false := by
            cases keeps : contentKept env w s₀ cn with
            | false => rfl
            | true =>
                rw [contentProcessed_of_kept env w keeps] at processed
                cases processed
          have passes : addContents env w (some p) err (cn :: rest) s
              = addContents env w (some p) err rest s := by
            rw [addContents, bind_get, contentProcessed_eq, sameHere, processed]
            rfl
          rw [ErrVar.permits_skip processed, passes, List.filter_cons_of_neg (by simp [dropped])]
          exact ih err holds
      | true =>
          obtain ⟨error, s', runs, reported, holds'⟩ := added kept s cn holds processed
          have round : addContents env w (some p) err (cn :: rest) s
              = ((reportError (err.propagate error)) >>= fun err =>
                  addContents env w (some p) err rest) s' := by
            rw [addContents, bind_get, contentProcessed_eq, sameHere, processed,
              if_neg (by simp), bind_done (deref_done rfl), bind_done runs]
          have more : kept ++ (cn :: rest).filter (contentKept env w s₀)
              = (kept ++ if contentKept env w s₀ cn then [cn] else [])
                ++ rest.filter (contentKept env w s₀) := by
            cases keeps : contentKept env w s₀ cn <;> simp [keeps]
          -- once the report is made the rest of the loop decides
          have goOn (err' : ErrVar) (report : reportError (err.propagate error) s' = .done err' s')
              (same : err.permits env w s₀ (cn :: rest) ↔ err'.permits env w s₀ rest)
              : (err.permits env w s₀ (cn :: rest) →
                  ∃ s', addContents env w (some p) err (cn :: rest) s = .done () s'
                    ∧ inv (kept ++ (cn :: rest).filter (contentKept env w s₀)) s')
                ∧ (¬err.permits env w s₀ (cn :: rest) →
                  ∃ error s', addContents env w (some p) err (cn :: rest) s = .fault error s') := by
            rw [same, round, bind_done report, more]
            exact ih err' holds'
          cases err with
          | dangling =>
              have stops : reportError (ErrVar.dangling.propagate error) s'
                  = .fault (.useAfterFree .gerror) s' := by
                cases error <;> rfl
              refine ⟨fun permits => ?_, fun _ => ⟨_, _, round.trans (bind_fault stops)⟩⟩
              rw [permits cn List.mem_cons_self] at processed
              cases processed
          | set =>
              refine goOn .dangling ?_ (ErrVar.permits_set processed)
              cases error <;> rfl
          | null =>
              cases keeps : contentKept env w s₀ cn with
              | true =>
                  refine goOn .null ?_ (ErrVar.permits_kept processed keeps)
                  rw [reported.mpr keeps]
                  rfl
              | false =>
                  refine goOn .dangling ?_ (ErrVar.permits_dropped processed keeps)
                  cases error with
                  | none =>
                      rw [reported.mp rfl] at keeps
                      cases keeps
                  | some error => rfl

end Loop

-----------------------------------------------------------------------------------------
-- Names
-----------------------------------------------------------------------------------------

/-- Only the first content of a name gets an application. -/
def FirstFilled (content : List SessionContent) : Prop :=
  content.Pairwise (fun sc sc' => sc.name = sc'.name → sc'.appfuncs = none)

section Names

variable {name : String} {f : SessionContent → SessionContent} {content : List SessionContent}

theorem FirstFilled.updateFirst (first : FirstFilled content)
    (keeps : ∀ sc, (f sc).name = sc.name)
    : FirstFilled (updateFirst name f content) := by
  induction content with
  | nil => exact first
  | cons sc rest ih =>
      obtain ⟨head, tail⟩ := List.pairwise_cons.mp first
      simp only [McabberJingle.updateFirst]
      split
      · refine List.pairwise_cons.mpr ⟨fun sc' member same => ?_, tail⟩
        exact head sc' member ((keeps sc).symm.trans same)
      · rename_i other
        refine List.pairwise_cons.mpr ⟨fun sc' member same => ?_, ih tail⟩
        rcases mem_updateFirst member with old | ⟨old, _, named, rfl⟩
        · exact head sc' old same
        · exact absurd (same.trans ((keeps old).trans named)) other

/-- A content that was just appended has no application yet. -/
theorem FirstFilled.append (first : FirstFilled content) {sc : SessionContent}
    (empty : sc.appfuncs = none)
    : FirstFilled (content ++ [sc]) := by
  refine List.pairwise_append.mpr ⟨first, List.pairwise_singleton _ _, ?_⟩
  intro _ _ sc' member _
  rw [List.mem_singleton.mp member]
  exact empty

theorem FirstFilled.updateLast (first : FirstFilled content)
    (keepsName : ∀ sc, (f sc).name = sc.name)
    (keepsApp : ∀ sc, (f sc).appfuncs = sc.appfuncs)
    : FirstFilled (updateLast f content) := by
  rcases List.eq_nil_or_concat content with rfl | ⟨front, last, rfl⟩
  · exact first
  rw [List.concat_eq_append] at first ⊢
  rw [updateLast_append]
  obtain ⟨before, _, across⟩ := List.pairwise_append.mp first
  refine List.pairwise_append.mpr ⟨before, List.pairwise_singleton _ _, ?_⟩
  intro sc there sc' member same
  rw [List.mem_singleton.mp member, keepsName] at same
  rw [List.mem_singleton.mp member, keepsApp]
  exact across sc there last (List.mem_singleton.mpr rfl) same

/-- When every content has an application, no name is there twice. -/
theorem FirstFilled.distinct (first : FirstFilled content)
    (filled : ∀ sc ∈ content, sc.appfuncs.isSome = true)
    : (content.map SessionContent.name).Nodup := by
  refine List.pairwise_map.mpr (first.imp_of_mem (fun _ member empty same => ?_))
  have some := filled _ member
  rw [empty same] at some
  cases some

end Names

-----------------------------------------------------------------------------------------
-- Streams
-----------------------------------------------------------------------------------------

/-- The in-band stream that a content of an invitation asks for. -/
def streamSid (s : State) (cn : JingleContent) : Option String :=
  match jingleGetTransportfuncs s (cn.transport.getAttribute "xmlns") with
  | some .ibb => (Ibb.parseTransport cn.transport).toOption.map JingleIBB.sid
  | _ => none

/-- Two contents that do not ask for the same stream. -/
def StreamsApart (s : State) (cn cn' : JingleContent) : Prop :=
  ∀ sid ∈ streamSid s cn, streamSid s cn' ≠ some sid

instance (s : State) : DecidableRel (StreamsApart s) := by
  intro cn cn'
  unfold StreamsApart
  infer_instance

/-- The streams entered since `s₀` are there, each under its own sid. -/
def StreamsSince (s₀ s : State) : Prop :=
  ∀ sid t, Ibb.lookup s sid = some t → s₀.transports.next ≤ t →
    ∃ jibb, s.transports.get? t = some (.ibb jibb) ∧ jibb.sid = sid

theorem lookup_carrying (s : State) (jibb : JingleIBB) (sid : String)
    : Ibb.lookup (s.carrying (.ibb jibb)) sid
      = if sid = jibb.sid then some s.transports.next else Ibb.lookup s sid := by
  simp only [Ibb.lookup, State.carrying, List.find?_append]
  by_cases here : sid = jibb.sid
  · subst here
    have absent : (s.jingleIBBs.filter (fun entry => entry.1 != jibb.sid)).find?
        (fun entry => entry.1 == jibb.sid) = none := by
      rw [List.find?_eq_none]
      intro entry member
      simpa using (List.mem_filter.mp member).2
    simp [absent]
  · have other : ∀ entry : String × TransportPtr,
        decide ((entry.1 != jibb.sid) = true ∧ (entry.1 == sid) = true) = (entry.1 == sid) := by
      intro entry
      by_cases same : entry.1 = sid
      · simp [same, here]
      · simp [same]
    simp only [List.find?_filter, other, here, if_false]
    cases s.jingleIBBs.find? (fun entry => entry.1 == sid) with
    | none => simp [Ne.symm here]
    | some entry => simp

theorem carrying_next (s : State) (transport : Transport)
    : (s.carrying transport).transports.next = s.transports.next + 1 := by
  cases transport with
  | s5b js5b => rfl
  | ibb jibb =>
      simp only [State.carrying]
      cases Ibb.lookup s jibb.sid <;> rfl

/-- A transport that was there stays, unless its stream is replaced. -/
theorem get?_carrying {s : State} {t : TransportPtr} (transport : Transport)
    (known : t < s.transports.next)
    : (s.carrying transport).transports.get? t = s.transports.get? t
      ∨ (∃ jibb, transport = .ibb jibb ∧ Ibb.lookup s jibb.sid = some t
        ∧ (s.carrying transport).transports.get? t = none) := by
  cases transport with
  | s5b js5b => exact Or.inl (Pool.get?_alloc_of_lt _ known)
  | ibb jibb =>
      simp only [State.carrying]
      cases replaced : Ibb.lookup s jibb.sid with
      | none => exact Or.inl (Pool.get?_alloc_of_lt _ known)
      | some old =>
          dsimp only
          by_cases here : t = old
          · subst here
            exact Or.inr ⟨jibb, rfl, replaced, Pool.get?_erase_self _ _⟩
          · rw [Pool.get?_erase_of_ne here]
            exact Or.inl (Pool.get?_alloc_of_lt _ known)

/-- The transport that was made is there. -/
theorem get?_carrying_self {s : State} (transport : Transport)
    (below : ∀ sid t, Ibb.lookup s sid = some t → t < s.transports.next)
    : (s.carrying transport).transports.get? s.transports.next = some transport := by
  cases transport with
  | s5b js5b => exact Pool.get?_alloc_self _ _
  | ibb jibb =>
      simp only [State.carrying]
      cases replaced : Ibb.lookup s jibb.sid with
      | none => exact Pool.get?_alloc_self _ _
      | some old =>
          have older := below jibb.sid old replaced
          dsimp only
          rw [Pool.get?_erase_of_ne (Nat.ne_of_gt older)]
          exact Pool.get?_alloc_self _ _

-----------------------------------------------------------------------------------------
-- Contents that are complete
-----------------------------------------------------------------------------------------

/-- The content `sc` is what the `<content/>` element `cn` became in a turn since `s₀`. -/
structure Fills (s₀ s : State) (cn : JingleContent) (sc : SessionContent) : Prop where
  name : sc.name = cn.name
  app : sc.appfuncs.isSome = true
  description : ∃ d, sc.description = some d ∧ s.infoList.Live d
  known : sc.transfuncs = jingleGetTransportfuncs s₀ (cn.transport.getAttribute "xmlns")
  trans : ∃ transfuncs t, sc.transfuncs = some transfuncs ∧ sc.transport = some t
    ∧ s₀.transports.next ≤ t ∧ t < s.transports.next
    ∧ (transfuncs = .ibb → ∃ sid, streamSid s₀ cn = some sid
      ∧ ∀ transport, s.transports.get? t = some transport →
        Ibb.lookup s sid = some t ∧ ∃ jibb, transport = .ibb jibb ∧ jibb.sid = sid)

/-- Only the IBB module makes a stream under a sid. -/
theorem Fills.asked {s₀ s : State} {cn : JingleContent} {sc : SessionContent} {sid : String}
    (fills : Fills s₀ s cn sc) (asked : streamSid s₀ cn = some sid)
    : sc.transfuncs = some .ibb := by
  rw [fills.known]
  unfold streamSid at asked
  split at asked
  · assumption
  · cases asked

/-- The transport of the content can be read by its module. -/
def Readable (s : State) (sc : SessionContent) : Prop :=
  ∀ t, sc.transfuncs = some .ibb → sc.transport = some t →
    ∃ jibb, s.transports.get? t = some (.ibb jibb)

/-- The contents made for the elements `kept`, as long as no name repeats. -/
structure Complete (s₀ s : State) (kept : List JingleContent) (content : List SessionContent)
    : Prop where
  fills : List.Forall₂ (Fills s₀ s) kept content
  apart : (content.map SessionContent.transport).Nodup
  readable : kept.Pairwise (StreamsApart s₀) → ∀ sc ∈ content, Readable s sc

/-- What is around the session `p` while contents are made for the elements `kept`: only the
streams that these ask for are entered, and only the streams they replace are freed.
-/
structure Around (s₀ : State) (p : SessionPtr) (kept : List JingleContent) (s : State)
    : Prop where
  others : ∀ q, q ≠ p → s.sessions.get? q = s₀.sessions.get? q
  transfers : ∀ d, d < s₀.infoList.next → s.infoList.get? d = s₀.infoList.get? d
  listed : s₀.infoList.next ≤ s.infoList.next
  entered : ∀ cn ∈ kept, ∀ sid, streamSid s₀ cn = some sid →
    ∃ t, Ibb.lookup s sid = some t ∧ s₀.transports.next ≤ t
  table : ∀ sid, (∀ cn ∈ kept, streamSid s₀ cn ≠ some sid) →
    Ibb.lookup s sid = Ibb.lookup s₀ sid
  transports : ∀ t, t < s₀.transports.next →
    (∀ cn ∈ kept, ∀ sid, streamSid s₀ cn = some sid → Ibb.lookup s₀ sid ≠ some t) →
    s.transports.get? t = s₀.transports.get? t
  freed : ∀ cn ∈ kept, ∀ sid, streamSid s₀ cn = some sid →
    ∀ t, Ibb.lookup s₀ sid = some t → t < s₀.transports.next → s.transports.get? t = none

/-- What the session `p`, created as `js`, has become in a turn since `s₀`. -/
structure Built (s₀ : State) (p : SessionPtr) (js : JingleSession) (kept : List JingleContent)
    (s : State)
    : Prop where
  modules : SameModules s₀ s
  sent : s.sent = s₀.sent
  staleReads : s.staleReads = s₀.staleReads
  since : s₀.transports.next ≤ s.transports.next
  streams : StreamsSince s₀ s
  around : Around s₀ p kept s
  content : ∃ content, s.sessions.get? p = some { js with content }
    ∧ content.map SessionContent.name = kept.map JingleContent.name ∧ FirstFilled content
    ∧ ((kept.map JingleContent.name).Nodup → Complete s₀ s kept content)

section Steps

variable {s₀ s : State} {p : SessionPtr} {js : JingleSession} {kept : List JingleContent}

/-- A relation between two lists survives a rewrite by name that keeps it. -/
theorem forall₂_updateFirst {α : Type} {R R' : α → SessionContent → Prop} {name : String}
    {f : SessionContent → SessionContent} {entries : List α} {content : List SessionContent}
    (related : List.Forall₂ R entries content) (same : ∀ a sc, R a sc → R' a sc)
    (rewritten : ∀ a sc, R a sc → R' a (f sc))
    : List.Forall₂ R' entries (updateFirst name f content) := by
  induction related with
  | nil => exact .nil
  | @cons a sc entries content head tail ih =>
      simp only [updateFirst]
      split
      · exact .cons (rewritten a sc head) (tail.imp same)
      · exact .cons (same a sc head) ih

theorem Fills.listing {cn : JingleContent} {sc : SessionContent} (fills : Fills s₀ s cn sc)
    (jft : JingleFT)
    : Fills s₀ (s.listing jft) cn sc := by
  obtain ⟨d, described, live⟩ := fills.description
  exact { fills with description := ⟨d, described, live.alloc jft⟩ }

theorem Fills.withContent {cn : JingleContent} {sc : SessionContent} (fills : Fills s₀ s cn sc)
    (p : SessionPtr) (g : List SessionContent → List SessionContent)
    : Fills s₀ (s.withContent p g) cn sc :=
  ⟨fills.name, fills.app, fills.description, fills.known, fills.trans⟩

/-- A new transport leaves the others what they are, or replaces the stream of one. -/
theorem Fills.carrying {cn : JingleContent} {sc : SessionContent} (fills : Fills s₀ s cn sc)
    (transport : Transport)
    : Fills s₀ (s.carrying transport) cn sc := by
  obtain ⟨transfuncs, t, known, carried, new, below, stream⟩ := fills.trans
  refine { fills with description := ?_, trans := ⟨transfuncs, t, known, carried, new, ?_, ?_⟩ }
  · cases transport <;> exact fills.description
  · rw [carrying_next]
    exact Nat.lt_succ_of_lt below
  · intro isIbb
    obtain ⟨sid, asked, there⟩ := stream isIbb
    refine ⟨sid, asked, fun transport' found => ?_⟩
    rcases get?_carrying transport below with same | ⟨_, _, _, gone⟩
    · rw [same] at found
      obtain ⟨entered, jibb, isIbb, ownSid⟩ := there transport' found
      refine ⟨?_, jibb, isIbb, ownSid⟩
      cases transport with
      | s5b js5b => exact entered
      | ibb new =>
          rw [lookup_carrying]
          by_cases here : sid = new.sid
          · -- then its own stream was replaced, and it would be gone
            subst here
            have erased : (s.carrying (.ibb new)).transports.get? t = none := by
              simp only [State.carrying, entered]
              exact Pool.get?_erase_self _ _
            rw [same, found] at erased
            cases erased
          · rw [if_neg here]
            exact entered
    · rw [gone] at found
      cases found

theorem StreamsSince.below (streams : StreamsSince s₀ s)
    (since : s₀.transports.next ≤ s.transports.next) {sid : String} {t : TransportPtr}
    (entered : Ibb.lookup s sid = some t)
    : t < s.transports.next := by
  by_cases old : s₀.transports.next ≤ t
  · obtain ⟨jibb, found, _⟩ := streams sid t entered old
    exact Pool.lt_next found
  · exact Nat.lt_of_lt_of_le (Nat.lt_of_not_le old) since

theorem StreamsSince.carrying (streams : StreamsSince s₀ s)
    (since : s₀.transports.next ≤ s.transports.next) (transport : Transport)
    : StreamsSince s₀ (s.carrying transport) := by
  intro sid t entered new
  have below (sid : String) (t : TransportPtr) (entered : Ibb.lookup s sid = some t) :=
    streams.below since entered
  -- an entry that was there before and has another sid than the new one
  have older (entered' : Ibb.lookup s sid = some t)
      (other : ∀ jibb, transport = .ibb jibb → sid ≠ jibb.sid)
      : ∃ jibb, (s.carrying transport).transports.get? t = some (.ibb jibb) ∧ jibb.sid = sid := by
    obtain ⟨jibb, found, ownSid⟩ := streams sid t entered' new
    rcases get?_carrying transport (below sid t entered') with same | replaced
    · exact ⟨jibb, same.trans found, ownSid⟩
    · obtain ⟨jibb', rfl, replaced, _⟩ := replaced
      obtain ⟨jibb'', found', ownSid'⟩ := streams jibb'.sid t replaced new
      cases found.symm.trans found'
      exact absurd (ownSid.symm.trans ownSid') (other jibb' rfl)
  cases transport with
  | s5b js5b => exact older entered (fun _ h => by cases h)
  | ibb jibb =>
      rw [lookup_carrying] at entered
      by_cases here : sid = jibb.sid
      · rw [if_pos here] at entered
        cases entered
        exact ⟨jibb, get?_carrying_self _ below, here.symm⟩
      · rw [if_neg here] at entered
        exact older entered (fun jibb' same => by cases same; exact here)

/-- The new stream replaces only one that a content before it asked for. -/
theorem Readable.carrying {cn : JingleContent} {sc : SessionContent} {transport : Transport}
    (readable : Readable s sc) (fills : Fills s₀ s cn sc) (streams : StreamsSince s₀ s)
    (apart : ∀ jibb, transport = .ibb jibb → streamSid s₀ cn ≠ some jibb.sid)
    : Readable (s.carrying transport) sc := by
  intro t isIbb carried
  obtain ⟨jibb, found⟩ := readable t isIbb carried
  obtain ⟨transfuncs, t', known, carried', new, below, stream⟩ := fills.trans
  cases carried.symm.trans carried'
  cases isIbb.symm.trans known
  rcases get?_carrying transport below with same | ⟨jibb', rfl, replaced, _⟩
  · exact ⟨jibb, same.trans found⟩
  · obtain ⟨sid, asked, there⟩ := stream rfl
    obtain ⟨_, jibb'', same, ownSid⟩ := there _ found
    cases same
    obtain ⟨jibb'', found', ownSid'⟩ := streams jibb'.sid t replaced new
    cases found.symm.trans found'
    rw [← ownSid, ownSid'] at asked
    exact absurd asked (apart jibb' rfl)

/-- A transport that was freed does not come back. -/
theorem Around.transports_gone (around : Around s₀ p kept s) {t : TransportPtr}
    (known : t < s₀.transports.next) (gone : s₀.transports.get? t = none)
    : s.transports.get? t = none := by
  by_cases asked : ∃ cn ∈ kept, ∃ sid, streamSid s₀ cn = some sid ∧ Ibb.lookup s₀ sid = some t
  · obtain ⟨cn, member, sid, asks, entered⟩ := asked
    exact around.freed cn member sid asks t entered known
  · refine (around.transports t known (fun cn member sid asks entered => ?_)).trans gone
    exact asked ⟨cn, member, sid, asks, entered⟩

theorem Around.listing (around : Around s₀ p kept s) (jft : JingleFT)
    : Around s₀ p kept (s.listing jft) := by
  refine { around with transfers := fun d known => ?_, listed := ?_ }
  · have below : d < s.infoList.next := Nat.lt_of_lt_of_le known around.listed
    exact (Pool.get?_alloc_of_lt jft below).trans (around.transfers d known)
  · exact Nat.le_succ_of_le around.listed

theorem Around.withContent (around : Around s₀ p kept s)
    (g : List SessionContent → List SessionContent)
    : Around s₀ p kept (s.withContent p g) :=
  { around with
    others := fun q other => (Pool.get?_modify_of_ne _ other).trans (around.others q other) }

/-- One more transport, made for the element `cn`. -/
theorem Around.carrying (around : Around s₀ p kept s)
    (since : s₀.transports.next ≤ s.transports.next) {cn : JingleContent} (transport : Transport)
    (asked : ∀ sid, streamSid s₀ cn = some sid ↔ ∃ jibb, transport = .ibb jibb ∧ jibb.sid = sid)
    : Around s₀ p (kept ++ [cn]) (s.carrying transport) := by
  have ofAll {P : JingleContent → Prop} (all : ∀ cn' ∈ kept ++ [cn], P cn')
      : (∀ cn' ∈ kept, P cn') ∧ P cn :=
    ⟨fun cn' member => all cn' (List.mem_append_left _ member),
      all cn (List.mem_append_right _ (List.mem_singleton.mpr rfl))⟩
  refine ⟨?_, ?_, ?_, ?_, ?_, ?_, ?_⟩
  · cases transport <;> exact around.others
  · cases transport <;> exact around.transfers
  · cases transport <;> exact around.listed
  · intro cn' member sid asks
    rcases List.mem_append.mp member with old | new
    · obtain ⟨t, entered, fresh⟩ := around.entered cn' old sid asks
      cases transport with
      | s5b js5b => exact ⟨t, entered, fresh⟩
      | ibb jibb =>
          rw [lookup_carrying]
          by_cases here : sid = jibb.sid
          · rw [if_pos here]
            exact ⟨_, rfl, since⟩
          · rw [if_neg here]
            exact ⟨t, entered, fresh⟩
    · rw [List.mem_singleton.mp new] at asks
      obtain ⟨jibb, rfl, rfl⟩ := (asked sid).mp asks
      rw [lookup_carrying, if_pos rfl]
      exact ⟨_, rfl, since⟩
  · intro sid others
    obtain ⟨old, new⟩ := ofAll others
    rw [← around.table sid old]
    cases transport with
    | s5b js5b => rfl
    | ibb jibb =>
        rw [lookup_carrying, if_neg]
        rintro rfl
        exact new ((asked jibb.sid).mpr ⟨jibb, rfl, rfl⟩)
  · intro t known others
    obtain ⟨old, new⟩ := ofAll others
    have same := around.transports t known old
    have below : t < s.transports.next := Nat.lt_of_lt_of_le known since
    rcases get?_carrying transport below with kept' | replaced
    · exact kept'.trans same
    · -- the stream it replaces would be one of `s₀`, or one entered since
      obtain ⟨jibb, rfl, entered, _⟩ := replaced
      have asks := (asked jibb.sid).mpr ⟨jibb, rfl, rfl⟩
      by_cases before : ∃ cn' ∈ kept, streamSid s₀ cn' = some jibb.sid
      · obtain ⟨cn', member, asks'⟩ := before
        obtain ⟨t', entered', fresh⟩ := around.entered cn' member jibb.sid asks'
        cases entered.symm.trans entered'
        exact absurd known (Nat.not_lt.mpr fresh)
      · have table := around.table jibb.sid (fun cn' member asks' => before ⟨cn', member, asks'⟩)
        exact absurd (table.symm.trans entered) (new jibb.sid asks)
  · intro cn' member sid asks t entered known
    have below : t < s.transports.next := Nat.lt_of_lt_of_le known since
    have gone (cn' : JingleContent) (old : cn' ∈ kept) (asks : streamSid s₀ cn' = some sid)
        : (s.carrying transport).transports.get? t = none := by
      rcases get?_carrying transport below with kept' | ⟨_, _, _, erased⟩
      · exact kept'.trans (around.freed cn' old sid asks t entered known)
      · exact erased
    rcases List.mem_append.mp member with old | new
    · exact gone cn' old asks
    · rw [List.mem_singleton.mp new] at asks
      obtain ⟨jibb, rfl, rfl⟩ := (asked sid).mp asks
      by_cases before : ∃ cn' ∈ kept, streamSid s₀ cn' = some jibb.sid
      · obtain ⟨cn', old, asks'⟩ := before
        exact gone cn' old asks'
      · have table := around.table jibb.sid (fun cn' member asks' => before ⟨cn', member, asks'⟩)
        simp only [State.carrying, table, entered]
        exact Pool.get?_erase_self _ _

/-- A content whose description is invalid changes nothing. -/
theorem Built.same (built : Built s₀ p js kept s) : Built s₀ p js (kept ++ []) s := by
  rwa [List.append_nil]

/-- A content whose transport is invalid leaves its description behind. -/
theorem Built.described (built : Built s₀ p js kept s) (cn : JingleContent) (jft : JingleFT)
    (appfuncs : JingleAppFuncs)
    : Built s₀ p js kept ((s.listing jft).withContent p
        (fun content => (withApp .pending cn appfuncs s.infoList.next content).dropLast)) := by
  obtain ⟨content, listed, names, first, complete⟩ := built.content
  refine ⟨built.modules, built.sent, built.staleReads, built.since, built.streams,
    (built.around.listing jft).withContent _, ?_⟩
  refine ⟨_, State.withContent_listed (s := s.listing jft) listed _, ?_⟩
  simp only [dropLast_withApp]
  refine ⟨?_, first.updateFirst (fun _ => rfl), fun distinct => ?_⟩
  · rw [map_updateFirst]
    · exact names
    · exact fun _ => rfl
  obtain ⟨fills, apart, readable⟩ := complete distinct
  refine ⟨?_, ?_, fun streams sc member => ?_⟩
  · refine forall₂_updateFirst fills
      (fun _ _ fills => (fills.listing jft).withContent p _) (fun _ sc fills => ?_)
    exact ⟨fills.name, rfl, ⟨s.infoList.next, rfl, Pool.live_alloc_self _ _⟩, fills.known,
      fills.trans⟩
  · rw [map_updateFirst]
    · exact apart
    · exact fun _ => rfl
  · rcases mem_updateFirst member with old | ⟨old, there, _, rfl⟩
    · exact readable streams sc old
    · exact readable streams old there

/-- An in-band stream is what the IBB module makes of the element. -/
theorem parse_ibb {cn : JingleContent} {transport : Transport}
    (parsed : JingleTransportFuncs.ibb.parse env w s cn = .ok transport)
    : ∃ jibb, transport = .ibb jibb ∧ Ibb.parseTransport cn.transport = .ok jibb := by
  simp only [JingleTransportFuncs.parse] at parsed
  cases element : Ibb.parseTransport cn.transport with
  | error err =>
      rw [element] at parsed
      cases parsed
  | ok jibb =>
      rw [element] at parsed
      cases parsed
      exact ⟨jibb, rfl, rfl⟩

/-- A transport that is an in-band stream was asked for under its sid. -/
theorem streamSid_parsed {cn : JingleContent} {transfuncs : JingleTransportFuncs}
    {jibb : JingleIBB}
    (known : jingleGetTransportfuncs s₀ (cn.transport.getAttribute "xmlns") = some transfuncs)
    (parsed : transfuncs.parse env w s cn = .ok (.ibb jibb))
    : streamSid s₀ cn = some jibb.sid := by
  cases transfuncs with
  | ibb =>
      obtain ⟨jibb', same, element⟩ := parse_ibb parsed
      cases same
      rw [streamSid, known]
      dsimp only
      rw [element]
      rfl
  | s5b =>
      simp only [JingleTransportFuncs.parse] at parsed
      split at parsed <;> cases parsed

/-- A content asks for a stream exactly when its transport is that stream. -/
theorem streamSid_parsed_iff {cn : JingleContent} {transfuncs : JingleTransportFuncs}
    {transport : Transport}
    (known : jingleGetTransportfuncs s₀ (cn.transport.getAttribute "xmlns") = some transfuncs)
    (parsed : transfuncs.parse env w s cn = .ok transport) (sid : String)
    : streamSid s₀ cn = some sid ↔ ∃ jibb, transport = .ibb jibb ∧ jibb.sid = sid := by
  constructor
  · intro asked
    cases transfuncs with
    | s5b =>
        rw [streamSid, known] at asked
        cases asked
    | ibb =>
        obtain ⟨jibb, rfl, _⟩ := parse_ibb parsed
        exact ⟨jibb, rfl, Option.some.inj ((streamSid_parsed known parsed).symm.trans asked)⟩
  · intro stream
    obtain ⟨jibb, rfl, rfl⟩ := stream
    exact streamSid_parsed known parsed

/-- The content just made fills its element. -/
theorem fills_new {cn : JingleContent} (jft : JingleFT) (appfuncs : JingleAppFuncs)
    {transfuncs : JingleTransportFuncs} {transport : Transport}
    (since : s₀.transports.next ≤ s.transports.next) (streams : StreamsSince s₀ s)
    (known : jingleGetTransportfuncs s₀ (cn.transport.getAttribute "xmlns") = some transfuncs)
    (parsed : transfuncs.parse env w s cn = .ok transport)
    : Fills s₀ ((s.listing jft).carrying transport) cn
        (filledContent cn appfuncs s.infoList.next transfuncs s.transports.next) := by
  have below (sid : String) (t : TransportPtr) (entered : Ibb.lookup (s.listing jft) sid = some t)
      : t < (s.listing jft).transports.next :=
    streams.below since entered
  refine ⟨rfl, rfl, ⟨s.infoList.next, rfl, ?_⟩, known.symm,
    ⟨transfuncs, s.transports.next, rfl, rfl, since, ?_, ?_⟩⟩
  · cases transport <;> exact Pool.live_alloc_self _ _
  · rw [carrying_next]
    exact Nat.lt_succ_self _
  · intro isIbb
    subst isIbb
    obtain ⟨jibb, rfl, element⟩ := parse_ibb parsed
    refine ⟨jibb.sid, streamSid_parsed known parsed, fun transport found => ?_⟩
    have made := get?_carrying_self (.ibb jibb) below
    cases made.symm.trans found
    refine ⟨?_, jibb, rfl, rfl⟩
    rw [lookup_carrying, if_pos rfl]
    rfl

/-- Two empty contents are appended and filled by name: the first of that name. -/
theorem firstFilled_withTrans {content : List SessionContent} (first : FirstFilled content)
    (cn : JingleContent) (appfuncs : JingleAppFuncs) (d : FtPtr)
    (transfuncs : JingleTransportFuncs) (t : TransportPtr)
    : FirstFilled (withTrans cn transfuncs t (withApp .pending cn appfuncs d content))
      ∧ (withTrans cn transfuncs t (withApp .pending cn appfuncs d content)).map SessionContent.name
        = content.map SessionContent.name ++ [cn.name] := by
  have appended : FirstFilled (content ++ [.new cn.name .pending]) := first.append rfl
  constructor
  · refine FirstFilled.updateFirst ?_ (fun _ => rfl)
    refine FirstFilled.updateLast ?_ (fun _ => rfl) (fun _ => rfl)
    refine FirstFilled.updateFirst ?_ (fun _ => rfl)
    exact appended.updateLast (fun _ => rfl) (fun _ => rfl)
  · unfold withTrans withApp
    rw [map_updateFirst, map_updateLast, map_updateFirst, map_updateLast, List.map_append]
    · rfl
    all_goals exact fun _ => rfl

/-- A content that is kept joins the complete ones if its name is new. -/
theorem Built.filled (built : Built s₀ p js kept s) {cn : JingleContent} (jft : JingleFT)
    (appfuncs : JingleAppFuncs) {transfuncs : JingleTransportFuncs} {transport : Transport}
    (known : jingleGetTransportfuncs s₀ (cn.transport.getAttribute "xmlns") = some transfuncs)
    (parsed : transfuncs.parse env w s cn = .ok transport)
    : Built s₀ p js (kept ++ [cn]) (((s.listing jft).carrying transport).withContent p
        (fun content => withTrans cn transfuncs s.transports.next
          (withApp .pending cn appfuncs s.infoList.next content))) := by
  obtain ⟨content, listed, names, first, complete⟩ := built.content
  have listed' : ((s.listing jft).carrying transport).sessions.get? p
      = some { js with content } := by
    rw [State.carrying_sessions]
    exact listed
  have streamsListed : StreamsSince s₀ (s.listing jft) := built.streams
  have sinceListed : s₀.transports.next ≤ (s.listing jft).transports.next := built.since
  obtain ⟨first', names'⟩ := firstFilled_withTrans first cn appfuncs s.infoList.next transfuncs
    s.transports.next
  have around : Around s₀ p (kept ++ [cn]) ((s.listing jft).carrying transport) :=
    (built.around.listing jft).carrying sinceListed transport
      (fun sid => streamSid_parsed_iff known parsed sid)
  refine ⟨?_, ?_, ?_, ?_, streamsListed.carrying sinceListed transport, around.withContent _, ?_⟩
  · cases transport <;> exact built.modules
  · cases transport <;> exact built.sent
  · cases transport <;> exact built.staleReads
  · have next := carrying_next (s.listing jft) transport
    have more : ((s.listing jft).carrying transport).transports.next = s.transports.next + 1 := next
    change s₀.transports.next ≤ ((s.listing jft).carrying transport).transports.next
    rw [more]
    exact Nat.le_succ_of_le built.since
  refine ⟨_, State.withContent_listed listed' _, ?_, first', fun distinct => ?_⟩
  · rw [names', names, List.map_append]
    rfl
  rw [List.map_append, List.nodup_append] at distinct
  have fresh : cn.name ∉ content.map SessionContent.name := by
    rw [names]
    intro there
    exact distinct.2.2 _ there cn.name (List.mem_singleton.mpr rfl) rfl
  obtain ⟨fills, apart, readable⟩ := complete distinct.1
  have new := fills_new jft appfuncs built.since built.streams known parsed
  simp only [withTrans_withApp_fresh fresh]
  refine ⟨?_, ?_, fun streams sc member => ?_⟩
  · refine List.rel_append ?_ (.cons (new.withContent p _) .nil)
    exact fills.imp (fun _ _ fills => ((fills.listing jft).carrying transport).withContent p _)
  · rw [List.map_append, List.nodup_append]
    refine ⟨apart, List.nodup_singleton _, ?_⟩
    intro carried there made member same
    obtain ⟨sc, scMember, rfl⟩ := List.mem_map.mp there
    obtain ⟨cn', _, fills⟩ := forall₂_mem_right fills scMember
    obtain ⟨_, t, _, carries, _, below, _⟩ := fills.trans
    rw [carries, List.mem_singleton.mp member] at same
    cases same
    exact Nat.lt_irrefl _ below
  · obtain ⟨before, _, across⟩ := List.pairwise_append.mp streams
    rcases List.mem_append.mp member with old | last
    · obtain ⟨cn', there, fills⟩ := forall₂_mem_right fills old
      have earlier : Readable (s.listing jft) sc := readable before sc old
      refine earlier.carrying (fills.listing jft) streamsListed ?_
      rintro jibb rfl asked
      exact across cn' there cn (List.mem_singleton.mpr rfl) jibb.sid asked
        (streamSid_parsed known parsed)
    · rw [List.mem_singleton.mp last]
      intro t isIbb carried
      obtain ⟨transfuncs', t', same, carried', _, _, _⟩ := new.trans
      cases isIbb.symm.trans same
      cases Option.some.inj isIbb
      obtain ⟨jibb, rfl, _⟩ := parse_ibb parsed
      cases carried
      exact ⟨jibb, get?_carrying_self _ (fun _ _ entered =>
        streamsListed.below sinceListed entered)⟩

end Steps

end McabberJingle
