import Mathlib.Data.List.Forall2
import McabberJingle.Effects.Reach
import McabberJingle.System.Execution

/-! A session-accept makes the contents that it names ACTIVE and hands their transports over,
whoever sent it and whatever their state. When it names only PENDING contents of an OUTGOING
session, the state of a content goes one way over every run.
-/

namespace McabberJingle

open Program Program.Prog

variable {env : Env} {w : World} {s₀ s s' : State}

-----------------------------------------------------------------------------------------
-- What a session-accept may change
-----------------------------------------------------------------------------------------

/-- The content `sc` was PENDING in a session of ours and is ACTIVE now. -/
structure Activated (js : JingleSession) (sc sc' : SessionContent) : Prop where
  outgoing : js.origin = .outgoing
  pending : sc.state = .pending
  active : sc' = { sc with state := .active }

/-- The transport `t` belongs to the content with this name, which was so activated. -/
def ActivatedAt (s s' : State) (p : SessionPtr) (name : String) (t : TransportPtr) : Prop :=
  ∃ js js' sc sc', s.sessions.get? p = some js ∧ s'.sessions.get? p = some js'
    ∧ sc ∈ js.content ∧ sc' ∈ js'.content ∧ sc.name = name ∧ sc.transport = some t
    ∧ Activated js sc sc'

/-- The contents, the transports and the calls of `init` from `s` to `s'`: only PENDING
contents of OUTGOING sessions are touched, and these become ACTIVE.
-/
structure GuardedAccept (s s' : State) : Prop where
  sessions : ∀ p js, s.sessions.get? p = some js →
    ∃ content, s'.sessions.get? p = some { js with content }
      ∧ List.Forall₂ (fun sc sc' => sc' = sc ∨ Activated js sc sc') js.content content
  unlisted : ∀ p, s.sessions.get? p = none → s'.sessions.get? p = none
  transports : ∀ t, s'.transports.get? t ≠ s.transports.get? t →
    ∃ p name, ActivatedAt s s' p name t
  inits : ∃ new, s'.inits = s.inits ++ new
    ∧ ∀ sc t, (sc, t) ∈ new → ActivatedAt s s' sc.owner sc.name t

/-- Each content that the session-accept names is PENDING in an OUTGOING session. -/
def AcceptsPending (env : Env) (s : State) (input : StepInput) : Prop :=
  ∀ jn ∈ input.2.request env, jn.action = .sessionAccept → (checkContents jn).ok = true →
    ∀ cell ∈ sessionFind s jn, ∀ jc ∈ (checkContents jn).jn.content,
      ∀ sc ∈ sessionFindSessioncontent cell.2 jc.name,
        cell.2.origin = .outgoing ∧ sc.state = .pending

instance (env : Env) (s : State) (input : StepInput)
    : Decidable (AcceptsPending env s input) := by
  unfold AcceptsPending
  infer_instance

-----------------------------------------------------------------------------------------
-- The contents after a session-accept
-----------------------------------------------------------------------------------------

/-- The content became ACTIVE, which `may` allows, or stayed as it is. -/
def MaybeActive (may : SessionContent → Prop) (sc sc' : SessionContent) : Prop :=
  sc' = sc ∨ may sc ∧ sc' = { sc with state := .active }

/-- Making one more content ACTIVE, by induction on the lists. -/
theorem forall₂_activate {may : SessionContent → Prop} {old content : List SessionContent}
    (name : String) (before : List.Forall₂ (MaybeActive may) old content)
    (allowed : ∀ sc ∈ old.find? (fun sc => sc.name == name), may sc)
    : List.Forall₂ (MaybeActive may) old
        (updateFirst name (fun sc => { sc with state := .active }) content) := by
  induction before with
  | nil => exact .nil
  | @cons sc sc' old content head rest ih =>
      have sameName : sc'.name = sc.name := by
        rcases head with rfl | ⟨_, rfl⟩
        · rfl
        · rfl
      simp only [updateFirst, sameName]
      by_cases named : sc.name = name
      · rw [if_pos named]
        have may : may sc := allowed sc (by simp [named])
        refine .cons (Or.inr ⟨may, ?_⟩) rest
        rcases head with rfl | ⟨_, rfl⟩
        · rfl
        · rfl
      · rw [if_neg named]
        refine .cons head (ih ?_)
        simpa [List.find?_cons, beq_eq_false_iff_ne.mpr named] using allowed

/-- By induction on the stanza: only contents that it names become ACTIVE. -/
theorem forall₂_activated {may : SessionContent → Prop} {old content : List SessionContent}
    (contents : List JingleContent) (before : List.Forall₂ (MaybeActive may) old content)
    (allowed : ∀ jc ∈ contents, ∀ sc ∈ old.find? (fun sc => sc.name == jc.name), may sc)
    : List.Forall₂ (MaybeActive may) old (activated contents content) := by
  induction contents generalizing content with
  | nil => exact before
  | cons jc rest ih =>
      have first := forall₂_activate jc.name before (allowed jc List.mem_cons_self)
      exact ih first (fun jc' member => allowed jc' (List.mem_cons_of_mem _ member))

-----------------------------------------------------------------------------------------
-- One session-accept
-----------------------------------------------------------------------------------------

/-- The content found under a name that the stanza has is ACTIVE afterwards. -/
theorem activatedAt_named {p : SessionPtr} {js : JingleSession} {contents : List JingleContent}
    {name : String} {t : TransportPtr} (listed : s.sessions.get? p = some js)
    (after : s'.sessions.get? p = some { js with content := activated contents js.content })
    (outgoing : js.origin = .outgoing)
    (pending : ∀ jc ∈ contents, ∀ sc ∈ sessionFindSessioncontent js jc.name, sc.state = .pending)
    (names : NamesTransport js contents name t)
    : ActivatedAt s s' p name t := by
  obtain ⟨jc, named, rfl, sc, found, carried⟩ := names
  have active := find?_activated contents js.content jc.name
  have hit : js.content.find? (fun sc => sc.name == jc.name) = some sc := found
  rw [hit, Option.map_some, if_pos (List.mem_map_of_mem named)] at active
  obtain ⟨member, sameName⟩ := sessionFindSessioncontent_mem found
  exact ⟨js, _, sc, _, listed, after, member, List.mem_of_find?_eq_some active, sameName, carried,
    outgoing, pending jc named sc found, rfl⟩

/-- A step that leaves sessions, transports and `init` alone is guarded. -/
theorem guardedAccept_of_same (sessions : s'.sessions = s.sessions)
    (transports : s'.transports = s.transports) (inits : s'.inits = s.inits)
    : GuardedAccept s s' where
  sessions p js listed :=
    ⟨js.content, by rw [sessions, listed], List.forall₂_same.mpr (fun _ _ => Or.inl rfl)⟩
  unlisted p absent := by rw [sessions, absent]
  transports t changed := absurd (by rw [transports]) changed
  inits := ⟨[], by rw [inits, List.append_nil], fun _ _ member => by cases member⟩

/-- Accepting PENDING contents of an OUTGOING session is guarded. -/
theorem AcceptedBy.guarded {p : SessionPtr} {js : JingleSession} {contents : List JingleContent}
    (accepted : AcceptedBy env contents p js s s') (listed : s.sessions.get? p = some js)
    (pending : ∀ jc ∈ contents, ∀ sc ∈ sessionFindSessioncontent js jc.name,
      js.origin = .outgoing ∧ sc.state = .pending)
    : GuardedAccept s s' := by
  have outgoing {name : String} {t : TransportPtr} (names : NamesTransport js contents name t)
      : js.origin = .outgoing := by
    obtain ⟨jc, member, _, sc, found, _⟩ := names
    exact (pending jc member sc found).1
  have activatedAt {name : String} {t : TransportPtr} (names : NamesTransport js contents name t)
      : ActivatedAt s s' p name t :=
    activatedAt_named listed accepted.session (outgoing names)
      (fun jc member sc found => (pending jc member sc found).2) names
  refine ⟨?sessions, ?unlisted, ?transports, ?inits⟩
  case sessions =>
    intro q js' listed'
    by_cases here : q = p
    · subst here
      cases listed.symm.trans listed'
      have kept : List.Forall₂
          (MaybeActive (fun sc => js.origin = .outgoing ∧ sc.state = .pending))
          js.content js.content :=
        List.forall₂_same.mpr (fun _ _ => Or.inl rfl)
      refine ⟨_, accepted.session, (forall₂_activated contents kept pending).imp ?_⟩
      intro sc sc' either
      exact either.imp_right (fun both => ⟨both.1.1, both.1.2, both.2⟩)
    · exact ⟨js'.content, (accepted.others q here).trans listed',
        List.forall₂_same.mpr (fun _ _ => Or.inl rfl)⟩
  case unlisted =>
    intro q absent
    have other : q ≠ p := by
      intro here
      rw [here, listed] at absent
      cases absent
    exact (accepted.others q other).trans absent
  case transports =>
    intro t changed
    obtain ⟨name, names⟩ := accepted.transports t changed
    exact ⟨p, name, activatedAt names⟩
  case inits =>
    obtain ⟨new, appended, exactly⟩ := accepted.inits
    refine ⟨new, appended, fun sc t member => ?_⟩
    obtain ⟨owner, names⟩ := (exactly sc t).mp member
    exact owner ▸ activatedAt names

/-- The calls of `init` show which contents a guarded session-accept named. -/
theorem AcceptedBy.pending {p : SessionPtr} {js : JingleSession} {contents : List JingleContent}
    (accepted : AcceptedBy env contents p js s s') (layout : Layout s)
    (served : AcceptServed s js contents) (listed : s.sessions.get? p = some js)
    (guarded : GuardedAccept s s') {jc : JingleContent} (member : jc ∈ contents)
    {sc : SessionContent} (found : sessionFindSessioncontent js jc.name = some sc)
    : js.origin = .outgoing ∧ sc.state = .pending := by
  have ready := served jc member sc found
  simp only [acceptable?, Option.any_eq_true] at ready
  obtain ⟨_, _, t, carried, _⟩ := ready
  obtain ⟨new, appended, exactly⟩ := accepted.inits
  have ran := (exactly { owner := p, name := jc.name } t).mpr
    ⟨rfl, jc, member, rfl, sc, found, carried⟩
  obtain ⟨new', appended', activatedAt⟩ := guarded.inits
  cases List.append_cancel_left (appended.symm.trans appended')
  obtain ⟨js₁, _, sc₁, _, listed₁, _, member₁, _, _, carried₁, active⟩ := activatedAt _ _ ran
  have scMember := (sessionFindSessioncontent_mem found).1
  obtain ⟨_, same⟩ := layout.carrier_unique listed listed₁ scMember member₁ carried carried₁
  cases listed.symm.trans listed₁
  subst same
  exact ⟨active.outgoing, active.pending⟩

/-- Answering first makes no difference. -/
theorem guardedAccept_replied_iff (query answer : LmMessage)
    : GuardedAccept (s.replied query answer) s' ↔ GuardedAccept s s' := by
  constructor
  · exact fun guarded =>
      ⟨guarded.sessions, guarded.unlisted, guarded.transports, guarded.inits⟩
  · exact fun guarded =>
      ⟨guarded.sessions, guarded.unlisted, guarded.transports, guarded.inits⟩

/-- For a session-accept that control came back from, in any reachable state. -/
theorem guardedAccept_iff (layout : Layout s) {input : Input} {jn : JingleNode}
    (requested : input.request env = some jn) (action : jn.action = .sessionAccept)
    (step : Step env s (w, input) s')
    : GuardedAccept s s' ↔ AcceptsPending env s (w, input) := by
  have asked : AcceptsPending env s (w, input)
      ↔ ((checkContents jn).ok = true → ∀ cell ∈ sessionFind s jn,
          ∀ jc ∈ (checkContents jn).jn.content, ∀ sc ∈ sessionFindSessioncontent cell.2 jc.name,
            cell.2.origin = .outgoing ∧ sc.state = .pending) := by
    simp only [AcceptsPending, requested, Option.mem_some_iff, forall_eq', action, true_implies]
  rw [asked]
  rcases sessionAccept_ends requested action step with
    ⟨nothing, sessions, transports, inits⟩ | ⟨p, js, found, ok, served, accepted⟩
  · refine ⟨fun _ ok cell found => ?_, fun _ => guardedAccept_of_same sessions transports inits⟩
    rcases nothing with absent | failed
    · rw [absent] at found
      cases found
    · rw [failed] at ok
      cases ok
  · have listed : s.sessions.get? p = some js := sessionFindBySid_listed found
    have layout' : Layout (s.replied jn.message (jn.message.newIqFromQuery .result)) :=
      layout_effect layout (.reply (r := .all) _ _)
    simp only [ok, true_implies, found, Option.mem_some_iff, forall_eq']
    constructor
    · intro guarded jc member sc found
      have guarded' := (guardedAccept_replied_iff jn.message
        (jn.message.newIqFromQuery .result)).mpr guarded
      exact accepted.pending layout' served listed guarded' member found
    · intro pending
      exact (guardedAccept_replied_iff _ _).mp (accepted.guarded listed pending)

-----------------------------------------------------------------------------------------
-- One way over every run
-----------------------------------------------------------------------------------------

/-- PENDING, then ACTIVE, then ENDED. -/
def SessionState.rank : SessionState → Nat
  | .pending => 0
  | .active => 1
  | .ended => 2

/-- `sc'` is the content `sc` in the same state or a later one. -/
def Onward (sc' sc : SessionContent) : Prop :=
  sc'.name = sc.name ∧ sc.state.rank ≤ sc'.state.rank

theorem onward_refl (sc : SessionContent) : Onward sc sc := ⟨rfl, Nat.le_refl _⟩

instance : Std.Refl Onward := ⟨onward_refl⟩

instance : IsTrans SessionContent Onward where
  trans _ _ _ later earlier :=
    ⟨later.1.trans earlier.1, Nat.le_trans earlier.2 later.2⟩

/-- Each content of the new list is one of the old list, in order, in the same state or a
later one; the others were unlinked.
-/
def OneWay (old new : List SessionContent) : Prop := List.SublistForall₂ Onward new old

theorem oneWay_refl (content : List SessionContent) : OneWay content content :=
  (List.Sublist.refl content).sublistForall₂

theorem OneWay.trans {first second third : List SessionContent} (earlier : OneWay first second)
    (later : OneWay second third)
    : OneWay first third :=
  trans_of (List.SublistForall₂ Onward) later earlier

/-- Rewriting contents one by one without going back. -/
theorem oneWay_of_forall₂ {old new : List SessionContent}
    (onward : List.Forall₂ (fun sc sc' => Onward sc' sc) old new)
    : OneWay old new :=
  List.sublistForall₂_iff.mpr ⟨old, onward.flip, List.Sublist.refl old⟩

theorem oneWay_of_sublist {old new : List SessionContent} (kept : new.Sublist old)
    : OneWay old new :=
  kept.sublistForall₂

/-- Rewrites that keep the names and the states of all contents. -/
theorem oneWay_of_map {old new : List SessionContent}
    (same : new.map (fun sc => (sc.name, sc.state)) = old.map (fun sc => (sc.name, sc.state)))
    : OneWay old new := by
  have equal : List.Forall₂ (fun sc sc' => (sc.name, sc.state) = (sc'.name, sc'.state))
      old new := by
    rw [← List.forall₂_map_right_iff, ← List.forall₂_map_left_iff, List.forall₂_eq_eq_eq, same]
  refine oneWay_of_forall₂ (equal.imp (fun sc sc' both => ?_))
  obtain ⟨sameName, sameState⟩ := Prod.mk.inj both
  exact ⟨sameName.symm, Nat.le_of_eq (congrArg SessionState.rank sameState)⟩

/-- Nothing comes after ENDED. -/
theorem oneWay_ended (name : String) (content : List SessionContent)
    : OneWay content (updateFirst name (fun sc => { sc with state := .ended }) content) := by
  refine oneWay_of_forall₂ ?_
  induction content with
  | nil => exact .nil
  | cons sc rest ih =>
      simp only [updateFirst]
      split
      · have last : sc.state.rank ≤ SessionState.ended.rank := by
          cases sc.state <;> decide
        exact .cons ⟨rfl, last⟩ (List.forall₂_same.mpr (fun sc _ => onward_refl sc))
      · exact .cons (onward_refl sc) ih

/-- Code that makes no content ACTIVE and appends none only goes on. -/
theorem ContentChange.oneWay {r : Rights} {p : SessionPtr} {old new : List SessionContent}
    (change : ContentChange r s p old new) (inactive : ¬r.activate p) (full : ¬r.grow p)
    : OneWay old new := by
  cases change with
  | changeState name state allowed active forward =>
      cases state with
      | active => exact absurd (active rfl) inactive
      | pending => exact absurd rfl forward
      | ended => exact oneWay_ended name old
  | remove name allowed drop => exact oneWay_of_sublist (removeFirst_sublist name old)
  | append name allowed grow => exact absurd grow full
  | dropLast allowed => exact oneWay_of_sublist (List.dropLast_sublist old)
  | supplyApp supplied allowed =>
      refine oneWay_of_map ?_
      rw [map_updateLast]
      exact fun _ => rfl
  | supplyTrans supplied allowed =>
      refine oneWay_of_map ?_
      rw [map_updateLast]
      exact fun _ => rfl
  | supplyTransFor app supplied allowed =>
      refine oneWay_of_map ?_
      rw [List.map_map]
      refine List.map_congr_left (fun sc _ => ?_)
      simp only [Function.comp_apply]
      split <;> rfl
  | fillApp name xmlns appfuncs d allowed describe known =>
      refine oneWay_of_map ?_
      rw [map_updateFirst]
      exact fun _ => rfl
  | fillTrans name xmlns transfuncs t allowed carry known fresh =>
      refine oneWay_of_map ?_
      rw [map_updateFirst]
      exact fun _ => rfl

/-- A guarded session-accept only goes on. -/
theorem GuardedAccept.oneWay (guarded : GuardedAccept s s') {p : SessionPtr}
    {js js' : JingleSession} (listed : s.sessions.get? p = some js)
    (after : s'.sessions.get? p = some js')
    : OneWay js.content js'.content := by
  obtain ⟨content, after', changed⟩ := guarded.sessions p js listed
  cases after.symm.trans after'
  refine oneWay_of_forall₂ (changed.imp (fun sc sc' either => ?_))
  rcases either with rfl | active
  · exact onward_refl sc'
  · rw [active.active]
    refine ⟨rfl, ?_⟩
    rw [active.pending]
    exact Nat.zero_le _

-----------------------------------------------------------------------------------------
-- One turn
-----------------------------------------------------------------------------------------

/-- Sessions that were listed in `s₀`, if they still are, only went on. -/
structure OneWaySince (s₀ s : State) : Prop where
  since : Since s₀ s
  old : ∀ p, p < s₀.sessions.next → s₀.sessions.get? p = none → s.sessions.get? p = none
  oneWay : ∀ p js₀ js, s₀.sessions.get? p = some js₀ → s.sessions.get? p = some js →
    OneWay js₀.content js.content

/-- Nothing becomes ACTIVE, and only new sessions get contents. -/
def Rights.inactive (s₀ : State) : Rights :=
  { Rights.all with
    activate := fun _ => False
    grow := fun p => s₀.sessions.next ≤ p }

theorem oneWaySince_refl (s : State) : OneWaySince s s := by
  refine ⟨.refl s, fun _ _ absent => absent, fun p js₀ js listed listed' => ?_⟩
  cases listed.symm.trans listed'
  exact oneWay_refl js₀.content

theorem oneWaySince_stable : Stable (.inactive s₀) (OneWaySince s₀) := by
  intro s s' holds effect
  refine ⟨holds.since.trans (since_effect effect), fun p old absent => ?_,
    fun p js₀ js known listed => ?_⟩
  · cases listed : s'.sessions.get? p with
    | none => rfl
    | some js =>
        have gone := holds.old p old absent
        rcases listed_effect effect listed with same | ⟨_, new, _⟩ | ⟨before, there, _⟩
        · cases gone.symm.trans same
        · rw [new] at old
          exact absurd holds.since.sessions (Nat.not_le.mpr old)
        · cases gone.symm.trans there
  · have old : p < s₀.sessions.next := Pool.lt_next known
    rcases listed_effect effect listed with same | ⟨_, new, _⟩ | ⟨before, there, _, change, _⟩
    · exact holds.oneWay p js₀ js known same
    · rw [new] at old
      exact absurd holds.since.sessions (Nat.not_le.mpr old)
    · have first := holds.oneWay p js₀ before known there
      exact first.trans (change.oneWay id (Nat.not_le.mpr old))

theorem inactive_maySend : MaySend (.inactive s) (fun s' => OneWaySince s s' ∧ Layout s') := by
  constructor <;> intros <;> trivial

theorem inactive_mayOffer
    : MayOffer (.inactive s) (fun s' => OneWaySince s s' ∧ Layout s') w s where
  layout _ := And.right
  newFt := trivial
  ft _ := trivial
  create _ _ _ _ _ _ _ := trivial
  grow _ holds := holds.1.since.sessions
  build _ := trivial
  describe _ _ _ := trivial
  carry _ _ _ := trivial
  size := trivial
  await _ := trivial
  close _ _ := trivial

theorem inactive_mayServe {jn : JingleNode} (other : jn.action ≠ .sessionAccept)
    : MayServe (.inactive s) (fun s' => OneWaySince s s' ∧ Layout s') env w s jn where
  initiate _ _ _ := {
    newFt := trivial
    create := fun _ _ _ _ _ _ => trivial
    build := fun _ holds => {
      layout := fun _ => And.right
      grow := holds.1.since.sessions
      build := trivial
      describe := fun _ _ => trivial
      carry := fun _ _ => trivial }
    bind := fun _ _ _ _ _ _ _ _ _ _ => ⟨trivial, trivial, fun _ _ => trivial⟩
    close := fun _ _ => trivial
    ask := fun _ _ => trivial
    unsupported := fun _ _ _ _ _ _ _ => trivial }
  info _ _ _ _ _ _ _ _ _ := trivial
  accept action := absurd action other
  terminate _ _ _ _ :=
    ⟨trivial, fun _ => trivial, trivial, .free (fun _ => trivial) (fun _ => trivial)⟩

/-- Every input but a session-accept stays within these rights. -/
theorem inactive_mayHandle {input : Input}
    (other : ∀ jn ∈ input.request env, jn.action ≠ .sessionAccept)
    : MayHandle (.inactive s) (fun s' => OneWaySince s s' ∧ Layout s') env w s input := by
  cases input with
  | jingleIq message => exact fun jn valid => inactive_mayServe (other jn valid)
  | ibbIq message => exact fun d _ => ⟨trivial, fun _ => trivial⟩
  | reply ah message => exact ⟨inactive_maySend, trivial, trivial⟩
  | tick => exact ⟨inactive_maySend, fun _ => trivial, fun _ => trivial⟩
  | wait seconds => trivial
  | event id context =>
      exact fun p _ => ⟨fun _ => ⟨trivial, trivial⟩, fun _ _ _ => ⟨trivial, trivial⟩⟩
  | transportInitialize correct sc => exact inactive_maySend
  | jftSend arg => exact inactive_mayOffer
  | jftRetry arg => exact inactive_mayOffer
  | jftFlush => exact fun _ => trivial

/-- A step whose session-accept names only PENDING contents of OUTGOING sessions goes on. -/
theorem Step.oneWay (layout : Layout s) {input : StepInput} (step : Step env s input s')
    (pending : AcceptsPending env s input)
    : OneWaySince s s' := by
  obtain ⟨w, input⟩ := input
  have stable : Stable .all (Since s) := fun _ _ since effect => since.trans (since_effect effect)
  have since : Since s s' := (step.keeps_all stable (.refl s) layout).1
  by_cases accepts : ∃ jn ∈ input.request env, jn.action = .sessionAccept
  · obtain ⟨jn, requested, action⟩ := accepts
    have guarded := (guardedAccept_iff layout requested action step).mpr pending
    exact ⟨since, fun p _ absent => guarded.unlisted p absent,
      fun p js₀ js listed after => guarded.oneWay listed after⟩
  · have other (jn : JingleNode) (member : jn ∈ input.request env)
        : jn.action ≠ .sessionAccept :=
      fun action => accepts ⟨jn, member, action⟩
    exact (step.keeps oneWaySince_stable.layout ⟨oneWaySince_refl s, layout⟩
      (inactive_mayHandle other)).1

-----------------------------------------------------------------------------------------
-- Runs
-----------------------------------------------------------------------------------------

theorem OneWaySince.trans {s₁ s₂ : State} (earlier : OneWaySince s s₁) (later : OneWaySince s₁ s₂)
    : OneWaySince s s₂ := by
  refine ⟨earlier.since.trans later.since, fun p old absent => ?_, fun p js js₂ listed after => ?_⟩
  · exact later.old p (Nat.lt_of_lt_of_le old earlier.since.sessions) (earlier.old p old absent)
  · have old : p < s₁.sessions.next :=
      Nat.lt_of_lt_of_le (Pool.lt_next listed) earlier.since.sessions
    cases between : s₁.sessions.get? p with
    | none => cases (later.old p old between).symm.trans after
    | some js₁ =>
        have first := earlier.oneWay p js js₁ listed between
        exact first.trans (later.oneWay p js₁ js₂ between after)

/-- The runs from `s` in which each session-accept names only PENDING contents of OUTGOING
sessions.
-/
abbrev GuardedRun (env : Env) (s : State) : State → Prop :=
  Reach (fun s₁ => s₁ = s) (Step env) (AcceptsPending env)

theorem GuardedRun.oneWay (layout : Layout s) (run : GuardedRun env s s')
    : OneWaySince s s' ∧ Layout s' := by
  induction run with
  | start same =>
      subst same
      exact ⟨oneWaySince_refl _, layout⟩
  | step run pending next ih =>
      obtain ⟨before, layout'⟩ := ih
      exact ⟨before.trans (next.oneWay layout' pending), (next.frame layout').1⟩

/-- A session-accept touches PENDING contents of OUTGOING sessions only, if and only if it
names no others; and in every run of such session-accepts the contents of each session go on
from PENDING to ACTIVE to ENDED.
-/
theorem contents_go_one_way (env : Env) (s : State) (reached : Reachable env s)
    : (∀ input jn s', input.2.request env = some jn → jn.action = .sessionAccept →
          Step env s input s' → (GuardedAccept s s' ↔ AcceptsPending env s input))
      ∧ ∀ s', GuardedRun env s s' → ∀ p js js', s.sessions.get? p = some js →
          s'.sessions.get? p = some js' → OneWay js.content js'.content := by
  have layout := layout_reached reached
  constructor
  · intro input jn s' requested action step
    exact guardedAccept_iff layout requested action step
  · intro s' run p js js' listed after
    exact (run.oneWay layout).1.oneWay p js js' listed after

/-- The states of the contents of the first session. -/
def State.firstStates (s : State) : Option (List SessionState) :=
  (s.sessions.get? 0).map (fun js => js.content.map SessionContent.state)

/-- Our offer of a file is accepted. -/
def offerAccepted : LmMessage :=
  jingleSet "romeo@verona/a" "session-accept" "our-sid" [offeredContent "file" "our-stream"]

theorem contents_go_one_way_offerAccepted
    : ∃ s s', Reachable plainEnv s ∧ GuardedAccept s s'
        ∧ s.firstStates = some [.pending] ∧ s'.firstStates = some [.active]
        ∧ ∀ p js js', s.sessions.get? p = some js → s'.sessions.get? p = some js' →
          OneWay js.content js'.content := by
  have passed : (execute plainEnv (fun _ _ => True) loaded
      [(offeringWorld [], .jftSend (some "notes"))]).any (fun s =>
        (execute plainEnv (AcceptsPending plainEnv) s [(plainWorld, .jingleIq offerAccepted)]).any
          (fun s' => decide (s.firstStates = some [.pending]
            ∧ s'.firstStates = some [.active]))) = true := by
    decide +kernel
  obtain ⟨s, run, passed⟩ := execute_any _ (loaded_reached plainEnv _) passed
  obtain ⟨s', ends, states⟩ := (Option.any_eq_true _ _).mp passed
  obtain ⟨pending, step⟩ := execute_singleton ends
  obtain ⟨accepts, goesOn⟩ := contents_go_one_way plainEnv s run
  obtain ⟨jn, requested, action⟩ : ∃ jn,
      Input.request plainEnv (.jingleIq offerAccepted) = some jn ∧ jn.action = .sessionAccept :=
    ⟨_, rfl, rfl⟩
  refine ⟨s, s', run,
    (accepts (plainWorld, .jingleIq offerAccepted) jn s' requested action step).mpr pending,
    (of_decide_eq_true states).1, (of_decide_eq_true states).2, ?_⟩
  exact goesOn s' (.step (.start rfl) pending step)

/-- The peer that invited us accepts its own invitation. -/
theorem accept_from_initiator_activates
    : ¬∀ env s, Reachable env s → ∀ input jn s', input.2.request env = some jn →
        jn.action = .sessionAccept → Step env s input s' → GuardedAccept s s' := by
  intro claimed
  let answer := jingleSet "romeo@verona/a" "session-accept" "s1" [offeredContent "file" "b1"]
  have passed : (execute plainEnv (fun _ _ => True) loaded
      [(plainWorld, .jingleIq (jingleSet "romeo@verona/a" "session-initiate" "s1"
        [offeredContent "file" "b1"]))]).any (fun s =>
        (execute plainEnv (fun _ _ => True) s [(plainWorld, .jingleIq answer)]).any
          (fun s' => decide (¬AcceptsPending plainEnv s (plainWorld, .jingleIq answer))))
      = true := by
    decide +kernel
  obtain ⟨s, run, passed⟩ := execute_any _ (loaded_reached plainEnv _) passed
  obtain ⟨s', ends, broken⟩ := (Option.any_eq_true _ _).mp passed
  obtain ⟨_, step⟩ := execute_singleton ends
  obtain ⟨jn, requested, action⟩ : ∃ jn,
      Input.request plainEnv (.jingleIq answer) = some jn ∧ jn.action = .sessionAccept :=
    ⟨_, rfl, rfl⟩
  have guarded := claimed plainEnv s run (plainWorld, .jingleIq answer) jn s' requested action step
  exact of_decide_eq_true broken
    ((guardedAccept_iff (layout_reached run) requested action step).mp guarded)

end McabberJingle
