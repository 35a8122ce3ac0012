import McabberJingle.Effects.Machine
import McabberJingle.System.Execution

/-! Nothing is received before the user accepts. A session-accept from the peer makes the
contents of our unanswered invitation ACTIVE, and data for a stream is taken from the moment
the invitation was parsed.
-/

namespace McabberJingle

open Program Program.Prog

-----------------------------------------------------------------------------------------
-- The invariant
-----------------------------------------------------------------------------------------

/-- A listed incoming session that the user has not accepted. -/
def Unaccepted (s : State) (p : SessionPtr) : Prop :=
  p ∉ s.accepted ∧ ∃ js, s.sessions.get? p = some js ∧ js.origin = .incoming

/-- Unaccepted sessions are idle: nothing is ACTIVE, nothing was written, and nothing waits to be.
-/
structure Consent (s : State) : Prop where
  inactive : ∀ p, Unaccepted s p → ¬Active s p
  unwritten : ∀ p, Unaccepted s p → ∀ d, Describes s p d → ∀ op ∈ s.disk, op.ft ≠ d
  flushed : ∀ p, Unaccepted s p → ∀ d, Describes s p d → ¬Unflushed s d
  disk : ∀ op ∈ s.disk, op.ft < s.infoList.next

/-- The file of the transfer may be written: no unaccepted session of `s₀` has it. -/
def WritesElsewhere (s₀ : State) (d : FtPtr) : Prop :=
  d < s₀.infoList.next ∧ ∀ p, Unaccepted s₀ p → ¬Describes s₀ p d

/-- During a turn that started in `s₀` and creates sessions of one origin only. -/
structure ConsentFrom (s₀ : State) (origin : SessionOrigin) (s : State) : Prop where
  consent : Consent s
  since : Since s₀ s
  newSession : ∀ p js, s₀.sessions.next ≤ p → s.sessions.get? p = some js → js.origin = origin
  disk : ∀ op ∈ s.disk, op.ft < s₀.infoList.next
  old : ∀ p, Unaccepted s p → p < s₀.sessions.next → Unaccepted s₀ p
  described : ∀ p d, Unaccepted s p → Describes s p d →
    s₀.infoList.next ≤ d ∨ Unaccepted s₀ p ∧ Describes s₀ p d
  before : Consent s₀
  unflushed : ∀ d, Unflushed s d → Unflushed s₀ d ∨ WritesElsewhere s₀ d

/-- In that turn unaccepted sessions are not activated, and only files of others are
written. A new incoming session gets a new transfer.
-/
def Rights.consented (s₀ : State) (origin : SessionOrigin) : Rights :=
  { Rights.all with
    activate := fun p => p < s₀.sessions.next ∧ ¬Unaccepted s₀ p
    openSession := fun _ js => js.origin = origin
    describe := fun p d => s₀.sessions.next ≤ p ∧ (origin = .incoming → s₀.infoList.next ≤ d)
    disk := WritesElsewhere s₀ }

section Turn

variable {s₀ s s' : State} {origin : SessionOrigin}

theorem accepted_effect {r : Rights} (effect : Effect r s s') {p : SessionPtr}
    (before : p ∈ s.accepted)
    : p ∈ s'.accepted := by
  cases effect with
  | accept q allowed => exact List.mem_append_left _ before
  | _ => exact before

theorem disk_effect {r : Rights} (effect : Effect r s s') {op : DiskOp} (after : op ∈ s'.disk)
    : op ∈ s.disk ∨ r.disk op.ft := by
  cases effect with
  | disk new allowed =>
      rcases List.mem_append.mp after with old | same
      · exact Or.inl old
      · rw [List.mem_singleton.mp same]
        exact Or.inr allowed
  | _ => exact Or.inl after

/-- A session that is unaccepted after a change was so before, or is new. -/
theorem unaccepted_effect {r : Rights} (effect : Effect r s s') {p : SessionPtr}
    (after : Unaccepted s' p)
    : Unaccepted s p ∨ s.sessions.next ≤ p := by
  obtain ⟨pending, js, listed, incoming⟩ := after
  rcases origin_effect effect listed with ⟨old, there, same⟩ | ⟨new, _⟩
  · exact Or.inl ⟨fun before => pending (accepted_effect effect before), old, there,
      same.trans incoming⟩
  · exact Or.inr (Nat.le_of_eq new.symm)

/-- A session that was listed before a change is unaccepted after it only if it was. -/
theorem unaccepted_before {r : Rights} (effect : Effect r s s') {p : SessionPtr}
    {js : JingleSession} (listed : s.sessions.get? p = some js) (after : Unaccepted s' p)
    : Unaccepted s p := by
  rcases unaccepted_effect effect after with before | new
  · exact before
  · exact absurd (Pool.lt_next listed) (Nat.not_lt.mpr new)

theorem Unaccepted.known {p : SessionPtr} (unaccepted : Unaccepted s p)
    : p < s.sessions.next := by
  obtain ⟨_, js, listed, _⟩ := unaccepted
  exact Pool.lt_next listed

theorem consentFrom_stable : Stable (.consented s₀ origin) (ConsentFrom s₀ origin) := by
  intro s s' holds effect
  have newSession (p : SessionPtr) (js : JingleSession) (new : s₀.sessions.next ≤ p)
      (listed : s'.sessions.get? p = some js)
      : js.origin = origin := by
    rcases origin_effect effect listed with ⟨old, there, same⟩ | ⟨_, opened⟩
    · exact same.symm.trans (holds.newSession p old new there)
    · exact opened
  have disk (op : DiskOp) (member : op ∈ s'.disk) : op.ft < s₀.infoList.next := by
    rcases disk_effect effect member with before | ⟨known, _⟩
    · exact holds.disk op before
    · exact known
  have old (p : SessionPtr) (after : Unaccepted s' p) (known : p < s₀.sessions.next)
      : Unaccepted s₀ p := by
    rcases unaccepted_effect effect after with before | new
    · exact holds.old p before known
    · have later := Nat.le_trans holds.since.sessions new
      exact absurd known (Nat.not_lt.mpr later)
  have described (p : SessionPtr) (d : FtPtr) (after : Unaccepted s' p)
      (describes : Describes s' p d)
      : s₀.infoList.next ≤ d ∨ Unaccepted s₀ p ∧ Describes s₀ p d := by
    rcases describes_effect effect describes with before | ⟨⟨new, newFile⟩, _⟩
    · obtain ⟨js, listed, _⟩ := id before
      exact holds.described p d (unaccepted_before effect listed after) before
    · obtain ⟨_, js, listed, incoming⟩ := after
      have opened := newSession p js new listed
      exact Or.inl (newFile (opened.symm.trans incoming))
  have unflushed (d : FtPtr) (after : Unflushed s' d)
      : Unflushed s₀ d ∨ WritesElsewhere s₀ d := by
    rcases unflushed_effect effect after with waited | elsewhere
    · exact holds.unflushed d waited
    · exact Or.inr elsewhere
  refine ⟨⟨?inactive, ?unwritten, ?flushed, ?below⟩, holds.since.trans (since_effect effect),
    newSession, disk, old, described, holds.before, unflushed⟩
  case inactive =>
    intro p after active
    rcases active_effect effect active with before | ⟨known, answered⟩
    · obtain ⟨js, listed, _⟩ := id before
      exact holds.consent.inactive p (unaccepted_before effect listed after) before
    · exact answered (old p after known)
  case unwritten =>
    intro p after d describes op member same
    rcases disk_effect effect member with before | ⟨known, others⟩
    · rcases describes_effect effect describes with earlier | ⟨⟨new, _⟩, _⟩
      · obtain ⟨js, listed, _⟩ := id earlier
        have idle := holds.consent.unwritten p (unaccepted_before effect listed after) d earlier
        exact idle op before same
      · rcases described p d after describes with fresh | ⟨there, _⟩
        · have written := holds.disk op before
          rw [same] at written
          exact absurd fresh (Nat.not_le.mpr written)
        · exact absurd new (Nat.not_le.mpr there.known)
    · rw [same] at known others
      rcases described p d after describes with fresh | ⟨there, described⟩
      · exact absurd fresh (Nat.not_le.mpr known)
      · exact others p there described
  case flushed =>
    intro p after d describes waits
    have known : d < s₀.infoList.next := by
      rcases unflushed d waits with ⟨ft, listed, _⟩ | elsewhere
      · exact Pool.lt_next listed
      · exact elsewhere.1
    rcases described p d after describes with fresh | ⟨there, described⟩
    · exact absurd fresh (Nat.not_le.mpr known)
    · rcases unflushed d waits with waited | elsewhere
      · exact holds.before.flushed p there d described waited
      · exact elsewhere.2 p there described
  case below =>
    intro op member
    have since := holds.since.trans (since_effect effect)
    exact Nat.lt_of_lt_of_le (disk op member) since.infoList

theorem consentFrom_start {s : State} (consent : Consent s) (origin : SessionOrigin)
    : ConsentFrom s origin s where
  consent := consent
  since := .refl s
  newSession p js new listed := by
    rw [Pool.get?_of_le new] at listed
    cases listed
  disk := consent.disk
  old _ unaccepted _ := unaccepted
  described _ _ unaccepted described := Or.inr ⟨unaccepted, described⟩
  before := consent
  unflushed _ waits := Or.inl waits

end Turn

-----------------------------------------------------------------------------------------
-- Runs
-----------------------------------------------------------------------------------------

instance (s : State) (p : SessionPtr) : Decidable (Unaccepted s p) :=
  decidable_of_iff (p ∉ s.accepted ∧ (s.sessions.get? p).any (fun js => js.origin == .incoming))
    (by simp [Unaccepted, Option.any_eq_true])

/-- No session-accept names a content of an unaccepted session, and no data packet is written
to the file of one.
-/
def Consented (env : Env) (s : State) (input : StepInput) : Prop :=
  (∀ jn ∈ input.2.request env, jn.action = .sessionAccept → (checkContents jn).ok = true →
    ∀ cell ∈ sessionFind s jn, Unaccepted s cell.1 →
      namesContent cell.2 (checkContents jn).jn.content = false)
  ∧ ∀ d ∈ input.2.target s, FileTransfer.writesFile input.1 s d = true →
    ∀ cell ∈ s.sessions.cells, Unaccepted s cell.1 →
      ∀ sc ∈ cell.2.content, sc.description ≠ some d

instance (env : Env) (s : State) (input : StepInput) : Decidable (Consented env s input) := by
  unfold Consented
  infer_instance

section Turn

variable {s : State} {env : Env} {w : World}

/-- The invariant during a turn that starts in `s`. -/
abbrev ConsentDuring (s : State) (origin : SessionOrigin) (s' : State) : Prop :=
  ConsentFrom s origin s' ∧ Layout s'

theorem consented_maySend : MaySend (.consented s .incoming) (ConsentDuring s .incoming) := by
  constructor <;> intros <;> trivial

theorem consented_mayServe (layout : Layout s) {message : LmMessage} {jn : JingleNode}
    (consented : Consented env s (w, .jingleIq message))
    (valid : jingleRequest env message = some jn)
    : MayServe (.consented s .incoming) (ConsentDuring s .incoming) env w s jn where
  initiate _ _ _ := {
    newFt := trivial
    create := fun _ _ _ _ _ _ => rfl
    build := fun _ holds => {
      layout := fun _ => And.right
      grow := trivial
      build := trivial
      describe := fun _ holds' => ⟨holds.1.since.sessions, fun _ => holds'.1.since.infoList⟩
      carry := fun _ _ => trivial }
    bind := fun _ _ _ _ _ _ _ _ _ _ => ⟨trivial, trivial, fun _ _ => trivial⟩
    close := fun _ _ => trivial
    ask := fun _ _ => trivial
    unsupported := fun _ _ _ _ _ _ _ => trivial }
  info _ _ _ _ _ _ _ _ _ := trivial
  accept action ok p js found named := by
    have known : p < s.sessions.next := Pool.lt_next (sessionFindBySid_listed found)
    have answered : ¬Unaccepted s p := by
      intro unaccepted
      have unnamed := consented.1 jn valid action ok (p, js) found unaccepted
      rw [unnamed] at named
      cases named
    exact ⟨trivial, ⟨known, answered⟩, fun _ _ _ => trivial, fun _ _ _ _ _ _ _ _ => trivial⟩
  terminate action p js found := by
    refine ⟨trivial, fun _ => trivial, trivial, fun _ _ _ _ _ sc member d described =>
      ⟨trivial, fun s' holds waits => ?_⟩⟩
    rcases holds.1.unflushed d waits with waited | elsewhere
    · have listed := sessionFindBySid_listed found
      refine ⟨layout.described p d ⟨js, listed, sc, member, described⟩,
        fun q unaccepted there => ?_⟩
      exact holds.1.before.flushed q unaccepted d there waited
    · exact elsewhere

theorem consented_mayOffer : MayOffer (.consented s .outgoing) (ConsentDuring s .outgoing) w s where
  layout _ := And.right
  newFt := trivial
  ft _ := trivial
  create _ _ _ _ _ _ _ := rfl
  grow _ _ := trivial
  build _ := trivial
  describe _ holds _ := ⟨holds.1.since.sessions, fun serving => by cases serving⟩
  carry _ _ _ := trivial
  size := trivial
  await _ := trivial
  close _ _ := trivial

/-- The target of a data packet is the transfer of a listed content. -/
theorem ibbTarget_described {message : LmMessage} {d : FtPtr}
    (target : ibbTarget s message = some d)
    : ∃ p, Describes s p d := by
  unfold ibbTarget at target
  split at target
  · cases target
  split at target
  · cases target
  split at target
  · cases target
  obtain ⟨t, _, hit⟩ := Option.bind_eq_some_iff.mp target
  obtain ⟨sc, found, described⟩ := Option.bind_eq_some_iff.mp hit
  obtain ⟨⟨p, js⟩, member, found⟩ := List.exists_of_findSome?_eq_some found
  exact ⟨p, js, Pool.get?_eq_some_iff.mpr member, sc, List.mem_of_find?_eq_some found, described⟩

/-- A consented input stays within these rights. -/
theorem consented_mayHandle (layout : Layout s) {input : Input}
    (consented : Consented env s (w, input))
    : ∃ origin, MayHandle (.consented s origin) (ConsentDuring s origin) env w s input := by
  cases input with
  | jingleIq message => exact ⟨.incoming, fun jn valid => consented_mayServe layout consented valid⟩
  | ibbIq message =>
      refine ⟨.incoming, fun d target => ⟨trivial, fun writes => ⟨?_, ?_⟩⟩⟩
      · obtain ⟨p, described⟩ := ibbTarget_described target
        exact layout.described p d described
      · intro p unaccepted ⟨js, listed, sc, member, described⟩
        have apart := consented.2 d target writes (p, js) (Pool.get?_eq_some_iff.mp listed)
          unaccepted sc member
        exact apart described
  | reply ah message => exact ⟨.incoming, consented_maySend, trivial, trivial⟩
  | tick => exact ⟨.incoming, consented_maySend, fun _ => trivial, fun _ => trivial⟩
  | wait seconds => exact ⟨.incoming, trivial⟩
  | event id context =>
      exact ⟨.incoming, fun p pending =>
        ⟨fun _ => ⟨trivial, trivial⟩, fun _ _ _ => ⟨trivial, trivial⟩⟩⟩
  | transportInitialize correct sc => exact ⟨.incoming, consented_maySend⟩
  | jftSend arg => exact ⟨.outgoing, consented_mayOffer⟩
  | jftRetry arg => exact ⟨.outgoing, consented_mayOffer⟩
  | jftFlush => exact ⟨.incoming, fun _ => trivial⟩

end Turn

theorem consent_reached {env : Env} {s : State} (run : ReachableBy env (Consented env) s)
    : Consent s := by
  refine reached_invariant run ?_ ?_
  · intro s initial
    have absent (p : SessionPtr) : ¬Unaccepted s p := by
      intro ⟨_, js, listed, _⟩
      rw [initial.sessions] at listed
      cases listed
    refine ⟨fun p h => absurd h (absent p), fun p h => absurd h (absent p),
      fun p h => absurd h (absent p), ?_⟩
    intro op member
    rw [initial.disk] at member
    cases member
  · intro s w input consent layout consented _
    obtain ⟨origin, may⟩ := consented_mayHandle layout consented
    exact ⟨.consented s origin, ConsentFrom s origin, consentFrom_stable,
      consentFrom_start consent origin, fun _ holds _ => holds.consent, may⟩

/-- In every run of consented steps the contents of an incoming session that the user has not
accepted are not ACTIVE, and no file was created or written for them.
-/
theorem unaccepted_sessions_idle (env : Env) (s : State)
    (run : ReachableBy env (Consented env) s)
    : ∀ p js, s.sessions.get? p = some js → js.origin = .incoming → p ∉ s.accepted →
        ∀ sc ∈ js.content, sc.state ≠ .active
          ∧ ∀ d, sc.description = some d → ∀ op ∈ s.disk, op.ft ≠ d := by
  intro p js listed incoming pending sc member
  have consent := consent_reached run
  have unaccepted : Unaccepted s p := ⟨pending, js, listed, incoming⟩
  refine ⟨?_, ?_⟩
  · intro active
    exact consent.inactive p unaccepted ⟨js, listed, sc, member, active⟩
  · intro d described
    exact consent.unwritten p unaccepted d ⟨js, listed, sc, member, described⟩

/-- Whether some unaccepted session has an ACTIVE content. -/
def State.activeUnaccepted (s : State) : Bool :=
  s.sessions.cells.any (fun cell =>
    decide (Unaccepted s cell.1) && cell.2.content.any (fun sc => sc.state == .active))

/-- An invitation waits for the user while its peer keeps asking. -/
def waitingInvitation : List StepInput := [
  (plainWorld, .jingleIq
    (jingleSet "romeo@verona/a" "session-initiate" "s1" [offeredContent "file" "b1"])),
  (plainWorld, .jingleIq (jingleSet "romeo@verona/a" "session-accept" "s1" [])),
  (plainWorld, .tick)
]

theorem unaccepted_sessions_idle_waitingInvitation
    : ∃ s js, ReachableBy plainEnv (Consented plainEnv) s
        ∧ s.sessions.get? 0 = some js ∧ js.origin = .incoming ∧ 0 ∉ s.accepted
        ∧ ∀ sc ∈ js.content, sc.state ≠ .active
          ∧ ∀ d, sc.description = some d → ∀ op ∈ s.disk, op.ft ≠ d := by
  have passed : (execute plainEnv (Consented plainEnv) loaded waitingInvitation).any
      (fun s => decide (Unaccepted s 0)) = true := by decide +kernel
  obtain ⟨s, run, waiting⟩ := execute_any _ (loaded_reached plainEnv _) passed
  obtain ⟨pending, js, listed, incoming⟩ := of_decide_eq_true waiting
  exact ⟨s, js, run, listed, incoming, pending,
    unaccepted_sessions_idle plainEnv s run 0 js listed incoming pending⟩

/-- The inviting peer accepts its own invitation. -/
def selfAccepted : List StepInput := [
  (plainWorld, .jingleIq
    (jingleSet "romeo@verona/a" "session-initiate" "s1" [offeredContent "file" "b1"])),
  (plainWorld, .jingleIq
    (jingleSet "romeo@verona/a" "session-accept" "s1" [offeredContent "file" "b1"]))
]

theorem self_accepted_becomes_active
    : ¬∀ env s, Reachable env s →
        ∀ p js, s.sessions.get? p = some js → js.origin = .incoming → p ∉ s.accepted →
          ∀ sc ∈ js.content, sc.state ≠ .active
            ∧ ∀ d, sc.description = some d → ∀ op ∈ s.disk, op.ft ≠ d := by
  intro claimed
  have passed : (execute plainEnv (fun _ _ => True) loaded selfAccepted).any
      State.activeUnaccepted = true := by decide +kernel
  obtain ⟨s, run, activated⟩ := execute_any _ (loaded_reached plainEnv _) passed
  obtain ⟨⟨p, js⟩, member, activated⟩ := List.any_eq_true.mp activated
  simp only [Bool.and_eq_true, decide_eq_true_iff, List.any_eq_true, beq_iff_eq] at activated
  obtain ⟨⟨pending, js', listed', incoming⟩, sc, scMember, active⟩ := activated
  have listed : s.sessions.get? p = some js := Pool.get?_eq_some_iff.mpr member
  cases listed.symm.trans listed'
  exact (claimed plainEnv s run p js listed incoming pending sc scMember).1 active

end McabberJingle
