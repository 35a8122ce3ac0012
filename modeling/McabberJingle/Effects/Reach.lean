import McabberJingle.Effects.Machine
import McabberJingle.Effects.Stopping
import McabberJingle.Jingle.Accepting

/-! What a stanza that opens no session does: which sessions, transports and files it may reach,
and what it leaves of those.
-/

namespace McabberJingle

open Program Program.Prog

variable {env : Env} {w : World} {s₀ s s' : State} {input : Input} {jn : JingleNode}

-----------------------------------------------------------------------------------------
-- What is out of reach
-----------------------------------------------------------------------------------------

/-- The stanza that the input hands over. -/
def Input.iq : Input → Option LmMessage
  | .jingleIq message => some message
  | .ibbIq message => some message
  | _ => none

/-- The stanza accepts or ends the session. -/
def Input.touches (env : Env) (s : State) (input : Input) (p : SessionPtr) : Prop :=
  ∃ jn js, input.request env = some jn
    ∧ (jn.action = .sessionAccept ∨ jn.action = .sessionTerminate)
    ∧ sessionFind s jn = some (p, js)

/-- The stanza ends a session or brings a hash for it, or it brings bytes for a transfer. -/
def Input.reachesFiles (env : Env) (s : State) (input : Input) : Prop :=
  (∃ jn, input.request env = some jn ∧ (sessionFind s jn).isSome = true
    ∧ (jn.action = .sessionTerminate ∨ jn.action = .sessionInfo ∧ bringsHash jn = true))
  ∨ (input.target s).isSome = true

/-- Only the sessions in `touches` and what belongs to them have changed since `s₀`, and, without
`files`, no transfer and no file.
-/
structure Spared (s₀ : State) (touches : SessionPtr → Prop) (files : Prop) (s : State) : Prop where
  since : s₀.transports.next ≤ s.transports.next
  sessions : ∀ p js, ¬touches p → s₀.sessions.get? p = some js → s.sessions.get? p = some js
  transports : ∀ p t, ¬touches p → Carries s₀ p t → s.transports.get? t = s₀.transports.get? t
  table : s.jingleIBBs = s₀.jingleIBBs
  files : ¬files → s.infoList = s₀.infoList ∧ s.disk = s₀.disk

/-- Only these sessions and their transports may be touched, and files only with `files`. -/
def Rights.sparing (s₀ : State) (touches : SessionPtr → Prop) (files : Prop) : Rights :=
  { Rights.all with
    build := fun _ => False
    openSession := fun _ _ => False
    change := touches
    close := touches
    ft := fun _ => files
    newFt := fun _ => False
    flush := fun _ => False
    disk := fun _ => files
    transport := fun t => ∀ p, Carries s₀ p t → touches p
    stream := fun _ => False }

section Spared

variable {touches : SessionPtr → Prop} {files : Prop}

theorem Spared.refl (s : State) : Spared s touches files s :=
  ⟨Nat.le_refl _, fun _ _ _ listed => listed, fun _ _ _ _ => rfl, rfl, fun _ => ⟨rfl, rfl⟩⟩

theorem spared_stable (layout : Layout s₀)
    : Stable (.sparing s₀ touches files) (Spared s₀ touches files) := by
  intro s s' spared effect
  have apart {p q : SessionPtr} (touched : touches p) (untouched : ¬touches q) : q ≠ p := by
    rintro rfl
    exact untouched touched
  cases effect with
  | content p js g listed change =>
      have touched : touches p := change.allowed.resolve_right id
      refine { spared with sessions := fun q js' untouched listed' => ?_ }
      exact (Pool.get?_modify_of_ne _ (apart touched untouched)).trans
        (spared.sessions q js' untouched listed')
  | openSession js empty allowed => exact allowed.elim
  | close p touched =>
      refine { spared with sessions := fun q js' untouched listed' => ?_ }
      exact (Pool.get?_erase_of_ne (apart touched untouched)).trans
        (spared.sessions q js' untouched listed')
  | finish p js reason listed touched outward =>
      refine { spared with sessions := fun q js' untouched listed' => ?_ }
      exact (Pool.get?_erase_of_ne (apart touched untouched)).trans
        (spared.sessions q js' untouched listed')
  | ft d f allowed change => exact { spared with files := fun kept => absurd allowed kept }
  | newFt jft allowed => exact allowed.elim
  | flush d jft there finished allowed => exact allowed.elim
  | disk op allowed => exact { spared with files := fun kept => absurd allowed kept }
  | newTransport transport empty =>
      refine { spared with since := Nat.le_succ_of_le spared.since, transports := ?_ }
      intro p t untouched carries
      have known := Nat.lt_of_lt_of_le (layout.carried p t carries) spared.since
      exact (Pool.get?_alloc_of_lt transport known).trans
        (spared.transports p t untouched carries)
  | packet p js t jibb sc env buf listed carries found allowed =>
      refine { spared with transports := fun q t' untouched carries' => ?_ }
      have other : t' ≠ t := by
        rintro rfl
        exact untouched (allowed q carries')
      exact (Pool.get?_modify_of_ne _ other).trans (spared.transports q t' untouched carries')
  | transport t f allowed buffered =>
      refine { spared with transports := fun q t' untouched carries' => ?_ }
      have other : t' ≠ t := by
        rintro rfl
        exact untouched (allowed q carries')
      exact (Pool.get?_modify_of_ne f other).trans (spared.transports q t' untouched carries')
  | stream sid t allowed => exact allowed.elim
  | _ => exact { spared with }

/-- What a touched session carries now, no other session carried at first. -/
theorem Spared.carried_by (spared : Spared s₀ touches files s) (layout : Layout s)
    {p : SessionPtr} {t : TransportPtr} (touched : touches p) (carries : Carries s p t)
    : (Rights.sparing s₀ touches files).transport t := by
  intro q before
  by_contra untouched
  obtain ⟨js, listed, sc, member, carried⟩ := before
  have still := spared.sessions q js untouched listed
  have same : q = p := layout.apart q p t ⟨js, still, sc, member, carried⟩ carries
  exact untouched (same ▸ touched)

/-- For every stanza that opens no session. -/
theorem Step.spared {message : LmMessage} (iq : input.iq = some message) (layout : Layout s)
    (opens : input.invitation env w s = none) (step : Step env s (w, input) s')
    : Spared s (input.touches env s) (input.reachesFiles env s) s' := by
  refine (step.keeps (spared_stable layout).layout ⟨.refl s, layout⟩ ?_).1
  cases input with
  | jingleIq message' =>
      intro jn requested
      have known {p : SessionPtr} {js : JingleSession} (found : sessionFind s jn = some (p, js))
          : (sessionFind s jn).isSome = true :=
        Option.isSome_iff_exists.mpr ⟨_, found⟩
      refine ⟨fun action passes absent => ?_, fun action hash p js found => ?_,
        fun action checked p js found named => ?_, fun action p js found => ?_⟩
      · simp [Input.invitation, Input.request, requested, action, passes, absent] at opens
      · exact fun _ _ _ _ => Or.inl ⟨jn, requested, known found, Or.inr ⟨action, hash⟩⟩
      · have touched : Input.touches env s (.jingleIq message') p :=
          ⟨jn, js, requested, Or.inl action, found⟩
        refine ⟨touched, trivial, fun _ _ _ => trivial, ?_⟩
        intro s' holds js' listed' sc member t carried
        exact holds.1.carried_by holds.2 touched ⟨js', listed', sc, member, carried⟩
      · have touched : Input.touches env s (.jingleIq message') p :=
          ⟨jn, js, requested, Or.inr action, found⟩
        have ended : Input.reachesFiles env s (.jingleIq message') :=
          Or.inl ⟨jn, requested, known found, Or.inl action⟩
        exact ⟨touched, fun _ => trivial, touched, .free (fun _ => ended) (fun _ => ended)⟩
  | ibbIq message' =>
      intro d target
      have brings : Input.reachesFiles env s (.ibbIq message') :=
        Or.inr (Option.isSome_iff_exists.mpr ⟨d, target⟩)
      exact ⟨brings, fun _ => brings⟩
  | _ => cases iq

end Spared

-----------------------------------------------------------------------------------------
-- What is reached
-----------------------------------------------------------------------------------------

/-- A session-accept that control came back from: nothing was looked up or touched, or the
contents that it names were accepted.
-/
theorem sessionAccept_ends
    (requested : input.request env = some jn) (action : jn.action = .sessionAccept)
    (step : Step env s (w, input) s')
    : (sessionFind s jn = none ∨ (checkContents jn).ok = false)
        ∧ s'.sessions = s.sessions ∧ s'.transports = s.transports ∧ s'.inits = s.inits
      ∨ ∃ p js, sessionFind s jn = some (p, js) ∧ (checkContents jn).ok = true
          ∧ AcceptServed s js (checkContents jn).jn.content
          ∧ AcceptedBy env (checkContents jn).jn.content p js
            (s.replied jn.message (jn.message.newIqFromQuery .result)) s' := by
  have handled : actionHandler env w jn.action = some (handleSessionAccept env) := by
    rw [action]
    rfl
  obtain ⟨jn', run⟩ := step.request_ends requested handled
  have looked : sessionFindBySid s jn.sid jn.message.getFrom = sessionFind s jn := rfl
  rw [handleSessionAccept, bind_get, looked] at run
  cases found : sessionFind s jn with
  | none =>
      rw [found] at run
      cases run
      exact Or.inl ⟨Or.inl rfl, rfl, rfl, rfl⟩
  | some cell =>
  obtain ⟨p, js⟩ := cell
  rw [found] at run
  dsimp only at run
  cases ok : (checkContents jn).ok with
  | false =>
      rw [if_pos ok] at run
      obtain ⟨error, s₁, known, run⟩ := of_bind_done run
      cases wp_done (deref_readOnly _ _ s) known
      cases run
      exact Or.inl ⟨Or.inr rfl, rfl, rfl, rfl⟩
  | true =>
      rw [if_neg (by simp [ok])] at run
      obtain ⟨_, s₁, acked, run⟩ := of_bind_done run
      cases acked
      obtain ⟨_, s₂, accepts, run⟩ := of_bind_done run
      cases run
      have listed := sessionFindBySid_listed found
      obtain ⟨goes, back⟩ := acceptContents_runs (s := s.replied jn.message
        (jn.message.newIqFromQuery .result)) env listed (checkContents jn).jn.content
      have served := back _ accepts
      obtain ⟨s₃, again, accepted⟩ := goes served
      cases again.symm.trans accepts
      exact Or.inr ⟨p, js, rfl, rfl, served, accepted⟩

/-- A session-info with a hash, about a session that is found. -/
theorem sessionInfo_ends {child : LmMessageNode} {p : SessionPtr} {js : JingleSession}
    (requested : input.request env = some jn) (action : jn.action = .sessionInfo)
    (first : jn.node.children.head? = some child) (takes : takesHash child = true)
    (found : sessionFind s jn = some (p, js)) (step : Step env s (w, input) s')
    : s'.disk = s.disk
      ∧ s'.infoList = s.infoList.modifyAll (fun ft => { ft with hash := child.value })
        (js.content.filterMap SessionContent.description) := by
  have handled : actionHandler env w jn.action = some handleSessionInfo := by
    rw [action]
    rfl
  obtain ⟨jn', run⟩ := step.request_ends requested handled
  exact handleSessionInfo_hashes found first takes run

/-- The transfers that the input stops. -/
def Input.stops (env : Env) (w : World) (s : State) : Input → List FtPtr
  | .jingleIq message => stopped env w s message
  | _ => []

theorem sessionTerminate_ends (requested : input.request env = some jn)
    (action : jn.action = .sessionTerminate) (step : Step env s (w, input) s')
    : StopsInTurn w (input.stops env w s) s s' := by
  cases input with
  | jingleIq message =>
      obtain ⟨result, s₁, run, rest⟩ := of_bind_done step.2
      cases rest
      exact terminate_stops requested action run
  | _ => cases requested

/-- The bytes that the input brings. -/
def Input.payload (env : Env) : Input → Option (List UInt8)
  | .ibbIq message => packetData env message
  | _ => none

/-- A data packet for a transfer. -/
theorem packet_ends {d : FtPtr} (target : input.target s = some d)
    (step : Step env s (w, input) s')
    : ∃ data ft, input.payload env = some data ∧ s.infoList.get? d = some ft
        ∧ (ft.dir = .outgoing ∧ s'.infoList = s.infoList ∧ s'.disk = s.disk
          ∨ ft.dir = .incoming
            ∧ s'.infoList = s.infoList.modify d (fun _ => (received w d data ft).ft)
            ∧ s'.disk = s.disk ++ (received w d data ft).ops) := by
  cases input with
  | ibbIq message =>
      obtain ⟨result, s₁, run, rest⟩ := of_bind_done step.2
      cases rest
      have aimed : ibbTarget s message = some d := target
      rcases packet_goes run with
        ⟨nowhere, _⟩ | ⟨d', data, taken, s₂, goes, payload, infoList, disk, handled⟩
      · cases nowhere.symm.trans aimed
      · cases goes.symm.trans aimed
        obtain ⟨ft, there, ⟨outgoing, rfl⟩ | ⟨incoming, rfl⟩⟩ :=
          FileTransfer.handleData_ends handled
        · exact ⟨data, ft, payload, infoList ▸ there, Or.inl ⟨outgoing, infoList, disk⟩⟩
        · refine ⟨data, ft, payload, infoList ▸ there, Or.inr ⟨incoming, ?_, ?_⟩⟩
          · rw [State.storing, infoList]
          · rw [State.storing, disk]
  | _ => cases target

end McabberJingle
