import McabberJingle.Jingle.Invitation
import McabberJingle.System.Execution

/-! Adding a content takes its application first and its transport second. What the
application has listed by then is not taken back when the transport is refused.
-/

namespace McabberJingle

open Program Program.Prog

variable {env : Env} {w : World} {s : State} {p : SessionPtr} {cn : JingleContent}

-----------------------------------------------------------------------------------------
-- What a refused content leaves
-----------------------------------------------------------------------------------------

/-- The sessions, the transfers and the table of streams are those of `s`. -/
structure NothingAdded (s s' : State) : Prop where
  sessions : s'.sessions = s.sessions
  transfers : s'.infoList = s.infoList
  streams : s'.jingleIBBs = s.jingleIBBs

/-- Adding the content gets to its end, and adds nothing when it ends with an error. -/
def AddedAtomically (env : Env) (w : World) (s : State) (p : SessionPtr) (cn : JingleContent)
    (state : SessionState)
    : Prop :=
  ∃ result s', sessionAddContentFromJinglecontent env w p cn state s = .done result s'
    ∧ (result.isSome = true → NothingAdded s s')

/-- The offer in the description is taken, and the transport is refused. -/
def RefusedLate (env : Env) (w : World) (cn : JingleContent) (transfuncs : JingleTransportFuncs)
    : Prop :=
  (FileTransfer.parseOffer env w cn).isOk = true ∧ transfuncs.accepts cn = false

instance (env : Env) (w : World) (cn : JingleContent) (transfuncs : JingleTransportFuncs)
    : Decidable (RefusedLate env w cn transfuncs) := by
  unfold RefusedLate
  infer_instance

/-- A transfer that was listed makes the list another one. -/
theorem infoList_listing (s : State) (jft : JingleFT) : (s.listing jft).infoList ≠ s.infoList := by
  intro same
  have next := congrArg Pool.next same
  simp [State.listing] at next

section OneContent

variable {js : JingleSession} {appfuncs : JingleAppFuncs} {transfuncs : JingleTransportFuncs}

/-- The transfer of a content that is refused late stays in the list. -/
theorem RefusedLate.not_atomic (late : RefusedLate env w cn transfuncs) (state : SessionState)
    (listed : s.sessions.get? p = some js)
    (knownApp : jingleGetAppfuncs s (cn.description.getAttribute "xmlns") = some appfuncs)
    (known : jingleGetTransportfuncs s (cn.transport.getAttribute "xmlns") = some transfuncs)
    : ¬AddedAtomically env w s p cn state := by
  have runs := sessionAddContentFromJinglecontent_eq env w listed knownApp known state
  obtain ⟨taken, refused⟩ := late
  rw [transfuncs.accepts_iff env w s cn] at refused
  cases offered : FileTransfer.parseOffer env w cn with
  | error error =>
      rw [offered] at taken
      cases taken
  | ok jft =>
      cases parsed : transfuncs.parse env w s cn with
      | ok transport =>
          rw [parsed] at refused
          cases refused
      | error error =>
          rw [offered, parsed] at runs
          intro atomic
          obtain ⟨result, s', ends, unchanged⟩ := atomic
          cases runs.symm.trans ends
          exact infoList_listing s jft (unchanged rfl).transfers

/-- A content is added atomically exactly when its transport is not refused after its offer
was taken.
-/
theorem content_added_atomically (env : Env) (w : World) (cn : JingleContent)
    (state : SessionState) (listed : s.sessions.get? p = some js)
    (knownApp : jingleGetAppfuncs s (cn.description.getAttribute "xmlns") = some appfuncs)
    (known : jingleGetTransportfuncs s (cn.transport.getAttribute "xmlns") = some transfuncs)
    : AddedAtomically env w s p cn state ↔ ¬RefusedLate env w cn transfuncs := by
  constructor
  · intro atomic late
    exact late.not_atomic state listed knownApp known atomic
  · intro early
    have runs := sessionAddContentFromJinglecontent_eq env w listed knownApp known state
    cases offered : FileTransfer.parseOffer env w cn with
    | error error =>
        rw [offered] at runs
        exact ⟨some error, s, runs, fun _ => ⟨rfl, rfl, rfl⟩⟩
    | ok jft =>
        cases parsed : transfuncs.parse env w s cn with
        | error error =>
            refine absurd ⟨?_, ?_⟩ early
            · rw [offered]
              rfl
            · rw [transfuncs.accepts_iff env w s cn, parsed]
              rfl
        | ok transport =>
            rw [offered, parsed] at runs
            exact ⟨none, _, runs, fun h => by cases h⟩

end OneContent

/-- A content that offers a file over a transport with these attributes. -/
def offerOver (attributes : List (String × String)) : JingleContent where
  creator := some .initiator
  disposition := none
  name := "file"
  senders := .both
  description := element "description" [("xmlns", NS_JINGLE_APP_FT)]
    [element "offer" [] [element "file"
      [("xmlns", NS_SI_FT), ("name", "notes"), ("size", "4")] []]]
  transport := element "transport" (("xmlns", NS_JINGLE_TRANSPORT_IBB) :: attributes) []

/-- A content whose transport has all it needs. -/
theorem content_added_atomically_complete
    : AddedAtomically plainEnv plainWorld oneSession 0
        (offerOver [("sid", "stream"), ("block-size", "4096")]) .pending :=
  (content_added_atomically plainEnv plainWorld (s := oneSession) (p := 0) _ .pending rfl rfl
    rfl).mpr (by decide +kernel)

/-- A transport without a block size is refused when the transfer is listed. -/
theorem transfer_listed_of_refused
    : ¬AddedAtomically plainEnv plainWorld oneSession 0 (offerOver [("sid", "stream")])
        .pending := by
  have late : RefusedLate plainEnv plainWorld (offerOver [("sid", "stream")]) .ibb := by
    decide +kernel
  exact late.not_atomic .pending rfl rfl rfl

end McabberJingle
