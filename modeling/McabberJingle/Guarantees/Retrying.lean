import McabberJingle.Guarantees.Offering

/-! Whether `/jft retry n` sends the transfer with the index n again. -/

namespace McabberJingle

open Program Program.Prog

variable {env : Env} {w : World} {s s' : State} {d : FtPtr} {text : String}

-----------------------------------------------------------------------------------------
-- What the command is to do
-----------------------------------------------------------------------------------------

/-- The listed transfer whose index is the number in the argument. -/
def retryTarget (s : State) (arg : Option String) : Option FtPtr :=
  arg.bind (fun text =>
    (s.infoList.cells.find? (fun cell => (cell.1 : Int) = gAsciiStrtoll (some text))).map
      Prod.fst)

/-- The `<file/>` element that a session-initiate offers. -/
def LmMessage.offeredFile (iq : LmMessage) : Option LmMessageNode :=
  (iq.node.getChild "jingle").bind (fun jingle =>
    (jingle.getChild "content").bind (fun content =>
      (content.getChild "description").bind (fun description =>
        (description.getChild "offer").bind (fun offer => offer.getChild "file"))))

/-- A transfer was sent again: a fresh session has it, whose session-initiate offers the same name
and size, it can be read from its first byte, and no other transfer and no session that was there
has changed.
-/
structure Restarted (s s' : State) (d : FtPtr) (ft ft' : JingleFT) (js : JingleSession)
    (iq : LmMessage) (file : LmMessageNode)
    : Prop where
  before : s.infoList.get? d = some ft
  after : s'.infoList.get? d = some ft'
  session : s'.sessions.get? s.sessions.next = some js
  described : ∃ sc ∈ js.content, sc.description = some d
  sent : s'.sent = s.sent ++ [.request (js.ident s.sessions.next) iq]
  initiate : iq.isSessionInitiate = true
  offers : iq.offeredFile = some file
  name : file.getAttribute "name" = some ft.name
  size : file.getAttribute "size" = some (toString ft.size)
  readable : ∃ reads, ft'.outfile = some (.reading reads)
  unread : ft'.transmit = 0
  others : ∀ other, other ≠ d → s'.infoList.get? other = s.infoList.get? other
  sessions : ∀ p ≠ s.sessions.next, s'.sessions.get? p = s.sessions.get? p

/-- The command does nothing when there is no such transfer, and sends it again when there is. -/
structure RetriesRight (env : Env) (w : World) (s : State) (arg : Option String) : Prop where
  nothing : retryTarget s arg = none → jftRetry env w arg s = .done () s
  again : ∀ d, retryTarget s arg = some d → ∃ s', jftRetry env w arg s = .done () s'
    ∧ ∃ ft ft' js iq file, Restarted s s' d ft ft' js iq file

-----------------------------------------------------------------------------------------
-- What it does
-----------------------------------------------------------------------------------------

/-- A transfer as the command resets it. -/
def JingleFT.rewound (ft : JingleFT) : JingleFT :=
  { ft with
    hash := none
    size := 0
    transmit := 0
    outfile := none
    state := .pending
    desc := none
    md5 := .null }

/-- The state after one transfer was reset. -/
def State.rewinding (s : State) (d : FtPtr) : State :=
  { s with infoList := s.infoList.modify d JingleFT.rewound }

/-- The search stops at the first transfer, whatever its index is. -/
theorem jftRetry_first {ft : JingleFT} {rest : List (FtPtr × JingleFT)}
    (cells : s.infoList.cells = (d, ft) :: rest)
    : jftRetry env w (some text) s = jftSendTransfer env w d (s.rewinding d) := by
  rw [jftRetry, bind_get, cells]
  rfl

theorem jftRetry_empty {arg : Option String} (cells : s.infoList.cells = [])
    : jftRetry env w arg s = .done () s := by
  rw [jftRetry, bind_get, cells]
  cases arg <;> rfl

/-- The one entry of `_jft_send`. -/
def fileEntry (d : FtPtr) : AppEntry := { name := "file", data := d, ns := NS_JINGLE_APP_FT }

theorem jftSendTransfer_offers {recipientjid : String}
    (recipient : offerRecipient w = some recipientjid)
    : jftSendTransfer env w d
      = offerApps env w recipientjid [fileEntry d] "file" NS_JINGLE_APP_FT d := by
  obtain ⟨jid, jidKnown, rest⟩ := Option.bind_eq_some_iff.mp recipient
  obtain ⟨resource, resourceKnown, same⟩ := Option.map_eq_some_iff.mp rest
  rw [jftSendTransfer, jidKnown]
  dsimp only
  rw [resourceKnown]
  dsimp only
  rw [same]
  rfl

/-- Without anyone to send it to the transfer is marked, and nothing else happens. -/
theorem jftSendTransfer_nobody (recipient : offerRecipient w = none)
    : jftSendTransfer env w d s
      = .done () { s with
          infoList := s.infoList.modify d (fun ft => { ft with state := .error }) } := by
  rw [jftSendTransfer]
  cases jid : w.currentJid with
  | none => rfl
  | some jid' =>
      cases resource : w.compatibleRes with
      | none => rfl
      | some resource' => simp [offerRecipient, jid, resource] at recipient

/-- A new session is there, and whatever is listed in its place has the transfer. -/
theorem equipped_described {js : JingleSession} {p : SessionPtr} {name xmlns : String}
    {app : FtPtr} {transfuncs : JingleTransportFuncs}
    (described : ∀ sc ∈ js.content, sc.description = some d) {js' : JingleSession}
    (listed : (s.equipped w js p name app xmlns transfuncs).sessions.get? s.sessions.next
      = some js')
    : ∀ sc ∈ js'.content, sc.description = some d := by
  obtain ⟨before, found, rewritten⟩ := Pool.get?_modify_eq_some.mp listed
  cases (s.opening_listed js).symm.trans found
  subst rewritten
  intro sc member
  split at member
  · have apps := map_app_withTransport name app xmlns transfuncs s.transports.next js.content
    have there := List.mem_map_of_mem (f := fun sc => (sc.appfuncs, sc.description)) member
    rw [apps] at there
    obtain ⟨old, member', same⟩ := List.mem_map.mp there
    exact (Prod.mk.inj same).2.symm.trans (described old member')
  · exact described sc member

/-- What an offer of one transfer leaves, when it is not stopped: the transfers are what they
were, and a session was made, for that transfer.
-/
structure OfferTrace (s s' : State) (d : FtPtr) : Prop where
  infoList : s'.infoList = s.infoList
  next : s'.sessions.next = s.sessions.next + 1
  described : ∀ js, s'.sessions.get? s.sessions.next = some js
    → ∀ sc ∈ js.content, sc.description = some d

theorem offerApps_trace {recipientjid name xmlnsApp : String} {entry : AppEntry} {app : FtPtr}
    (run : offerApps env w recipientjid [entry] name xmlnsApp app s = .done () s')
    : OfferTrace s s' entry.data := by
  have described : ∀ sc ∈ (appsSession w s recipientjid [entry]).content,
      sc.description = some entry.data := by
    have content : (appsSession w s recipientjid [entry]).content = withEntry s [] entry := rfl
    rw [content, withEntry_nil]
    intro sc member
    cases List.mem_singleton.mp member
    rfl
  rcases offerApps_done run with ⟨_, rfl⟩ | ⟨xmlns, transfuncs, p, js, iq, _, _, _, _, ends⟩
  · refine ⟨rfl, rfl, fun js listed => ?_⟩
    cases (s.opening_listed _).symm.trans listed
    exact described
  · dsimp only at ends
    split at ends
    · subst ends
      exact ⟨rfl, rfl, fun js listed => equipped_described described listed⟩
    · obtain ⟨staleReads, rfl⟩ := ends
      exact ⟨rfl, rfl, fun js listed =>
        equipped_described described (Pool.get?_erase_eq_some.mp listed).2⟩

/-- The transfer that was reset is never sent again so that it can be read, and no other one is
sent at all.
-/
theorem jftRetry_never_restarts {first : FtPtr} {old : JingleFT}
    {rest : List (FtPtr × JingleFT)} (cells : s.infoList.cells = (first, old) :: rest)
    (run : jftRetry env w (some text) s = .done () s') {ft ft' : JingleFT} {js : JingleSession}
    {iq : LmMessage} {file : LmMessageNode}
    : ¬Restarted s s' d ft ft' js iq file := by
  intro restarted
  rw [jftRetry_first cells] at run
  have reset : (s.rewinding first).infoList.get? first = some old.rewound := by
    have listed : s.infoList.get? first = some old :=
      Pool.get?_eq_some_iff.mpr (cells ▸ List.mem_cons_self ..)
    simp [State.rewinding, listed]
  cases recipient : offerRecipient w with
  | none =>
      rw [jftSendTransfer_nobody recipient] at run
      cases run
      have sent := restarted.sent
      simp [State.rewinding] at sent
  | some recipientjid =>
      rw [jftSendTransfer_offers recipient] at run
      have trace := offerApps_trace run
      obtain ⟨sc, member, described⟩ := restarted.described
      have same := (trace.described js restarted.session sc member).symm.trans described
      have same : first = d := Option.some.inj same
      subst same
      obtain ⟨reads, opened⟩ := restarted.readable
      have after := restarted.after
      rw [trace.infoList, reset] at after
      cases after
      cases opened

/-- A transfer that was reset and marked before is not changed by a retry to nobody. -/
theorem jftRetry_same_iff {first : FtPtr} {old : JingleFT} {rest : List (FtPtr × JingleFT)}
    (cells : s.infoList.cells = (first, old) :: rest)
    : jftRetry env w (some text) s = .done () s
      ↔ offerRecipient w = none ∧ { old.rewound with state := .error } = old := by
  have listed : s.infoList.get? first = some old :=
    Pool.get?_eq_some_iff.mpr (cells ▸ List.mem_cons_self ..)
  rw [jftRetry_first cells]
  cases recipient : offerRecipient w with
  | none =>
      rw [jftSendTransfer_nobody recipient]
      have both : (s.rewinding first).infoList.modify first (fun ft => { ft with state := .error })
          = s.infoList.modify first (fun ft => { ft.rewound with state := .error }) :=
        Pool.modify_modify _ _ _ _
      constructor
      · intro run
        refine ⟨rfl, ?_⟩
        have same := congrArg (fun s : State => s.infoList.get? first)
          (Outcome.done.inj run).2
        simp only [both, Pool.get?_modify_self, listed, Option.map_some] at same
        exact Option.some.inj same
      · rintro ⟨_, same⟩
        have kept : s.infoList.modify first (fun ft => { ft.rewound with state := .error })
            = s.infoList := by
          refine Pool.modify_of_same ?_
          intro value found
          cases listed.symm.trans found
          exact same
        rw [both, kept]
        rfl
  | some recipientjid =>
      rw [jftSendTransfer_offers recipient]
      constructor
      · intro run
        have next := (offerApps_trace run).next
        exact absurd next.symm (Nat.succ_ne_self _)
      · rintro ⟨absurd, _⟩
        cases absurd

/-- The command is right only where it does nothing: without an argument, without transfers, or
for an index that no transfer has when there is nobody to send to and the first transfer was
reset and marked before.
-/
theorem retry_restarts_target (env : Env) (w : World) (s : State) (arg : Option String)
    : RetriesRight env w s arg
      ↔ arg = none
        ∨ s.infoList.cells = []
        ∨ retryTarget s arg = none ∧ offerRecipient w = none
          ∧ ∃ first old rest, s.infoList.cells = (first, old) :: rest
            ∧ { old.rewound with state := .error } = old := by
  cases arg with
  | none =>
      refine ⟨fun _ => .inl rfl, fun _ => ⟨fun _ => ?_, fun d target => by cases target⟩⟩
      rw [jftRetry, bind_get]
      rfl
  | some text =>
      cases cells : s.infoList.cells with
      | nil =>
          have absent : retryTarget s (some text) = none := by simp [retryTarget, cells]
          refine ⟨fun _ => .inr (.inl rfl), fun _ => ⟨fun _ => jftRetry_empty cells, ?_⟩⟩
          intro d target
          cases absent.symm.trans target
      | cons cell rest =>
          obtain ⟨first, old⟩ := cell
          have same : jftRetry env w (some text) s = .done () s
              ↔ offerRecipient w = none ∧ { old.rewound with state := .error } = old :=
            jftRetry_same_iff cells
          constructor
          · intro right
            cases target : retryTarget s (some text) with
            | none =>
                obtain ⟨nobody, reset⟩ := same.mp (right.nothing target)
                exact .inr (.inr ⟨rfl, nobody, first, old, rest, rfl, reset⟩)
            | some d =>
                obtain ⟨s', run, ft, ft', js, iq, file, restarted⟩ := right.again d target
                exact absurd restarted (jftRetry_never_restarts cells run)
          · rintro (missing | empty | ⟨absent, nobody, first', old', rest', cells', reset⟩)
            · cases missing
            · cases empty
            · cases cells'
              refine ⟨fun _ => same.mpr ⟨nobody, reset⟩, fun d target => ?_⟩
              cases absent.symm.trans target

/-- Two files are listed, and no session offers them. -/
def twoFiles : State :=
  { listedFile with
    infoList := listedFile.infoList.alloc
      { date := 0, hash := none, name := "letter", size := 9, transmit := 0, outfile := none,
        type := .offer, dir := .outgoing, state := .error, desc := none, md5 := .null } }

/-- The command for the second file sends the first one, with the size 0. -/
theorem retry_sends_first_file
    : (jftRetry plainEnv (offeringWorld []) (some "2") twoFiles).state.sessions.cells.map
          (fun cell => cell.2.content.map SessionContent.description) = [[some 1]]
      ∧ ¬RetriesRight plainEnv (offeringWorld []) twoFiles (some "2") := by
  refine ⟨by decide +kernel, fun right => ?_⟩
  have target : retryTarget twoFiles (some "2") = some 2 := by decide +kernel
  obtain ⟨s', run, ft, ft', js, iq, file, restarted⟩ := right.again 2 target
  exact jftRetry_never_restarts rfl run restarted

end McabberJingle
