import McabberJingle.Effects.Reach
import McabberJingle.Jingle.Opening
import McabberJingle.System.Execution

/-! What the IQ of one peer leaves of the sessions with the others. Sessions are told apart by
sid and peer, in-band streams by sid alone, and transfers can be shared.
-/

namespace McabberJingle

open Program Program.Prog

variable {env : Env} {w : World} {s s' : State} {sender : Option String}

-----------------------------------------------------------------------------------------
-- What belongs to other peers
-----------------------------------------------------------------------------------------

/-- The session is not with the sender; a stanza without `from` has none. -/
def JingleSession.Foreign (js : JingleSession) (sender : Option String) : Prop :=
  ∀ peer ∈ sender, gAsciiStrcaseeq (some js.recipient) (some peer) = false

/-- The session of another peer, listed at `p`, has the content. -/
structure ForeignContent (s : State) (sender : Option String) (p : SessionPtr)
    (js : JingleSession) (sc : SessionContent)
    : Prop where
  listed : s.sessions.get? p = some js
  foreign : js.Foreign sender
  member : sc ∈ js.content

/-- The transfer belongs to a session of another peer. -/
def ForeignTransfer (s : State) (sender : Option String) (d : FtPtr) : Prop :=
  ∃ p js sc, ForeignContent s sender p js sc ∧ sc.description = some d

/-- The transport belongs to a session of another peer. -/
def ForeignTransport (s : State) (sender : Option String) (t : TransportPtr) : Prop :=
  ∃ p js sc, ForeignContent s sender p js sc ∧ sc.transport = some t

/-- The file at `path` is what a session of another peer stores to. -/
def ForeignFile (s : State) (sender : Option String) (path : String) : Prop :=
  ∃ d jft, ForeignTransfer s sender d ∧ s.infoList.get? d = some jft ∧ jft.dir = .incoming
    ∧ jft.name = path

/-- An incoming session of another peer has an in-band stream of this sid. -/
def ForeignStream (s : State) (sender : Option String) (sid : String) : Prop :=
  ∃ p js sc t jibb, ForeignContent s sender p js sc ∧ js.origin = .incoming
    ∧ sc.transport = some t ∧ s.transports.get? t = some (.ibb jibb) ∧ jibb.sid = sid

/-- The file an operation on disk goes to. -/
def DiskOp.path (s : State) (op : DiskOp) : Option String :=
  (s.infoList.get? op.ft).map JingleFT.name

/-- Since `s₀` the sessions of other peers stayed as they were. -/
structure Isolates (s₀ s : State) (sender : Option String) : Prop where
  sessions : ∀ p js, s₀.sessions.get? p = some js → js.Foreign sender →
    s.sessions.get? p = some js
  transfers : ∀ d, ForeignTransfer s₀ sender d → s.infoList.get? d = s₀.infoList.get? d
  files : ∃ ops, s.disk = s₀.disk ++ ops
    ∧ ∀ op ∈ ops, ∀ path, op.path s₀ = some path → ¬ForeignFile s₀ sender path
  transports : ∀ t, ForeignTransport s₀ sender t → s.transports.get? t = s₀.transports.get? t
  streams : ∀ sid, ForeignStream s₀ sender sid → Ibb.lookup s sid = Ibb.lookup s₀ sid

-----------------------------------------------------------------------------------------
-- What the sender may ask for
-----------------------------------------------------------------------------------------

/-- The stanza stores this hash in the transfer. -/
def Input.hashes (env : Env) (s : State) (input : Input) (d : FtPtr) (hash : Option String)
    : Prop :=
  ∃ jn child p js, input.request env = some jn ∧ jn.action = .sessionInfo
    ∧ jn.node.children.head? = some child ∧ takesHash child = true ∧ child.value = hash
    ∧ sessionFind s jn = some (p, js) ∧ d ∈ js.content.filterMap SessionContent.description

/-- Bytes may get into the transfer's file: those of a packet, or those that wait at its end. -/
def Input.writes (env : Env) (w : World) (s : State) (input : Input) (d : FtPtr) : Prop :=
  input.target s = some d ∧ FileTransfer.writesFile w s d = true
  ∨ d ∈ input.stops env w s ∧ Unflushed s d

/-- The transfer has the state that `stop` gives it, and nothing waits in its channel. -/
def JingleFT.Concluded (ft : JingleFT) : Prop :=
  ft.waiting = [] ∧ ft.state = if ft.transmit < ft.size then .error else .ending

/-- The `<transport/>` of a session-accept brings the transport nothing new. -/
def JingleTransportFuncs.Keeps (node : LmMessageNode) : JingleTransportFuncs → Transport → Prop
  | .ibb, .ibb jibb =>
      node.getAttribute "xmlns" = some NS_JINGLE_TRANSPORT_IBB →
        jibb.blocksize ≤ Ibb.toGuint64 (gAsciiStrtoll (node.getAttribute "block-size"))
  | .s5b, .s5b js5b => js5b.candidates = []
  | _, _ => True

/-- Naming the content in a session-accept changes nothing. -/
structure SessionContent.Idle (s : State) (sc : SessionContent) (node : LmMessageNode)
    : Prop where
  active : sc.state = .active
  transport : ∀ transfuncs ∈ sc.transfuncs, ∀ t ∈ sc.transport,
    ∀ transport ∈ s.transports.get? t, transfuncs.Keeps node transport

/-- A session that the stanza opens takes over no stream of another peer. -/
def SparesStreams (env : Env) (w : World) (s : State) (sender : Option String) (input : Input)
    : Prop :=
  ∀ jn, input.invitation env w s = some jn →
    ∀ cn ∈ (checkContents jn).jn.content.filter (contentKept env w s),
      ∀ sid, streamSid s cn = some sid → ¬ForeignStream s sender sid
        ∧ ∀ t, Ibb.lookup s sid = some t → (s.transports.get? t).isSome = true →
          ¬ForeignTransport s sender t

/-- What belongs to other peers is out of reach of the stanza, or the stanza brings it nothing
new.
-/
structure StaysApart (env : Env) (w : World) (s : State) (sender : Option String) (input : Input)
    : Prop where
  ends : ∀ jn, input.request env = some jn → jn.action = .sessionTerminate →
    ∀ p js, sessionFind s jn = some (p, js) → ¬js.Foreign sender
  streams : SparesStreams env w s sender input
  accept : ∀ jn, input.request env = some jn → jn.action = .sessionAccept →
    (checkContents jn).ok = true → ∀ p js, sessionFind s jn = some (p, js) → js.Foreign sender →
      ∀ jc ∈ (checkContents jn).jn.content, ∀ sc ∈ sessionFindSessioncontent js jc.name,
        sc.Idle s jc.transport
  info : ∀ d hash, input.hashes env s d hash → ForeignTransfer s sender d →
    ∀ ft, s.infoList.get? d = some ft → ft.hash = hash
  stops : ∀ d ∈ input.stops env w s, ForeignTransfer s sender d →
    ∀ ft, s.infoList.get? d = some ft → ft.Concluded
  target : ∀ d, input.target s = some d → ForeignTransfer s sender d →
    ∀ ft, s.infoList.get? d = some ft → ft.dir = .incoming →
      input.payload env = some [] ∧ ∃ fed, ft.md5 = .running fed
  writes : ∀ d, input.writes env w s d →
    ∀ ft, s.infoList.get? d = some ft → ¬ForeignFile s sender ft.name

-----------------------------------------------------------------------------------------
-- session-accept
-----------------------------------------------------------------------------------------

section Accepting

variable {node : LmMessageNode} {transfuncs : JingleTransportFuncs}

/-- What a session-accept can make smaller. -/
def Transport.extent : Transport → Nat
  | .ibb jibb => jibb.blocksize
  | .s5b js5b => js5b.candidates.length

theorem takes_eq_iff (named : node.name ≠ "candidate") (transport : Transport)
    : transfuncs.takes env node transport = transport ↔ transfuncs.Keeps node transport := by
  have skips := S5b.parseCandidates_skips env named
  rcases transport with ⟨blocksize, sid, buf, sizeBuf, bufFreed, seq⟩ | js5b
  · cases transfuncs with
    | ibb =>
        simp only [JingleTransportFuncs.takes, JingleTransportFuncs.Keeps]
        split
        · rename_i ours
          simp only [ours, true_imp_iff, Transport.ibb.injEq, JingleIBB.mk.injEq, and_true]
          split <;> omega
        · rename_i other
          simp [other]
    | s5b => exact iff_of_true rfl trivial
  · cases transfuncs with
    | ibb => exact iff_of_true rfl trivial
    | s5b =>
        simp only [JingleTransportFuncs.takes, JingleTransportFuncs.Keeps, skips]
        constructor
        · intro same
          injection same with same
          exact (congrArg JingleS5B.candidates same).symm
        · intro empty
          rw [← empty]

theorem takes_shrinks (named : node.name ≠ "candidate") (transport : Transport)
    : transfuncs.takes env node transport = transport
      ∨ (transfuncs.takes env node transport).extent < transport.extent := by
  have skips := S5b.parseCandidates_skips env named
  cases transfuncs with
  | ibb =>
      cases transport with
      | ibb jibb =>
          simp only [JingleTransportFuncs.takes]
          split
          · split
            · rename_i lower
              exact Or.inr lower
            · exact Or.inl rfl
          · exact Or.inl rfl
      | s5b js5b => exact Or.inl rfl
  | s5b =>
      cases transport with
      | ibb jibb => exact Or.inl rfl
      | s5b js5b =>
          simp only [JingleTransportFuncs.takes, skips, Transport.extent]
          cases known : js5b.candidates with
          | nil =>
              rw [← known]
              exact Or.inl rfl
          | cons cand rest => exact Or.inr (Nat.succ_pos _)

/-- The elements in a session-accept are called "transport". -/
theorem accepted_named {input : Input} {jn : JingleNode} (requested : input.request env = some jn)
    {cn : JingleContent} (member : cn ∈ (checkContents jn).jn.content)
    : cn.transport.name ≠ "candidate" := by
  have empty : jn.content = [] := by
    cases input with
    | jingleIq message => exact (jingleRequest_node requested).2.1
    | _ => cases requested
  rcases checkContentsLoop_transport member with listed | named
  · rw [empty] at listed
    cases listed
  · rw [named]
    decide

/-- The transport `t` is as it was, though a session-accept named its content, exactly when no
content that the stanza names brought it anything.
-/
theorem accepted_same_iff {contents : List JingleContent} {p : SessionPtr} {js : JingleSession}
    {t : TransportPtr} (accepted : AcceptedBy env contents p js s s')
    (named : ∀ jc ∈ contents, jc.transport.name ≠ "candidate")
    : s'.transports.get? t = s.transports.get? t
      ↔ ∀ transport ∈ s.transports.get? t, ∀ jc ∈ contents,
          js.takes env t transport jc = transport := by
  have shrinks (jc : JingleContent) (member : jc ∈ contents) (transport : Transport)
      : js.takes env t transport jc = transport
        ∨ (js.takes env t transport jc).extent < transport.extent := by
    unfold JingleSession.takes
    split
    · exact Or.inl rfl
    · split
      · exact Or.inl rfl
      · split
        · exact takes_shrinks (named jc member) transport
        · exact Or.inl rfl
  rw [accepted.taken t]
  cases s.transports.get? t with
  | none => simp
  | some transport =>
      simp only [Option.map_some, Option.some.injEq, Option.mem_some_iff, forall_eq']
      exact foldl_eq_self_iff shrinks transport

variable {input : Input} {jn : JingleNode} {p : SessionPtr} {js : JingleSession}

/-- Idle contents stay as they are, and so do all transports. -/
theorem accept_idles (requested : input.request env = some jn)
    (action : jn.action = .sessionAccept) (found : sessionFind s jn = some (p, js))
    (idle : (checkContents jn).ok = true → ∀ jc ∈ (checkContents jn).jn.content,
      ∀ sc ∈ sessionFindSessioncontent js jc.name, sc.Idle s jc.transport)
    (step : Step env s (w, input) s')
    : s'.sessions.get? p = some js ∧ ∀ t, s'.transports.get? t = s.transports.get? t := by
  have listed := sessionFindBySid_listed found
  rcases sessionAccept_ends requested action step with
    ⟨_, sessions, transports, _⟩ | ⟨p', js', found', ok, _, accepted⟩
  · exact ⟨by rw [sessions, listed], fun t => by rw [transports]⟩
  · cases found.symm.trans found'
    refine ⟨?_, fun t => ?_⟩
    · rw [accepted.session, activated_eq_self_iff.mpr (fun jc member sc there =>
        (idle ok jc member sc there).active)]
    · refine (accepted_same_iff accepted ?named).mpr (fun transport there jc member => ?_)
      case named => exact fun jc member => accepted_named requested member
      unfold JingleSession.takes
      split
      · rfl
      · rename_i sc hit
        split
        · rfl
        · rename_i transfuncs funcs
          split
          · rename_i carried
            have keeps := (idle ok jc member sc hit).transport transfuncs funcs t carried transport
              there
            exact (takes_eq_iff (accepted_named requested member) transport).mpr keeps
          · rfl

end Accepting

-----------------------------------------------------------------------------------------
-- Transfers and files
-----------------------------------------------------------------------------------------

section Files

variable {input : Input} {jn : JingleNode}

/-- Being stopped changes nothing of a transfer that is concluded. -/
theorem JingleFT.stopped_eq_self_iff (ft : JingleFT)
    : ft.shutDown.stopped = ft ↔ ft.Concluded := by
  constructor
  · intro same
    have idle := ft.waiting_stopped
    rw [same] at idle
    exact ⟨idle, (congrArg JingleFT.state same).symm⟩
  · intro concluded
    have closed : ft.shutDown = ft := by
      rw [JingleFT.shutDown, if_pos concluded.1]
    rw [closed, JingleFT.stopped, ← concluded.2]

/-- Transfers of others that are rewritten in turn stay the same when rewriting leaves each one
alone.
-/
theorem transfers_modifyAll_iff {f : JingleFT → JingleFT} (settles : ∀ ft, f (f ft) = f ft)
    {ds : List FtPtr} (after : s'.infoList = s.infoList.modifyAll f ds)
    : (∀ d, ForeignTransfer s sender d → s'.infoList.get? d = s.infoList.get? d)
      ↔ ∀ d ∈ ds, ForeignTransfer s sender d → ∀ ft, s.infoList.get? d = some ft → f ft = ft := by
  simp only [after, Pool.get?_modifyAll settles]
  constructor
  · intro same d member foreign ft there
    have same := same d foreign
    rw [there, Option.map_some, if_pos member] at same
    exact Option.some.inj same
  · intro kept d foreign
    by_cases member : d ∈ ds
    · cases there : s.infoList.get? d with
      | none => rfl
      | some ft => rw [Option.map_some, if_pos member, kept d member foreign ft there]
    · simp [member]

/-- A stanza that stops a transfer ends a session. -/
theorem requested_of_stops {d : FtPtr} (stops : d ∈ input.stops env w s)
    : ∃ jn, input.request env = some jn ∧ jn.action = .sessionTerminate
        ∧ (sessionFind s jn).isSome = true := by
  cases input with
  | jingleIq message =>
      simp only [Input.stops, stopped] at stops
      split at stops
      · cases stops
      · rename_i jn valid
        obtain ⟨requested, action⟩ := Option.filter_eq_some_iff.mp valid
        split at stops
        · cases stops
        · rename_i p js found
          exact ⟨jn, requested, of_decide_eq_true action, by rw [found]; rfl⟩
  | _ => cases stops

/-- A stanza about sessions brings no bytes. -/
theorem target_of_request (requested : input.request env = some jn) : input.target s = none := by
  cases input with
  | jingleIq message => rfl
  | _ => cases requested

/-- Without what may reach files nothing is written. -/
theorem not_writes {d : FtPtr} (reaches : ¬input.reachesFiles env s)
    : ¬input.writes env w s d := by
  rintro (⟨target, _⟩ | ⟨stops, _⟩)
  · exact reaches (Or.inr (Option.isSome_iff_exists.mpr ⟨d, target⟩))
  · obtain ⟨jn, requested, action, found⟩ := requested_of_stops stops
    exact reaches (Or.inl ⟨jn, requested, found, Or.inl action⟩)

/-- Steps on the disk of a packet. -/
theorem received_writes (w : World) (d : FtPtr) (data : List UInt8) {ft : JingleFT}
    (incoming : ft.dir = .incoming) (there : s.infoList.get? d = some ft) (d' : FtPtr)
    : (∃ op ∈ (received w d data ft).ops, op.ft = d')
      ↔ d' = d ∧ FileTransfer.writesFile w s d' = true := by
  have ours : ∀ op ∈ (received w d data ft).ops, op.ft = d := by
    unfold received receivedWrite
    grind [DiskOp.ft]
  have writes : FileTransfer.writesFile w s d = true ↔ (received w d data ft).ops ≠ [] := by
    rw [Ne, received_ops_eq_nil_iff]
    simp [FileTransfer.writesFile, there, incoming, or_iff_not_imp_left]
  constructor
  · rintro ⟨op, member, rfl⟩
    have here := ours op member
    exact ⟨here, here ▸ writes.mpr (List.ne_nil_of_mem member)⟩
  · rintro ⟨rfl, written⟩
    obtain ⟨op, member⟩ := List.exists_mem_of_ne_nil _ (writes.mp written)
    exact ⟨op, member, ours op member⟩

/-- The steps on the disk of a stanza that opens no session are for the transfers it writes. -/
theorem Step.writes {message : LmMessage} (iq : input.iq = some message) (layout : Layout s)
    (opens : input.invitation env w s = none) (step : Step env s (w, input) s')
    : ∃ ops, s'.disk = s.disk ++ ops
        ∧ ∀ d, (∃ op ∈ ops, op.ft = d) ↔ input.writes env w s d := by
  have unwritten (same : s'.disk = s.disk) (never : ∀ d, ¬input.writes env w s d)
      : ∃ ops, s'.disk = s.disk ++ ops
          ∧ ∀ d, (∃ op ∈ ops, op.ft = d) ↔ input.writes env w s d :=
    ⟨[], by rw [same, List.append_nil], fun d => iff_of_false (by simp) (never d)⟩
  by_cases reaches : input.reachesFiles env s
  case neg =>
    exact unwritten ((step.spared iq layout opens).files reaches).2 (fun d => not_writes reaches)
  rcases reaches with ⟨jn, requested, found, terminates | ⟨action, hash⟩⟩ | target
  · obtain ⟨ops, appended, exactly⟩ := (sessionTerminate_ends requested terminates step).disk
    refine ⟨ops, appended, fun d => (exactly d).trans ?_⟩
    simp [Input.writes, target_of_request requested]
  · obtain ⟨⟨p, js⟩, found⟩ := Option.isSome_iff_exists.mp found
    obtain ⟨child, first, takes⟩ := (Option.any_eq_true _ _).mp hash
    refine unwritten (sessionInfo_ends requested action first takes found step).1 (fun d => ?_)
    rintro (⟨target, _⟩ | ⟨stops, _⟩)
    · cases (target_of_request requested).symm.trans target
    · obtain ⟨jn', requested', ends, _⟩ := requested_of_stops stops
      cases requested.symm.trans requested'
      cases action.symm.trans ends
  · obtain ⟨d, target⟩ := Option.isSome_iff_exists.mp target
    have stopless (d' : FtPtr) : d' ∉ input.stops env w s := by
      intro stops
      obtain ⟨jn, requested, _⟩ := requested_of_stops stops
      cases (target_of_request requested).symm.trans target
    have aimed (d' : FtPtr)
        : input.writes env w s d' ↔ d' = d ∧ FileTransfer.writesFile w s d' = true := by
      rw [Input.writes, target, Option.some.injEq, eq_comm]
      exact or_iff_left (fun both => stopless d' both.1)
    obtain ⟨data, ft, payload, there, ⟨outgoing, _, disk⟩ | ⟨incoming, _, disk⟩⟩ :=
      packet_ends target step
    · refine unwritten disk (fun d' writes => ?_)
      obtain ⟨rfl, written⟩ := (aimed d').mp writes
      simp [FileTransfer.writesFile, there, outgoing] at written
    · exact ⟨_, disk, fun d' => (received_writes w d data incoming there d').trans
        (aimed d').symm⟩

/-- Whether the files of others are written depends on the transfers that are. -/
theorem files_apart_iff {ops : List DiskOp} {writes : FtPtr → Prop}
    (exactly : ∀ d, (∃ op ∈ ops, op.ft = d) ↔ writes d)
    : (∀ op ∈ ops, ∀ path, op.path s = some path → ¬ForeignFile s sender path)
      ↔ ∀ d, writes d → ∀ ft, s.infoList.get? d = some ft → ¬ForeignFile s sender ft.name := by
  constructor
  · intro apart d written ft there
    obtain ⟨op, member, rfl⟩ := (exactly d).mpr written
    exact apart op member ft.name (by rw [DiskOp.path, there]; rfl)
  · intro apart op member path goes
    obtain ⟨ft, there, rfl⟩ := Option.map_eq_some_iff.mp goes
    exact apart op.ft ((exactly op.ft).mp ⟨op, member, rfl⟩) ft there

/-- A packet leaves a transfer alone that it brings no bytes and whose file it does not reach. -/
theorem received_eq_self {d : FtPtr} {ft : JingleFT} {fed : List UInt8}
    (incoming : ft.dir = .incoming) (there : s.infoList.get? d = some ft)
    (running : ft.md5 = .running fed) (unwritten : FileTransfer.writesFile w s d = false)
    : (received w d [] ft).ft = ft := by
  have closed : ft.outfile.isSome = false ∧ w.write.opened = false := by
    simpa [FileTransfer.writesFile, there, incoming] using unwritten
  rw [received_closed w d [] ft closed.1 closed.2]
  simp only [running, GChecksum.seen, List.append_nil]
  rw [← running]

/-- What the stanza may do to transfers, it does not do to those of others. -/
theorem StaysApart.transfers {message : LmMessage} (iq : input.iq = some message)
    (layout : Layout s) (opens : input.invitation env w s = none)
    (step : Step env s (w, input) s') (apart : StaysApart env w s sender input) (d : FtPtr)
    (foreign : ForeignTransfer s sender d)
    : s'.infoList.get? d = s.infoList.get? d := by
  by_cases reaches : input.reachesFiles env s
  case neg => rw [((step.spared iq layout opens).files reaches).1]
  rcases reaches with ⟨jn, requested, found, terminates | ⟨action, hash⟩⟩ | target
  · refine (transfers_modifyAll_iff JingleFT.stopped_again
      (sessionTerminate_ends requested terminates step).infoList).mpr ?_ d foreign
    exact fun d' stops foreign' ft there =>
      ft.stopped_eq_self_iff.mpr (apart.stops d' stops foreign' ft there)
  · obtain ⟨⟨p, js⟩, found⟩ := Option.isSome_iff_exists.mp found
    obtain ⟨child, first, takes⟩ := (Option.any_eq_true _ _).mp hash
    refine (transfers_modifyAll_iff (f := fun ft => { ft with hash := child.value }) (fun _ => rfl)
      (sessionInfo_ends requested action first takes found step).2).mpr ?_ d foreign
    intro d' member foreign' ft there
    rw [← apart.info d' child.value ⟨jn, child, p, js, requested, action, first, takes, rfl, found,
      member⟩ foreign' ft there]
  · obtain ⟨d', target⟩ := Option.isSome_iff_exists.mp target
    obtain ⟨data, ft, payload, there, ⟨_, same, _⟩ | ⟨incoming, stored, _⟩⟩ :=
      packet_ends target step
    · rw [same]
    · rw [stored]
      by_cases here : d = d'
      · subst here
        obtain ⟨empty, fed, running⟩ := apart.target d target foreign ft there incoming
        cases payload.symm.trans empty
        have unwritten : FileTransfer.writesFile w s d = false := by
          by_contra writes
          rw [Bool.not_eq_false] at writes
          exact apart.writes d (Or.inl ⟨target, writes⟩) ft there
            ⟨d, ft, foreign, there, incoming, rfl⟩
        rw [Pool.get?_modify_self, there, Option.map_some,
          received_eq_self incoming there running unwritten]
      · exact Pool.get?_modify_of_ne _ here

end Files

-----------------------------------------------------------------------------------------
-- Invitations
-----------------------------------------------------------------------------------------

/-- An invitation writes to no file. -/
theorem invitation_disk {input : Input} {jn : JingleNode} (layout : Layout s)
    (opens : input.invitation env w s = some jn) (step : Step env s (w, input) s')
    : s'.disk = s.disk := by
  obtain ⟨requested, both⟩ := Option.filter_eq_some_iff.mp opens
  simp only [Bool.and_eq_true, beq_iff_eq] at both
  have invites : jn.action = .sessionInitiate := both.1.1
  let r : Rights := { Rights.all with disk := fun _ => False }
  have stable : Stable r (fun s' => s'.disk = s.disk) := by
    intro s₁ s₂ same effect
    cases effect with
    | disk op allowed => exact allowed.elim
    | _ => exact same
  cases input with
  | jingleIq message =>
    refine (step.keeps stable.layout ⟨rfl, layout⟩ (fun jn' requested' => ?_)).1
    cases requested.symm.trans requested'
    refine ⟨fun _ _ _ => ?_, fun _ _ _ _ _ _ _ _ _ => trivial,
      fun _ _ _ _ _ _ => ⟨trivial, trivial, fun _ _ _ => trivial, fun _ _ _ _ _ _ _ _ => trivial⟩,
      fun action => by cases invites.symm.trans action⟩
    exact {
      newFt := trivial
      create := fun _ _ _ _ _ _ => trivial
      build := fun _ _ => ⟨fun _ holds => holds.2, trivial, trivial, fun _ _ => trivial,
        fun _ _ => trivial⟩
      bind := fun _ _ _ _ _ _ _ _ _ _ => ⟨trivial, trivial, fun _ _ => trivial⟩
      close := fun _ _ => trivial
      ask := fun _ _ => trivial
      unsupported := fun _ _ _ _ _ _ _ => trivial
    }
  | _ => cases opens

/-- An invitation takes nothing but streams. -/
theorem staysApart_of_initiate {input : Input}
    (initiates : ∀ jn, input.request env = some jn → jn.action = .sessionInitiate)
    (aimless : input.target s = none) (streams : SparesStreams env w s sender input)
    : StaysApart env w s sender input := by
  have other {jn : JingleNode} {action : JingleAction} (requested : input.request env = some jn)
      (acts : jn.action = action)
      : action = .sessionInitiate :=
    acts.symm.trans (initiates jn requested)
  have stopless (d : FtPtr) : d ∉ input.stops env w s := by
    intro stops
    obtain ⟨jn, requested, action, _⟩ := requested_of_stops stops
    cases other requested action
  refine ⟨fun jn requested action => (by cases other requested action), streams,
    fun jn requested action => (by cases other requested action), fun d hash hashes => ?_,
    fun d stops => absurd stops (stopless d), fun d target => (by cases aimless.symm.trans target),
    fun d writes => ?_⟩
  · obtain ⟨jn, _, _, _, requested, action, _⟩ := hashes
    cases other requested action
  · rcases writes with ⟨target, _⟩ | ⟨stops, _⟩
    · cases aimless.symm.trans target
    · exact absurd stops (stopless d)

/-- An invitation touches nothing of others exactly when it asks for no stream of theirs. -/
theorem invitation_isolates_iff {input : Input} {jn : JingleNode} (layout : Layout s)
    (opens : input.invitation env w s = some jn) (step : Step env s (w, input) s')
    : Isolates s s' sender ↔ StaysApart env w s sender input := by
  obtain ⟨peer, toJid, content, _, _, filled⟩ := invitation_filled layout opens step
  have around := filled.around
  constructor
  · intro isolates
    obtain ⟨requested, both⟩ := Option.filter_eq_some_iff.mp opens
    simp only [Bool.and_eq_true, beq_iff_eq] at both
    refine staysApart_of_initiate (fun jn' requested' => ?_) (target_of_request requested) ?_
    · cases requested.symm.trans requested'
      exact both.1.1
    intro jn' opens' cn member sid asked
    cases opens.symm.trans opens'
    have known {t : TransportPtr} (entered : Ibb.lookup s sid = some t)
        : t < s.transports.next := by
      obtain ⟨entry, found, rfl⟩ := Option.map_eq_some_iff.mp entered
      exact layout.streams entry (List.mem_of_find?_eq_some found)
    refine ⟨fun foreign => ?_, fun t entered live foreign => ?_⟩
    · obtain ⟨t, entered, fresh⟩ := around.entered cn member sid asked
      have before : Ibb.lookup s sid = some t := (isolates.streams sid foreign).symm.trans entered
      exact absurd (known before) (Nat.not_lt.mpr fresh)
    · have gone := around.freed cn member sid asked t entered (known entered)
      rw [← isolates.transports t foreign, gone] at live
      cases live
  · intro apart
    have asks := apart.streams jn opens
    refine ⟨fun p js listed _ => ?_, fun d foreign => ?_,
      ⟨[], ?_, fun _ member => by cases member⟩, fun t foreign => ?_, fun sid foreign => ?_⟩
    · have known := Pool.lt_next listed
      rw [around.others p (Nat.ne_of_lt known)]
      exact (Pool.get?_alloc_of_lt _ known).trans listed
    · obtain ⟨p, js, sc, there, described⟩ := foreign
      have live := layout.described p d ⟨js, there.listed, sc, there.member, described⟩
      exact around.transfers d live
    · rw [List.append_nil]
      exact invitation_disk layout opens step
    · obtain ⟨p, js, sc, there, carried⟩ := id foreign
      have known := layout.carried p t ⟨js, there.listed, sc, there.member, carried⟩
      cases found : s.transports.get? t with
      | none => exact around.transports_gone known found
      | some transport =>
          rw [← found]
          refine around.transports t known (fun cn member sid asked entered => ?_)
          exact (asks cn member sid asked).2 t entered (by rw [found]; rfl) foreign
    · exact around.table sid (fun cn member asked => (asks cn member sid asked).1 foreign)

-----------------------------------------------------------------------------------------
-- Stanzas that open no session
-----------------------------------------------------------------------------------------

section Others

variable {input : Input} {message : LmMessage}

/-- What the stanza leaves of a session of another peer, and of what that carries. -/
theorem StaysApart.session {p : SessionPtr} {js : JingleSession}
    (iq : input.iq = some message) (layout : Layout s)
    (opens : input.invitation env w s = none) (step : Step env s (w, input) s')
    (apart : StaysApart env w s sender input) (listed : s.sessions.get? p = some js)
    (foreign : js.Foreign sender)
    : s'.sessions.get? p = some js
      ∧ ∀ t, Carries s p t → s'.transports.get? t = s.transports.get? t := by
  have spared := step.spared iq layout opens
  by_cases touched : input.touches env s p
  · obtain ⟨jn, js', requested, action | action, found⟩ := touched
    · cases listed.symm.trans (sessionFindBySid_listed found)
      obtain ⟨session, transports⟩ := accept_idles requested action found
        (fun ok => apart.accept jn requested action ok p js found foreign) step
      exact ⟨session, fun t _ => transports t⟩
    · cases listed.symm.trans (sessionFindBySid_listed found)
      exact absurd foreign (apart.ends jn requested action p js found)
  · exact ⟨spared.sessions p js touched listed,
      fun t carries => spared.transports p t touched carries⟩

theorem StaysApart.isolates (iq : input.iq = some message) (layout : Layout s)
    (opens : input.invitation env w s = none) (step : Step env s (w, input) s')
    (apart : StaysApart env w s sender input)
    : Isolates s s' sender where
  sessions p js listed foreign := (apart.session iq layout opens step listed foreign).1
  transfers := apart.transfers iq layout opens step
  files := by
    obtain ⟨ops, appended, exactly⟩ := step.writes iq layout opens
    exact ⟨ops, appended, (files_apart_iff exactly).mpr apart.writes⟩
  transports t foreign := by
    obtain ⟨p, js, sc, there, carried⟩ := foreign
    exact (apart.session iq layout opens step there.listed there.foreign).2 t
      ⟨js, there.listed, sc, there.member, carried⟩
  streams sid _ := by
    simp only [Ibb.lookup, (step.spared iq layout opens).table]

/-- A session-accept that changes nothing of a session names only idle contents of it. -/
theorem Isolates.accept {jn : JingleNode} {p : SessionPtr} {js : JingleSession}
    (requested : input.request env = some jn) (action : jn.action = .sessionAccept)
    (ok : (checkContents jn).ok = true) (found : sessionFind s jn = some (p, js))
    (foreign : js.Foreign sender) (step : Step env s (w, input) s')
    (isolates : Isolates s s' sender) {jc : JingleContent}
    (member : jc ∈ (checkContents jn).jn.content) {sc : SessionContent}
    (named : sessionFindSessioncontent js jc.name = some sc)
    : sc.Idle s jc.transport := by
  have listed := sessionFindBySid_listed found
  rcases sessionAccept_ends requested action step with
    ⟨nothing, _⟩ | ⟨p', js', found', _, _, accepted⟩
  · rcases nothing with absent | failed
    · cases found.symm.trans absent
    · cases ok.symm.trans failed
  cases found.symm.trans found'
  have same := isolates.sessions p js listed foreign
  rw [accepted.session, Option.some.injEq] at same
  have active := activated_eq_self_iff.mp (congrArg JingleSession.content same)
  refine ⟨active jc member sc named, fun transfuncs funcs t carried transport there => ?_⟩
  have belongs : ForeignTransport s sender t :=
    ⟨p, js, sc, ⟨listed, foreign, (sessionFindSessioncontent_mem named).1⟩, carried⟩
  have kept := (accepted_same_iff accepted (fun jc member => accepted_named requested member)).mp
    (isolates.transports t belongs) transport there jc member
  rw [JingleSession.takes, named] at kept
  dsimp only at kept
  rw [Option.mem_def.mp funcs] at kept
  dsimp only at kept
  rw [if_pos (Option.mem_def.mp carried)] at kept
  exact (takes_eq_iff (accepted_named requested member) transport).mp kept

theorem Isolates.staysApart (iq : input.iq = some message) (layout : Layout s)
    (opens : input.invitation env w s = none) (step : Step env s (w, input) s')
    (isolates : Isolates s s' sender)
    : StaysApart env w s sender input where
  ends jn requested action p js found foreign := by
    have kept := isolates.sessions p js (sessionFindBySid_listed found) foreign
    cases (step.terminate_removes requested action found).symm.trans kept
  streams jn invites := by cases opens.symm.trans invites
  accept jn requested action ok p js found foreign jc member sc named :=
    isolates.accept requested action ok found foreign step member named
  info d hash hashes foreign ft there := by
    obtain ⟨jn, child, p, js, requested, action, first, takes, rfl, found, described⟩ := hashes
    have kept := (transfers_modifyAll_iff (f := fun ft => { ft with hash := child.value })
      (fun _ => rfl) (sessionInfo_ends requested action first takes found step).2).mp
      isolates.transfers d described foreign ft there
    exact (congrArg JingleFT.hash kept).symm
  stops d stops foreign ft there := by
    obtain ⟨jn, requested, action, _⟩ := requested_of_stops stops
    have kept := (transfers_modifyAll_iff JingleFT.stopped_again
      (sessionTerminate_ends requested action step).infoList).mp isolates.transfers d stops foreign
      ft there
    exact ft.stopped_eq_self_iff.mp kept
  target d target foreign ft there incoming := by
    obtain ⟨data, ft', payload, there', ⟨outgoing, _⟩ | ⟨_, stored, _⟩⟩ := packet_ends target step
    · cases there.symm.trans there'
      cases incoming.symm.trans outgoing
    · cases there.symm.trans there'
      have kept := isolates.transfers d foreign
      rw [stored, Pool.get?_modify_self, there, Option.map_some, Option.some.injEq] at kept
      have fed := congrArg JingleFT.md5 kept
      rw [received_md5] at fed
      refine ⟨?_, _, fed.symm⟩
      rw [payload]
      cases md5 : ft.md5 with
      | running seen =>
          rw [md5, GChecksum.running.injEq, GChecksum.seen] at fed
          rw [List.append_right_eq_self.mp fed]
      | null =>
          rw [md5] at fed
          cases fed
      | freed =>
          rw [md5] at fed
          cases fed
  writes := by
    obtain ⟨ops, appended, apart⟩ := isolates.files
    obtain ⟨ops', appended', exactly⟩ := step.writes iq layout opens
    cases List.append_cancel_left (appended.symm.trans appended')
    exact (files_apart_iff exactly).mp apart

end Others

-----------------------------------------------------------------------------------------
-- Any stanza
-----------------------------------------------------------------------------------------

/-- In every reachable state, a stanza leaves the sessions with other peers as they were exactly
when what belongs to them is out of its reach, or it brings nothing new.
-/
theorem peers_isolated (env : Env) (s : State) (reached : Reachable env s) (w : World)
    (input : Input) (message : LmMessage) (iq : input.iq = some message) (s' : State)
    (step : Step env s (w, input) s')
    : Isolates s s' message.getFrom ↔ StaysApart env w s message.getFrom input := by
  have layout := layout_reached reached
  cases opens : input.invitation env w s with
  | some jn => exact invitation_isolates_iff layout opens step
  | none =>
      exact ⟨fun isolates => isolates.staysApart iq layout opens step,
        fun apart => apart.isolates iq layout opens step⟩

/-- A peer offers us a file over the stream. -/
def invitationBy (peer stream : String) : StepInput :=
  (plainWorld, .jingleIq (jingleSet peer "session-initiate" "s1" [offeredContent "file" stream]))

/-- Whether the input is an invitation, and nobody has one of the streams that it asks for. -/
def asksForNew (env : Env) (s : State) (input : StepInput) : Bool :=
  (input.2.request env).all (fun jn => jn.action == .sessionInitiate)
  && (input.2.invitation env input.1 s).all (fun jn =>
    ((checkContents jn).jn.content.filter (contentKept env input.1 s)).all (fun cn =>
      (streamSid s cn).all (fun sid => (Ibb.lookup s sid).isNone
        && s.transports.cells.all (fun cell =>
          match cell.2 with
          | .ibb jibb => jibb.sid != sid
          | .s5b _ => true))))

/-- An invitation for new streams reaches nothing of others. -/
theorem separate_of_new {peer stream : String}
    (new : asksForNew env s (invitationBy peer stream) = true)
    : StaysApart env plainWorld s sender (invitationBy peer stream).2 := by
  rw [asksForNew, Bool.and_eq_true] at new
  refine staysApart_of_initiate (fun jn requested => ?_) rfl
    (fun jn opens cn member sid asked => ?_)
  · exact eq_of_beq ((Option.all_eq_true _ _).mp new.1 jn requested)
  have all := (Option.all_eq_true _ _).mp new.2 jn opens
  have asks := (Option.all_eq_true _ _).mp (List.all_eq_true.mp all cn member) sid asked
  rw [Bool.and_eq_true, List.all_eq_true] at asks
  obtain ⟨unknown, others⟩ := asks
  refine ⟨fun foreign => ?_, fun t entered => ?_⟩
  · obtain ⟨p, js, sc, t, jibb, _, _, _, there, same⟩ := foreign
    have apart := others (t, .ibb jibb) (Pool.get?_eq_some_iff.mp there)
    simp [same] at apart
  · rw [entered] at unknown
    cases unknown

/-- A second peer invites us over a stream of its own. -/
theorem peers_isolated_secondPeer
    : ∃ s s', Reachable plainEnv s
        ∧ Step plainEnv s (invitationBy "mercutio@verona/b" "b2") s'
        ∧ Isolates s s' (some "mercutio@verona/b") := by
  have passed : (execute plainEnv (fun _ _ => True) loaded [invitationBy "romeo@verona/a" "b1"]).any
      (fun s => asksForNew plainEnv s (invitationBy "mercutio@verona/b" "b2")
        && (execute plainEnv (fun _ _ => True) s [invitationBy "mercutio@verona/b" "b2"]).isSome)
      = true := by
    decide +kernel
  obtain ⟨s, run, passed⟩ := execute_any _ (loaded_reached plainEnv _) passed
  rw [Bool.and_eq_true, Option.isSome_iff_exists] at passed
  obtain ⟨new, s', ends⟩ := passed
  have step := (execute_singleton ends).2
  have isolates := (peers_isolated plainEnv s run plainWorld _ _ rfl s' step).mpr
    (separate_of_new new)
  exact ⟨s, s', run, step, isolates⟩

/-- A second peer that asks for the stream of the first takes it over. -/
theorem peers_share_streams
    : ¬∀ env s, Reachable env s → ∀ w input message, input.iq = some message → ∀ s',
        Step env s (w, input) s' → Isolates s s' message.getFrom := by
  intro claimed
  have passed : (execute plainEnv (fun _ _ => True) loaded [invitationBy "romeo@verona/a" "b1"]).any
      (fun s => (s.sessions.get? 0).any (fun js =>
          !gAsciiStrcaseeq (some js.recipient) (some "mercutio@verona/b")
          && js.content.any (fun sc => sc.transport == some 0))
        && (s.transports.get? 0).isSome
        && (execute plainEnv (fun _ _ => True) s [invitationBy "mercutio@verona/b" "b1"]).any
          (fun s' => (s'.transports.get? 0).isNone)) = true := by
    decide +kernel
  obtain ⟨s, run, passed⟩ := execute_any _ (loaded_reached plainEnv _) passed
  rw [Bool.and_eq_true, Bool.and_eq_true] at passed
  obtain ⟨⟨owned, live⟩, taken⟩ := passed
  obtain ⟨js, listed, other⟩ := (Option.any_eq_true _ _).mp owned
  rw [Bool.and_eq_true, Bool.not_eq_true', List.any_eq_true] at other
  obtain ⟨foreign, sc, member, carried⟩ := other
  obtain ⟨s', ends, freed⟩ := (Option.any_eq_true _ _).mp taken
  have isolates := claimed plainEnv s run _ _ _ rfl s' (execute_singleton ends).2
  have there : ForeignContent s (some "mercutio@verona/b") 0 js sc :=
    ⟨listed, fun peer same => Option.mem_some.mp same ▸ foreign, member⟩
  have same := isolates.transports 0 ⟨0, js, sc, there, eq_of_beq carried⟩
  rw [Option.isNone_iff_eq_none.mp freed] at same
  rw [← same] at live
  cases live

end McabberJingle
