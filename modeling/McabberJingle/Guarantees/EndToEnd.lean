import McabberJingle.Guarantees.Ending
import McabberJingle.Guarantees.Sending
import McabberJingle.Transfer.Arrival

/-! When a file that one instance sends in full is there at the other. The file and its checksum
are only created for the first data packet.
-/

namespace McabberJingle

open Program Program.Prog

-----------------------------------------------------------------------------------------
-- What should arrive
-----------------------------------------------------------------------------------------

/-- A file arrived at the second instance, and the session is gone on both sides. -/
structure Arrived (x : ReadyTransfer) (y : AwaitedTransfer x) (s r : State) : Prop where
  stored : ∃ pieces : List (List UInt8), pieces.flatten = x.file
    ∧ r.disk = y.state.disk ++ .created y.d y.ft.name :: pieces.map (.wrote y.d)
  transfer : ∃ ft, r.infoList.get? y.d = some ft ∧ ft.transmit = x.file.length
    ∧ ft.state = .ending
  report : r.stopReports = y.state.stopReports ++ [(y.d, .verified)]
  left : s.sessions.get? x.p = none
  gone : r.sessions.get? y.q = none

/-- Every data packet is written in full. -/
def WrittenInFull (env : Env) (deliveries : List (World × LmMessage)) : Prop :=
  ∀ delivery ∈ deliveries, ∀ recipient block sid seq,
    delivery.2 = ibbDataIq env recipient block sid seq → Writes delivery.1 block.length

/-- The step behind a freed content, at the session-terminate, comes back. -/
def EndsSafely (deliveries : List (World × LmMessage)) : Prop :=
  ∀ delivery ∈ deliveries.getLast?, delivery.1.freedLink ≠ .traps

-----------------------------------------------------------------------------------------
-- The sender is done
-----------------------------------------------------------------------------------------

section Sender

variable {env : Env} {x : ReadyTransfer} {course : Course}

/-- The end of the file was reached, and every packet has bytes. -/
theorem Willing.closed (positive : 0 < x.jibb.blocksize)
    (run : x.Runs env (Willing env x) course) (ending : course.Ending x.d)
    : ∃ blocks, Closed env x course.state blocks ∧ blocks.length ≤ blocks.flatten.length := by
  have sized := Willing.positive positive run
  cases ReadyTransfer.Runs.phase run with
  | running holding waiting one going cut answered steady =>
      obtain ⟨ft, there, state⟩ := ending
      cases there.symm.trans holding.pumps.transfer
      exact absurd state going
  | finished closed short waiting one cut answered =>
      exact ⟨_, closed, (cutBy_append sized.sizes cut short).length_le⟩
  | stopped gone transfer sent waiting one asked => exact absurd asked (Willing.unasked run)

end Sender

-----------------------------------------------------------------------------------------
-- The second instance is handed everything
-----------------------------------------------------------------------------------------

section Receiver

variable {env : Env} {x : ReadyTransfer} {y : AwaitedTransfer x} {s r : State}
  {blocks : List (List UInt8)} {datas : List (World × LmMessage)}

/-- By induction on the packets. -/
theorem WrittenInFull.writes (written : WrittenInFull env datas) {recipient sid : String}
    {seq : Nat} (all : datas.map Prod.snd = dataPackets env recipient sid seq blocks)
    : List.Forall₂ (fun delivery block => Writes delivery.1 block.length) datas blocks := by
  induction blocks generalizing datas seq with
  | nil =>
      have none : datas = [] := List.map_eq_nil_iff.mp all
      rw [none]
      exact .nil
  | cons block rest ih =>
      obtain ⟨delivery, later, rfl, first, all⟩ := List.map_eq_cons_iff.mp all
      apply List.Forall₂.cons
      · exact written delivery List.mem_cons_self _ _ _ _ first
      · exact ih (fun delivery member => written delivery (List.mem_cons_of_mem _ member)) all

/-- The transfer after all pieces and the hash. -/
def AwaitedTransfer.whole (y : AwaitedTransfer x) (env : Env) (pieces : List (List UInt8))
    : JingleFT :=
  { y.fed pieces with hash := some (env.md5 x.file) }

theorem AwaitedTransfer.whole_atRest (y : AwaitedTransfer x) (env : Env)
    (pieces : List (List UInt8))
    : (y.whole env pieces).AtRest := by
  unfold whole fed
  split
  · refine ⟨?_, by rw [JingleFT.waiting, y.closed]⟩
    rw [y.unsummed]
    exact GChecksum.noConfusion
  · exact ⟨GChecksum.noConfusion, rfl⟩

/-- The state after all pieces and the hash. -/
structure Announced (env : Env) (y : AwaitedTransfer x) (r : State)
    (pieces : List (List UInt8))
    : Prop where
  conveys : Conveys r y.q y.js y.sc y.d y.t
  transfer : r.infoList.get? y.d = some (y.whole env pieces)
  disk : r.disk = y.state.disk ++ y.stored pieces
  stopReports : r.stopReports = y.state.stopReports

/-- All packets and the hash arrive. -/
theorem AwaitedTransfer.announced (y : AwaitedTransfer x)
    (inverse : ∀ bytes, env.base64Decode (env.base64Encode bytes) = bytes)
    (all : datas.map Prod.snd = x.packets env blocks) (written : WrittenInFull env datas)
    (w : World)
    : ∃ r, deliver env x.js.fromJid
          (datas ++ [(w, hashIq x.js.toJid x.js.sid (some (env.md5 x.file)))]) y.state = .done () r
        ∧ Announced env y r blocks := by
  obtain ⟨r₁, delivered, fed⟩ :=
    y.fed_nil.packets blocks inverse x.js.fromJid all (written.writes all)
  obtain ⟨r₂, handled, hashed⟩ := fed.hash env w (some (env.md5 x.file))
  refine ⟨r₂, ?_, ?_⟩
  · rw [deliver_append, bind_done delivered, deliver, bind_done handled]
    rfl
  · exact {
      conveys := fed.conveys.congr hashed.sessions
      transfer := hashed.transfer
      disk := hashed.disk.trans fed.disk
      stopReports := hashed.stopReports.trans fed.stopReports
    }

theorem gAsciiStrncaseeq_self (str : String) (n : Nat) : gAsciiStrncaseeq str str n = true :=
  beq_self_eq_true _

/-- With at least one piece, the file is there and its hash is the announced one. -/
theorem Announced.arrives (announced : Announced env y r blocks) (filled : x.file ≠ [])
    (offered : x.ft.size = x.file.length) (bytes : blocks.flatten = x.file)
    (left : s.sessions.get? x.p = none) {r' : State}
    (ended : Ended env y r r' (y.whole env blocks))
    : Arrived x y s r' := by
  have fed : blocks ≠ [] := by
    intro none
    rw [none] at bytes
    exact filled bytes.symm
  have received : y.whole env blocks = { y.ft with
      md5 := .running x.file
      outfile := some (.writing [])
      state := .starting
      transmit := x.file.length
      hash := some (env.md5 x.file) } := by
    rw [AwaitedTransfer.whole, AwaitedTransfer.fed, if_neg fed, bytes]
  have enough : ¬(y.whole env blocks).transmit < (y.whole env blocks).size := by
    rw [received]
    change ¬x.file.length < y.ft.size
    rw [y.size, offered]
    exact Nat.lt_irrefl _
  exact {
    stored := by
      refine ⟨blocks, bytes, ?_⟩
      rw [ended.disk, announced.disk, AwaitedTransfer.stored, if_neg fed]
    transfer := by
      refine ⟨(y.whole env blocks).stopped, ended.transfer, ?_, ?_⟩
      · rw [received]
        rfl
      · exact if_neg enough
    report := by
      rw [ended.reports, announced.stopReports, JingleFT.report, if_neg enough, received]
      simp only [gAsciiStrncaseeq_self, if_true]
    left
    gone := ended.gone
  }

/-- Without a piece nothing is created. -/
theorem Announced.nothing (announced : Announced env y r []) {r' : State}
    (ended : Ended env y r r' (y.whole env []))
    : ¬Arrived x y s r' := by
  intro arrived
  obtain ⟨pieces, _, disk⟩ := arrived.stored
  rw [ended.disk, announced.disk] at disk
  have created := List.append_cancel_left disk
  cases created

/-- The deliveries are the packets, the hash and the end. -/
theorem deliveries_split {deliveries : List (World × LmMessage)} {packets : List LmMessage}
    {hash last : LmMessage} (all : deliveries.map Prod.snd = packets ++ [hash, last])
    : ∃ datas w₁ w₂, deliveries = datas ++ [(w₁, hash)] ++ [(w₂, last)]
        ∧ datas.map Prod.snd = packets := by
  obtain ⟨datas, ends, rfl, first, ending⟩ := List.map_eq_append_iff.mp all
  obtain ⟨one, more, rfl, announces, ending⟩ := List.map_eq_cons_iff.mp ending
  obtain ⟨two, rest, rfl, terminates, nothing⟩ := List.map_eq_cons_iff.mp ending
  have none : rest = [] := List.map_eq_nil_iff.mp nothing
  refine ⟨datas, one.1, two.1, ?_, first⟩
  rw [none, ← announces, ← terminates, List.append_assoc]
  rfl

/-- What a closed transfer sent, delivered to the second instance. -/
theorem Closed.arrives_iff (closed : Closed env x s blocks)
    (few : blocks.length ≤ blocks.flatten.length) (offered : x.ft.size = x.file.length)
    (inverse : ∀ bytes, env.base64Decode (env.base64Encode bytes) = bytes)
    (y : AwaitedTransfer x) {deliveries : List (World × LmMessage)}
    (sent : s.requests x.p = x.state.requests x.p ++ deliveries.map Prod.snd)
    (written : WrittenInFull env deliveries)
    : (∃ r, deliver env x.js.fromJid deliveries y.state = .done () r ∧ Arrived x y s r)
      ↔ x.file ≠ [] ∧ EndsSafely deliveries := by
  have all : deliveries.map Prod.snd = x.packets env blocks
      ++ [hashIq x.js.toJid x.js.sid (some (env.md5 x.file)),
        sessionTerminateIq x.js "success"] := by
    rw [closed.sent, List.append_assoc] at sent
    exact (List.append_cancel_left sent).symm
  obtain ⟨datas, w₁, w₂, rfl, packets⟩ := deliveries_split all
  have safe : EndsSafely (datas ++ [(w₁, hashIq x.js.toJid x.js.sid (some (env.md5 x.file)))]
      ++ [(w₂, sessionTerminateIq x.js "success")]) ↔ w₂.freedLink ≠ .traps := by
    simp [EndsSafely]
  have first : WrittenInFull env datas := fun delivery member =>
    written delivery (List.mem_append_left _ (List.mem_append_left _ member))
  obtain ⟨r, delivered, announced⟩ := y.announced inverse packets first w₁
  have alive := y.whole_atRest env blocks
  rw [safe, deliver_append, bind_done delivered]
  by_cases kept : w₂.freedLink = .traps
  · -- the walk over the contents reads a link of the freed one
    obtain ⟨error, r', stops⟩ :=
      AwaitedTransfer.ends_stops announced.conveys announced.transfer alive env kept
    refine ⟨fun arrives => ?_, fun holds => absurd kept holds.2⟩
    obtain ⟨r'', runs, _⟩ := arrives
    rw [deliver, bind_fault stops] at runs
    cases runs
  · obtain ⟨r', runs, ended⟩ :=
      AwaitedTransfer.ends announced.conveys announced.transfer alive env kept
    have through : deliver env x.js.fromJid [(w₂, sessionTerminateIq x.js "success")] r
        = .done () r' := by
      rw [deliver, bind_done runs]
      rfl
    refine ⟨fun arrives => ⟨fun none => ?_, kept⟩, fun holds => ?_⟩
    · obtain ⟨r'', runs', arrived⟩ := arrives
      cases through.symm.trans runs'
      have nothing : blocks = [] := by
        rw [closed.bytes, none] at few
        exact List.length_eq_zero_iff.mp (Nat.le_zero.mp few)
      subst nothing
      exact announced.nothing ended arrived
    · exact ⟨r', through, announced.arrives holds.1 offered closed.bytes closed.gone ended⟩

end Receiver

/-- A file that is sent to its end is at the other instance when the session is gone, if it has
any bytes.
-/
theorem file_arrives (env : Env) (x : ReadyTransfer) (positive : 0 < x.jibb.blocksize)
    (offered : x.ft.size = x.file.length)
    (inverse : ∀ bytes, env.base64Decode (env.base64Encode bytes) = bytes) {course : Course}
    (run : x.Runs env (Willing env x) course) (ending : course.Ending x.d)
    (y : AwaitedTransfer x) {deliveries : List (World × LmMessage)}
    (sent : course.state.requests x.p = x.state.requests x.p ++ deliveries.map Prod.snd)
    (written : WrittenInFull env deliveries)
    : (∃ r, deliver env x.js.fromJid deliveries y.state = .done () r
        ∧ Arrived x y course.state r)
      ↔ x.file ≠ [] ∧ EndsSafely deliveries := by
  obtain ⟨blocks, closed, few⟩ := Willing.closed positive run ending
  exact closed.arrives_iff few offered inverse y sent written

-----------------------------------------------------------------------------------------
-- Two instances
-----------------------------------------------------------------------------------------

/-- A second instance, just loaded, gets the first request for a session from the first one, and
its user accepts.
-/
def invitedBy (s : State) : Option State :=
  match s.requests 0 with
  | [] => none
  | iq :: _ =>
      match deliver fileEnv "me@here/mcabber" [(plainWorld, iq)] loaded with
      | .fault _ _ => none
      | .done () r => execute fileEnv (fun _ _ => True) r [(plainWorld, .event 0 .accept)]

/-- Whether the only session is an incoming one with one content, with these objects, and
nothing arrived.
-/
def awaitsAt (r : State) (sc : SessionContentRef) (d : FtPtr) (t : TransportPtr)
    (sid fromJid stream : String) (size : Nat)
    : Bool :=
  r.sessions.cells.length == 1
  && (r.sessions.get? sc.owner).any (fun js =>
    js.origin == .incoming && js.sid == sid && js.fromJid == fromJid
    && (sessionFindBySid r js.sid (some js.recipient)).any (fun cell => cell.1 == sc.owner)
    && js.content.length == 1
    && js.content.all (fun content =>
      content.appfuncs == some .fileTransfer && content.transfuncs == some .ibb
      && content.description == some d && content.transport == some t))
  && Ibb.lookup r stream == some t
  && (r.infoList.get? d).any (fun ft =>
    ft.dir == .incoming && ft.size == size && ft.transmit == 0 && ft.outfile.isNone
    && match ft.md5 with
      | .null => true
      | _ => false)

/-- Whether the second instance has the session of the first one, at the same places. -/
def awaitsFrom (s : State) (sc : SessionContentRef) (d : FtPtr) (t : TransportPtr) (size : Nat)
    (r : State)
    : Bool :=
  match s.sessions.get? sc.owner, s.infoList.get? d, s.transports.get? t with
  | some js, some ft, some (.ibb jibb) =>
      ft.size == size && awaitsAt r sc d t js.sid js.fromJid jibb.sid size
  | _, _, _ => false

theorem exists_awaitedTransfer (x : ReadyTransfer) {size : Nat} {r : State}
    (awaits : awaitsFrom x.state x.ref x.d x.t size r = true)
    : x.ft.size = size ∧ ∃ y : AwaitedTransfer x, y.state = r := by
  have listed : x.state.sessions.get? x.ref.owner = some x.js := x.conveys.listed
  rw [awaitsFrom, listed, x.transfer, x.stream] at awaits
  simp only [awaitsAt, Bool.and_eq_true, beq_iff_eq] at awaits
  obtain ⟨offered, ⟨⟨single, session⟩, stream⟩, transfer⟩ := awaits
  obtain ⟨js, listed', holds⟩ := (Option.any_eq_true _ _).mp session
  simp only [Bool.and_eq_true, beq_iff_eq] at holds
  obtain ⟨⟨⟨⟨⟨origin, sid⟩, sender⟩, address⟩, one⟩, all⟩ := holds
  obtain ⟨content, only⟩ := List.length_eq_one_iff.mp one
  have content_ok := List.all_eq_true.mp all content (by simp [only])
  simp only [Bool.and_eq_true, beq_iff_eq] at content_ok
  obtain ⟨⟨⟨appfuncs, transfuncs⟩, description⟩, transport⟩ := content_ok
  obtain ⟨ft, there, holds⟩ := (Option.any_eq_true _ _).mp transfer
  simp only [Bool.and_eq_true, beq_iff_eq, Option.isNone_iff_eq_none] at holds
  obtain ⟨⟨⟨⟨incoming, size_eq⟩, uncounted⟩, closed⟩, unsummed⟩ := holds
  obtain ⟨cell, cells⟩ := List.length_eq_one_iff.mp single
  have member := Pool.get?_eq_some_iff.mp listed'
  have here : cell = (x.ref.owner, js) := by
    rw [cells] at member
    exact (List.mem_singleton.mp member).symm
  subst here
  let y : AwaitedTransfer x := {
    state := r
    q := x.ref.owner
    js
    sc := content
    d := x.d
    t := x.t
    ft
    conveys := by
      refine ⟨listed', ?_, only, appfuncs, description, transfuncs, transport⟩
      obtain ⟨found, hit, same⟩ := (Option.any_eq_true _ _).mp address
      have member := List.mem_of_find?_eq_some hit
      rw [cells] at member
      rw [hit, List.mem_singleton.mp member]
    origin
    sid
    sender
    stream
    carrier := by
      rw [sessioncontentFindByTransport, cells, List.findSome?_cons, only]
      simp [transport]
    transfer := there
    incoming
    size := size_eq.trans offered.symm
    uncounted
    closed
    unsummed := by
      cases md5 : ft.md5 with
      | null => rfl
      | running seen => simp [md5] at unsummed
      | freed => simp [md5] at unsummed
  }
  exact ⟨offered, y, rfl⟩

/-- A world that writes the payload of a data packet in full. -/
def storingWorld (iq : LmMessage) : World :=
  { plainWorld with
    write := { plainWorld.write with
      written := (Base64.decode ((dataText iq).getD "")).length } }

/-- The IQs, each delivered with a world that writes its payload. -/
def stored (iqs : List LmMessage) : List (World × LmMessage) :=
  iqs.map (fun iq => (storingWorld iq, iq))

theorem stored_iqs (iqs : List LmMessage) : (stored iqs).map Prod.snd = iqs := by
  simp [stored, Function.comp_def]

theorem stored_written (iqs : List LmMessage) : WrittenInFull fileEnv (stored iqs) := by
  intro delivery member recipient block sid seq data
  obtain ⟨iq, _, rfl⟩ := List.mem_map.mp member
  have data : iq = ibbDataIq fileEnv recipient block sid seq := data
  subst data
  have text : dataText (ibbDataIq fileEnv recipient block sid seq) = some (Base64.encode block) :=
    rfl
  refine ⟨rfl, rfl, rfl, rfl, ?_⟩
  change (Base64.decode ((dataText _).getD "")).length = _
  rw [text, Option.getD_some, Base64.decode_encode]

theorem stored_endsSafely (iqs : List LmMessage) : EndsSafely (stored iqs) := by
  intro delivery last
  obtain ⟨iq, _, rfl⟩ := List.mem_map.mp (List.mem_of_mem_getLast? last)
  intro traps
  cases traps

/-- Four bytes arrive in two packets. -/
theorem file_arrives_fourBytes
    : ∃ (x : ReadyTransfer) (course : Course) (y : AwaitedTransfer x) (r : State),
        Reachable fileEnv x.state ∧ x.file = [1, 2, 3, 4] ∧ x.jibb.blocksize = 2
        ∧ course.Ending x.d ∧ Arrived x y course.state r := by
  have passed : (execute fileEnv (fun _ _ => True) loaded (acceptedOffer fourBytes)).any (fun s =>
      (conveysAt s { owner := 0, name := "file" } 1 0 && opensAt s 1 [1, 2, 3, 4] && freshAt s 0 2
        && (s.unanswered 0).isEmpty) && afterStart s replyResult finishes
      && (invitedBy s).any (awaitsFrom s { owner := 0, name := "file" } 1 0 4)) = true := by
    decide +kernel
  obtain ⟨s, run, both⟩ := execute_any _ (loaded_reached fileEnv _) passed
  obtain ⟨both, invites⟩ := (Bool.and_eq_true _ _).mp both
  obtain ⟨ready, short⟩ := (Bool.and_eq_true _ _).mp both
  obtain ⟨x, rfl, ref, description, transport, file, _, size⟩ := exists_readyTransfer ready
  obtain ⟨r, _, awaits⟩ := (Option.any_eq_true _ _).mp invites
  have awaits : awaitsFrom x.state x.ref x.d x.t 4 r = true := by
    rw [ref, description, transport]
    exact awaits
  obtain ⟨offered, y, _⟩ := exists_awaitedTransfer x awaits
  obtain ⟨s₁, s₂, starts, fits, step, finishes⟩ := afterStart_found short
  obtain ⟨course, next, begins, takes, unfinished, ending, _, _⟩ :=
    finishes_found ref description starts fits step finishes
  have positive : 0 < x.jibb.blocksize := by
    rw [size]
    exact Nat.two_pos
  have replied : Willing fileEnv x course (plainWorld, replyResult s₁) := trivial
  have willing : x.Runs fileEnv (Willing fileEnv x) next := .step (.start begins) replied takes
  obtain ⟨blocks, closed, _⟩ := Willing.closed positive willing ending
  have sent := closed.sent
  rw [List.append_assoc, ← stored_iqs (x.packets fileEnv blocks ++ _)] at sent
  have filled : x.file ≠ [] := by simp [file]
  obtain ⟨r', _, arrived⟩ := (file_arrives fileEnv x positive (offered.trans (by rw [file]; rfl))
    Base64.decode_encode willing ending y sent (stored_written _)).mpr
      ⟨filled, stored_endsSafely _⟩
  exact ⟨x, next, y, r', run, file, size, ending, arrived⟩

/-- An offer of a file without bytes that was accepted. -/
def acceptedEmptyOffer : List StepInput := [
  ({ offeringWorld [] with
      file := some { regular := true, mtime := 0, size := 0, opened := some [], encoded := true } },
    .jftSend (some "notes")),
  (plainWorld, .jingleIq (acceptSet "2"))
]

/-- Whether the transfer 1 of session 0 ends as soon as it starts. -/
def endsAtStart (s : State) : Bool :=
  match ftStart fileEnv plainWorld { owner := 0, name := "file" } s with
  | .fault _ _ => false
  | .done _ s₁ => (s₁.infoList.get? 1).any (fun ft => ft.state == .ending)

/-- A file without bytes is never created. -/
theorem empty_file_does_not_arrive
    : ¬∀ (env : Env) (x : ReadyTransfer), 0 < x.jibb.blocksize → x.ft.size = x.file.length →
        (∀ bytes, env.base64Decode (env.base64Encode bytes) = bytes) →
        ∀ course, x.Runs env (Willing env x) course → course.Ending x.d →
        ∀ (y : AwaitedTransfer x) (deliveries : List (World × LmMessage)),
          course.state.requests x.p = x.state.requests x.p ++ deliveries.map Prod.snd →
          WrittenInFull env deliveries → EndsSafely deliveries →
          ∃ r, deliver env x.js.fromJid deliveries y.state = .done () r
            ∧ Arrived x y course.state r := by
  intro claimed
  have passed : (execute fileEnv (fun _ _ => True) loaded acceptedEmptyOffer).any (fun s =>
      (conveysAt s { owner := 0, name := "file" } 1 0 && opensAt s 1 [] && freshAt s 0 2
        && (s.unanswered 0).isEmpty) && endsAtStart s
      && (invitedBy s).any (awaitsFrom s { owner := 0, name := "file" } 1 0 0)) = true := by
    decide +kernel
  obtain ⟨s, _, both⟩ := execute_any _ (loaded_reached fileEnv _) passed
  obtain ⟨both, invites⟩ := (Bool.and_eq_true _ _).mp both
  obtain ⟨ready, ends⟩ := (Bool.and_eq_true _ _).mp both
  obtain ⟨x, rfl, ref, description, transport, file, _, size⟩ := exists_readyTransfer ready
  obtain ⟨r, _, awaits⟩ := (Option.any_eq_true _ _).mp invites
  have awaits : awaitsFrom x.state x.ref x.d x.t 0 r = true := by
    rw [ref, description, transport]
    exact awaits
  obtain ⟨offered, y, _⟩ := exists_awaitedTransfer x awaits
  unfold endsAtStart at ends
  cases starts : ftStart fileEnv plainWorld { owner := 0, name := "file" } x.state with
  | fault error s₁ => simp [starts] at ends
  | done value s₁ =>
  simp only [starts] at ends
  let course : Course := ⟨s₁, [x.state.blockSize x.t], []⟩
  have begins : x.Starts fileEnv course := ⟨⟨plainWorld, ref ▸ starts⟩, rfl, rfl⟩
  have ending : course.Ending x.d := by
    obtain ⟨ft, there, state⟩ := (Option.any_eq_true _ _).mp ends
    exact ⟨ft, description ▸ there, eq_of_beq state⟩
  have positive : 0 < x.jibb.blocksize := by
    rw [size]
    exact Nat.two_pos
  have offered : x.ft.size = x.file.length := by rw [offered, file, List.length_nil]
  obtain ⟨blocks, closed, few⟩ := Willing.closed positive (.start begins) ending
  have sent := closed.sent
  rw [List.append_assoc, ← stored_iqs (x.packets fileEnv blocks ++ _)] at sent
  have arrives := claimed fileEnv x positive offered Base64.decode_encode course (.start begins)
    ending y _ sent (stored_written _) (stored_endsSafely _)
  obtain ⟨filled, _⟩ := (closed.arrives_iff few offered Base64.decode_encode y sent
    (stored_written _)).mp arrives
  exact filled file

end McabberJingle
