import McabberJingle.Program.Lists
import McabberJingle.System.Execution
import McabberJingle.Transfer.Receiver

/-! What reaches a file when packets of its stream get lost, repeated or reordered, compared
with a receiver that takes only the successor of the last packet it took.
-/

namespace McabberJingle

open Program Program.Prog

variable {env : Env} {sid : String} {d : FtPtr}

-----------------------------------------------------------------------------------------
-- Packets and the receiver that counts them
-----------------------------------------------------------------------------------------

/-- A data IQ with what the surroundings answer while it is handled. -/
abbrev Packet := World × LmMessage

/-- The main loop handling packets one after the other. -/
def receive (env : Env) : List Packet → Run Unit
  | [] => pure ()
  | (w, message) :: rest => do
      let _ ← jingleIbbHandleIq env w message
      receive env rest

/-- The payload of a packet of the stream. -/
def payload (env : Env) (sid : String) (message : LmMessage) : Option (List UInt8) :=
  (ibbData sid message).bind (fun dnode => dnode.value.map env.base64Decode)

/-- Whether the packet carries this sequence number. -/
def numbered (sid : String) (next : Nat) (message : LmMessage) : Bool :=
  (ibbData sid message).any (fun dnode =>
    (dnode.getAttribute "seq").any (fun seq => gAsciiStrtoll (some seq) == next))

/-- The payloads that a receiver takes that waits for the number `next`. -/
def acceptedPayloads (env : Env) (sid : String) : Nat → List Packet → List (World × List UInt8)
  | _, [] => []
  | next, (w, message) :: rest =>
      match payload env sid message with
      | none => acceptedPayloads env sid next rest
      | some data =>
          if numbered sid next message then
            (w, data) :: acceptedPayloads env sid (next + 1) rest
          else
            acceptedPayloads env sid next rest

/-- Hand payloads to the application, one after the other. -/
def handOver (d : FtPtr) : List (World × List UInt8) → Run Unit
  | [] => pure ()
  | (w, data) :: rest => do
      let _ ← FileTransfer.handleData w d data
      handOver d rest

/-- After every packet the transfer and the disk are as the counting receiver leaves them. -/
def DeliversInOrder (env : Env) (sid : String) (d : FtPtr) (s : State) (packets : List Packet)
    : Prop :=
  ∀ k, ∃ s' s₁, receive env (packets.take k) s = .done () s'
    ∧ handOver d (acceptedPayloads env sid 0 (packets.take k)) s = .done () s₁
    ∧ s'.infoList = s₁.infoList ∧ s'.disk = s₁.disk

/-- Every packet has a payload and the number `next` or its successors in turn. A packet out
of turn is harmless when its payload is empty, a packet came before it and the file could not
be opened so far.
-/
def InSequence (env : Env) (sid : String) : Nat → Bool → List Packet → Prop
  | _, _, [] => True
  | next, opened, (w, message) :: rest =>
      ∃ data ∈ payload env sid message,
        if numbered sid next message then
          InSequence env sid (next + 1) (opened || w.write.opened) rest
        else
          data = [] ∧ 0 < next ∧ opened = false ∧ w.write.opened = false
          ∧ InSequence env sid next opened rest

-----------------------------------------------------------------------------------------
-- The transfer under a list of payloads
-----------------------------------------------------------------------------------------

/-- The transfer and the disk operations after the payloads. -/
def feed (d : FtPtr) (ft : JingleFT) : List (World × List UInt8) → JingleFT × List DiskOp
  | [] => (ft, [])
  | (w, data) :: rest =>
      let first := received w d data ft
      ((feed d first.ft rest).1, first.ops ++ (feed d first.ft rest).2)

/-- A transfer that has taken `count` payloads, with its file open or not. -/
structure HasTaken (count : Nat) (opened : Bool) (ft : JingleFT) : Prop where
  incoming : ft.dir = .incoming
  first : count = 0 → ft.md5 = .null
  later : 0 < count → ∃ seen, ft.md5 = .running seen
  file : ft.outfile.isSome = opened

theorem HasTaken.alive {count : Nat} {opened : Bool} {ft : JingleFT}
    (taken : HasTaken count opened ft)
    : ft.md5 ≠ .freed := by
  cases count with
  | zero => simp [taken.first rfl]
  | succ count =>
      obtain ⟨seen, running⟩ := taken.later (Nat.succ_pos count)
      simp [running]

theorem received_taken {count : Nat} {opened : Bool} {ft : JingleFT}
    (taken : HasTaken count opened ft) (w : World) (d : FtPtr) (data : List UInt8)
    : HasTaken (count + 1) (opened || w.write.opened) (received w d data ft).ft where
  incoming := by rw [received_dir, taken.incoming]
  first := by simp
  later _ := ⟨_, received_md5 w d data ft⟩
  file := by rw [received_outfile, taken.file]

/-- When taking a payload leaves no trace. -/
theorem received_traceless_iff {count : Nat} {opened : Bool} {ft : JingleFT}
    (taken : HasTaken count opened ft) (w : World) (d : FtPtr) (data : List UInt8)
    : ((received w d data ft).ft = ft ∧ (received w d data ft).ops = [])
      ↔ data = [] ∧ 0 < count ∧ opened = false ∧ w.write.opened = false := by
  rw [received_ops_eq_nil_iff, taken.file]
  constructor
  · intro traceless
    obtain ⟨same, closed, unopened⟩ := traceless
    have md5 := received_md5 w d data ft
    rw [same] at md5
    cases count with
    | zero =>
        rw [taken.first rfl] at md5
        cases md5
    | succ count =>
        obtain ⟨seen, running⟩ := taken.later (Nat.succ_pos count)
        rw [running, GChecksum.seen] at md5
        have nothing : data = [] := by simpa using md5
        exact ⟨nothing, Nat.succ_pos count, closed, unopened⟩
  · intro harmless
    obtain ⟨rfl, positive, closed, unopened⟩ := harmless
    obtain ⟨seen, running⟩ := taken.later positive
    rw [received_closed w d [] ft (taken.file.trans closed) unopened]
    refine ⟨?_, closed, unopened⟩
    rw [List.append_nil, running, GChecksum.seen, ← running]

/-- The application takes all payloads. -/
theorem handOver_done {s : State} {count : Nat} {opened : Bool} {ft : JingleFT}
    (there : s.infoList.get? d = some ft) (taken : HasTaken count opened ft)
    (payloads : List (World × List UInt8))
    : handOver d payloads s
      = .done () (s.storing d (feed d ft payloads).1 (feed d ft payloads).2) := by
  induction payloads generalizing s count opened ft with
  | nil =>
      have same : s.storing d ft [] = s := by
        simp only [State.storing, List.append_nil]
        rw [Pool.modify_of_same]
        intro value found
        rw [there] at found
        exact Option.some.inj found
      rw [feed, same]
      rfl
  | cons first rest ih =>
      obtain ⟨w, data⟩ := first
      have next := received_taken taken w d data
      have there' := State.storing_get? there (received w d data ft).ft (received w d data ft).ops
      rw [handOver, bind_done (handleData_done w there taken.incoming taken.alive data),
        ih there' next, State.storing_storing]
      rfl

-----------------------------------------------------------------------------------------
-- The handler under a list of packets
-----------------------------------------------------------------------------------------

/-- The payloads of all packets that have one. -/
def payloads (env : Env) (sid : String) (packets : List Packet) : List (World × List UInt8) :=
  packets.filterMap (fun packet => (payload env sid packet.2).map (packet.1, ·))

/-- A packet leaves the stream in place, with the transfer it changed. -/
theorem Streams.stored {s : State} {ft : JingleFT} (streams : Streams s sid d ft)
    (message answer : LmMessage) {ft' : JingleFT} (incoming : ft'.dir = .incoming)
    (alive : ft'.md5 ≠ .freed) (ops : List DiskOp)
    : Streams ((s.replied message answer).storing d ft' ops) sid d ft' where
  content := streams.content
  there := State.storing_get? streams.there ft' ops
  incoming := incoming
  alive := alive

/-- By induction on the packets: they all reach the transfer, unless one has no payload. -/
theorem receive_runs (env : Env) {s : State} {count : Nat} {opened : Bool} {ft : JingleFT}
    (streams : Streams s sid d ft) (taken : HasTaken count opened ft) (packets : List Packet)
    (addressed : ∀ packet ∈ packets, (ibbData sid packet.2).isSome = true)
    : ((∀ packet ∈ packets, (payload env sid packet.2).isSome = true) →
        ∃ s', receive env packets s = .done () s'
          ∧ s'.infoList = s.infoList.modify d (fun _ => (feed d ft (payloads env sid packets)).1)
          ∧ s'.disk = s.disk ++ (feed d ft (payloads env sid packets)).2)
      ∧ (∀ s', receive env packets s = .done () s' →
        ∀ packet ∈ packets, (payload env sid packet.2).isSome = true) := by
  induction packets generalizing s count opened ft with
  | nil =>
      refine ⟨fun _ => ⟨s, rfl, ?_, (List.append_nil _).symm⟩, fun _ _ packet member => ?_⟩
      · refine (Pool.modify_of_same (fun value found => ?_)).symm
        exact Option.some.inj (streams.there.symm.trans found)
      · cases member
  | cons packet rest ih =>
      obtain ⟨w, message⟩ := packet
      have addressedRest : ∀ packet ∈ rest, (ibbData sid packet.2).isSome = true :=
        fun packet member => addressed packet (List.mem_cons_of_mem _ member)
      obtain ⟨dnode, data⟩ := Option.isSome_iff_exists.mp (addressed _ List.mem_cons_self)
      cases carried : dnode.value with
      | none =>
          have missing : payload env sid message = none := by
            simp [payload, data, carried]
          refine ⟨fun all => ?_, fun s' runs => ?_⟩
          · have some := all _ List.mem_cons_self
            rw [missing] at some
            cases some
          · obtain ⟨s₁, stops⟩ := jingleIbbHandleIq_empty env w streams data carried
            cases (bind_fault stops).symm.trans runs
      | some text =>
          let bytes := env.base64Decode text
          have known : payload env sid message = some bytes := by
            simp [payload, data, carried, bytes]
          have head : payloads env sid ((w, message) :: rest)
              = (w, bytes) :: payloads env sid rest := by
            simp [payloads, known]
          have first := jingleIbbHandleIq_hands env w streams data carried
          have next := received_taken taken w d bytes
          have streams' := streams.stored message (message.newIqFromQuery .result) next.incoming
            next.alive (received w d bytes ft).ops
          obtain ⟨goes, back⟩ := ih streams' next addressedRest
          rw [receive, bind_done first, head]
          refine ⟨fun all => ?_, fun s' runs packet member => ?_⟩
          · obtain ⟨s', runs, list, disk⟩ := goes (fun packet member =>
              all packet (List.mem_cons_of_mem _ member))
            refine ⟨s', runs, ?_, ?_⟩
            · rw [list]
              simp only [State.storing, State.replied, Pool.modify_modify, feed]
            · rw [disk]
              simp only [State.storing, State.replied, List.append_assoc, feed]
          · rcases List.mem_cons.mp member with rfl | later
            · simp [known]
            · exact back s' runs packet later

/-- All packets have their payloads, and feeding these is feeding what the counting receiver
takes.
-/
def Agrees (env : Env) (sid : String) (d : FtPtr) (next : Nat) (ft : JingleFT)
    (packets : List Packet)
    : Prop :=
  (∀ packet ∈ packets, (payload env sid packet.2).isSome = true)
  ∧ feed d ft (payloads env sid packets) = feed d ft (acceptedPayloads env sid next packets)

/-- Both receivers run, so their results are the results of feeding. -/
theorem deliversInOrder_iff {s : State} {ft : JingleFT} (streams : Streams s sid d ft)
    (taken : HasTaken 0 false ft) (packets : List Packet)
    (addressed : ∀ packet ∈ packets, (ibbData sid packet.2).isSome = true)
    : DeliversInOrder env sid d s packets ↔ ∀ k, Agrees env sid d 0 ft (packets.take k) := by
  refine forall_congr' (fun k => ?_)
  have addressed' : ∀ packet ∈ packets.take k, (ibbData sid packet.2).isSome = true :=
    fun packet member => addressed packet (List.mem_of_mem_take member)
  obtain ⟨goes, back⟩ := receive_runs env streams taken (packets.take k) addressed'
  have reference := handOver_done streams.there taken (acceptedPayloads env sid 0 (packets.take k))
  constructor
  · intro delivers
    obtain ⟨s', s₁, runs, refers, list, disk⟩ := delivers
    have all := back s' runs
    obtain ⟨s'', runs', list', disk'⟩ := goes all
    cases runs.symm.trans runs'
    cases reference.symm.trans refers
    refine ⟨all, Prod.ext ?_ ?_⟩
    · have same := congrArg (fun list => list.get? d) (list'.symm.trans list)
      simpa [State.storing, streams.there] using same
    · exact List.append_cancel_left (disk'.symm.trans disk)
  · intro agrees
    obtain ⟨all, same⟩ := agrees
    obtain ⟨s', runs, list, disk⟩ := goes all
    refine ⟨s', _, runs, reference, ?_, ?_⟩
    · rw [list, same]
      rfl
    · rw [disk, same]
      rfl

theorem agrees_nil (next : Nat) (ft : JingleFT) : Agrees env sid d next ft [] :=
  ⟨fun _ member => (by cases member), rfl⟩

section Head

variable {w : World} {message : LmMessage} {data : List UInt8} {next : Nat} {ft : JingleFT}

theorem payloads_cons (known : payload env sid message = some data) (rest : List Packet)
    : payloads env sid ((w, message) :: rest) = (w, data) :: payloads env sid rest := by
  simp [payloads, known]

/-- A packet in turn goes to both receivers. -/
theorem agrees_inTurn (known : payload env sid message = some data)
    (inTurn : numbered sid next message = true) (rest : List Packet)
    : Agrees env sid d next ft ((w, message) :: rest)
      ↔ Agrees env sid d (next + 1) (received w d data ft).ft rest := by
  have taken : acceptedPayloads env sid next ((w, message) :: rest)
      = (w, data) :: acceptedPayloads env sid (next + 1) rest := by
    simp [acceptedPayloads, known, inTurn]
  have cancel (left right : JingleFT × List DiskOp) (ops : List DiskOp)
      : (left.1, ops ++ left.2) = (right.1, ops ++ right.2) ↔ left = right := by
    simp [Prod.ext_iff]
  simp only [Agrees, payloads_cons known, taken, feed, cancel, List.forall_mem_cons, known,
    Option.isSome_some, true_and]

/-- A packet out of turn goes to the transfer only. -/
theorem agrees_outOfTurn (known : payload env sid message = some data)
    (outOfTurn : numbered sid next message = false) (rest : List Packet)
    : Agrees env sid d next ft ((w, message) :: rest)
      ↔ (∀ packet ∈ rest, (payload env sid packet.2).isSome = true)
        ∧ feed d ft ((w, data) :: payloads env sid rest)
          = feed d ft (acceptedPayloads env sid next rest) := by
  have skipped : acceptedPayloads env sid next ((w, message) :: rest)
      = acceptedPayloads env sid next rest := by
    simp [acceptedPayloads, known, outOfTurn]
  simp only [Agrees, payloads_cons known, skipped, List.forall_mem_cons, known,
    Option.isSome_some, true_and]

end Head

/-- By induction on the packets: a packet out of turn must leave no trace. -/
theorem agrees_iff_inSequence {next : Nat} {opened : Bool} {ft : JingleFT}
    (taken : HasTaken next opened ft) (packets : List Packet)
    : (∀ k, Agrees env sid d next ft (packets.take k))
      ↔ InSequence env sid next opened packets := by
  induction packets generalizing next opened ft with
  | nil =>
      refine ⟨fun _ => trivial, fun _ k => ?_⟩
      rw [List.take_nil]
      exact agrees_nil next ft
  | cons packet rest ih =>
      obtain ⟨w, message⟩ := packet
      rw [forall_take_cons, InSequence]
      simp only [agrees_nil, true_and]
      cases known : payload env sid message with
      | none =>
          constructor
          · intro all
            have some := (all 0).1 _ List.mem_cons_self
            rw [known] at some
            cases some
          · intro some
            obtain ⟨data, given, _⟩ := some
            cases given
      | some data =>
      simp only [Option.mem_some_iff, exists_eq_left']
      cases inTurn : numbered sid next message with
      | true =>
          have next := received_taken taken w d data
          simp only [agrees_inTurn known inTurn, if_true, ih next]
      | false =>
          simp only [agrees_outOfTurn known inTurn, if_false, Bool.false_eq_true]
          have traceless := received_traceless_iff taken w d data
          constructor
          · intro all
            have alone : feed d ft [(w, data)] = feed d ft [] := (all 0).2
            have nothing : (received w d data ft).ft = ft ∧ (received w d data ft).ops = [] := by
              simpa [feed] using alone
            obtain ⟨empty, positive, closed, unopened⟩ := traceless.mp nothing
            refine ⟨empty, positive, closed, unopened, (ih taken).mp (fun k => ?_)⟩
            obtain ⟨present, same⟩ := all k
            refine ⟨present, ?_⟩
            simpa only [feed, nothing, List.nil_append] using same
          · intro harmless k
            obtain ⟨empty, positive, closed, unopened, sequence⟩ := harmless
            have nothing := traceless.mpr ⟨empty, positive, closed, unopened⟩
            obtain ⟨present, same⟩ := (ih taken).mpr sequence k
            refine ⟨present, ?_⟩
            simpa only [feed, nothing, List.nil_append] using same

/-- The stream of a content that no data has arrived for yet. -/
def NewStream (s : State) (sid : String) (d : FtPtr) : Prop :=
  ∃ ft, Streams s sid d ft ∧ ft.md5 = .null ∧ ft.outfile = none

/-- The application gets what a receiver would take that counts the packets, if and only if
the packets arrive in sequence.
-/
theorem data_delivered_in_order (env : Env) (sid : String) (d : FtPtr) (s : State)
    (live : NewStream s sid d) (packets : List Packet)
    (addressed : ∀ packet ∈ packets, (ibbData sid packet.2).isSome = true)
    : DeliversInOrder env sid d s packets ↔ InSequence env sid 0 false packets := by
  obtain ⟨ft, streams, fresh, closed⟩ := live
  have taken : HasTaken 0 false ft := by
    refine ⟨streams.incoming, fun _ => fresh, fun positive => ?_, by rw [closed]; rfl⟩
    exact absurd positive (Nat.lt_irrefl 0)
  rw [deliversInOrder_iff streams taken packets addressed, agrees_iff_inSequence taken]

/-- Whether no data has arrived for the stream yet. -/
def isNewStream (s : State) (sid : String) (d : FtPtr) : Bool :=
  ((Ibb.lookup s sid).bind (sessioncontentFindByTransport s)).any (fun sc =>
    sc.appfuncs.isSome && sc.description == some d)
  && (s.infoList.get? d).any (fun ft =>
    ft.dir == .incoming && ft.outfile.isNone
      && match ft.md5 with
        | .null => true
        | _ => false)

theorem newStream_of_isNewStream {s : State} (new : isNewStream s sid d = true)
    : NewStream s sid d := by
  simp only [isNewStream, Bool.and_eq_true, Option.any_eq_true, Option.bind_eq_some_iff,
    beq_iff_eq, Option.isNone_iff_eq_none] at new
  obtain ⟨⟨sc, ⟨t, stream, found⟩, app, description⟩, ft, there, ⟨incoming, closed⟩, fresh⟩ := new
  have fresh : ft.md5 = .null := by
    split at fresh
    · assumption
    · cases fresh
  have content : Streams s sid d ft :=
    ⟨⟨t, sc, stream, found, app, description⟩, there, incoming, by simp [fresh]⟩
  exact ⟨ft, content, fresh, closed⟩

/-- Surroundings in which every payload is one byte, and writes succeed. -/
def byteEnv : Env := { plainEnv with base64Decode := fun _ => [0] }

def writingWorld : World :=
  { plainWorld with
    write :=
      { opened := true, encoded := true, status := true, written := 1, flushed := true,
        reached := 0 } }

/-- A packet for the stream b1. -/
def dataPacket (seq : String) : Packet := (writingWorld, dataSet "b1" seq)

/-- A file offered to us over the stream b1. -/
def streamOffered : List StepInput :=
  [(plainWorld, .jingleIq (jingleSet "romeo@verona/a" "session-initiate" "s1"
    [offeredContent "file" "b1"]))]

theorem data_delivered_in_order_threePackets
    : ∃ s, Reachable byteEnv s
        ∧ DeliversInOrder byteEnv "b1" 1 s [dataPacket "0", dataPacket "1", dataPacket "2"] := by
  have passed : (execute byteEnv (fun _ _ => True) loaded streamOffered).any
      (fun s => isNewStream s "b1" 1) = true := by decide +kernel
  obtain ⟨s, run, new⟩ := execute_any _ (loaded_reached byteEnv _) passed
  refine ⟨s, run, (data_delivered_in_order byteEnv "b1" 1 s (newStream_of_isNewStream new) _ ?_).mpr
    ?_⟩
  · decide
  · exact ⟨[0], rfl, [0], rfl, [0], rfl, trivial⟩

/-- A packet numbered 5 is written although nothing came before it. -/
theorem out_of_turn_data_is_written
    : ¬∀ env sid d s, Reachable env s → NewStream s sid d → ∀ packets : List Packet,
        (∀ packet ∈ packets, (ibbData sid packet.2).isSome = true) →
        DeliversInOrder env sid d s packets := by
  intro claimed
  have passed : (execute byteEnv (fun _ _ => True) loaded streamOffered).any
      (fun s => isNewStream s "b1" 1
        && (receive byteEnv [dataPacket "5"] s).state.disk.length != s.disk.length) = true := by
    decide +kernel
  obtain ⟨s, run, both⟩ := execute_any _ (loaded_reached byteEnv _) passed
  obtain ⟨new, written⟩ := (Bool.and_eq_true _ _).mp both
  obtain ⟨s', s₁, runs, refers, _, disk⟩ := claimed byteEnv "b1" 1 s run
    (newStream_of_isNewStream new) [dataPacket "5"] (by decide) 1
  have nothing : acceptedPayloads byteEnv "b1" 0 [dataPacket "5"] = [] := by decide
  rw [List.take_succ_cons, List.take_zero] at runs refers
  rw [nothing] at refers
  cases refers
  rw [runs, Outcome.state, disk] at written
  simp at written

end McabberJingle
