import McabberJingle.Jingle.Dispatch

/-! The receiving side of a transfer as a function of its `JingleFT`: what one data packet
does to the transfer and to the disk.
-/

namespace McabberJingle

open Program Program.Prog

-----------------------------------------------------------------------------------------
-- One call of handle_data
-----------------------------------------------------------------------------------------

/-- The checksum of an incoming transfer: the bytes fed so far, and none at first. -/
def GChecksum.seen : GChecksum → List UInt8
  | .running seen => seen
  | _ => []

/-- What `handle_data` returns, the transfer it leaves and what it does on disk. -/
structure Received where
  ok : Bool
  ft : JingleFT
  ops : List DiskOp

/-- The write and the flush. -/
def receivedWrite (w : World) (d : FtPtr) (data : List UInt8) (ft : JingleFT) : Received :=
  let waiting := ft.waiting ++ data.take w.write.written
  let ok := w.write.status && w.write.flushed && w.write.written == data.length
  { ok
    ft := { ft with
      state := .starting
      outfile := some (.writing (waiting.drop (FileTransfer.reaching w waiting)))
      transmit := if ok then ft.transmit + data.length else ft.transmit }
    ops := [.wrote d (waiting.take (FileTransfer.reaching w waiting))] }

/-- `handle_data` of an incoming transfer. -/
def received (w : World) (d : FtPtr) (data : List UInt8) (ft : JingleFT) : Received :=
  let ft := { ft with md5 := .running (ft.md5.seen ++ data) }
  if ft.outfile.isSome then
    receivedWrite w d data ft
  else if w.write.opened then
    let ft := { ft with outfile := some (.writing []), state := .starting }
    let rest :=
      if w.write.encoded then receivedWrite w d data ft else { ok := false, ft, ops := [] }
    { rest with ops := .created d ft.name :: rest.ops }
  else
    { ok := false, ft, ops := [] }

section Received

variable (w : World) (d : FtPtr) (data : List UInt8) (ft : JingleFT)

@[simp]
theorem received_dir : (received w d data ft).ft.dir = ft.dir := by
  unfold received receivedWrite
  grind

@[simp]
theorem received_md5 : (received w d data ft).ft.md5 = .running (ft.md5.seen ++ data) := by
  unfold received receivedWrite
  grind

@[simp]
theorem received_outfile
    : (received w d data ft).ft.outfile.isSome = (ft.outfile.isSome || w.write.opened) := by
  unfold received receivedWrite
  cases ft.outfile with
  | none => cases w.write.opened <;> cases w.write.encoded <;> rfl
  | some channel => rfl

/-- A file that is not open and cannot be opened is the only one left alone. -/
theorem received_ops_eq_nil_iff
    : (received w d data ft).ops = []
      ↔ ft.outfile.isSome = false ∧ w.write.opened = false := by
  unfold received receivedWrite
  cases ft.outfile with
  | none => cases w.write.opened <;> simp
  | some channel => simp

/-- Without a file only the checksum takes the bytes. -/
theorem received_closed (closed : ft.outfile.isSome = false) (unopened : w.write.opened = false)
    : received w d data ft
      = { ok := false, ft := { ft with md5 := .running (ft.md5.seen ++ data) }, ops := [] } := by
  unfold received
  rw [if_neg (by simp [closed]), if_neg (by simp [unopened])]

end Received

/-- The state after the transfer changed and the disk was written to. -/
def State.storing (s : State) (d : FtPtr) (ft : JingleFT) (ops : List DiskOp) : State :=
  { s with infoList := s.infoList.modify d (fun _ => ft), disk := s.disk ++ ops }

theorem State.storing_storing (s : State) (d : FtPtr) (ft ft' : JingleFT) (ops ops' : List DiskOp)
    : (s.storing d ft ops).storing d ft' ops' = s.storing d ft' (ops ++ ops') := by
  simp only [State.storing, Pool.modify_modify, List.append_assoc]

theorem State.storing_get? {s : State} {d : FtPtr} {old : JingleFT}
    (there : s.infoList.get? d = some old) (ft : JingleFT) (ops : List DiskOp)
    : (s.storing d ft ops).infoList.get? d = some ft := by
  simp [State.storing, there]

/-- Storing what is there and writing nothing changes nothing. -/
theorem State.storing_same {s : State} {d : FtPtr} {ft : JingleFT}
    (there : s.infoList.get? d = some ft)
    : s.storing d ft [] = s := by
  have same : s.infoList.modify d (fun _ => ft) = s.infoList := by
    refine Pool.modify_of_same (fun value found => ?_)
    exact Option.some.inj (there.symm.trans found)
  rw [State.storing, same, List.append_nil]

/-- A change of one field, written as storing the transfer with that change. -/
theorem modifyFt_done {s : State} {d : FtPtr} {ft : JingleFT}
    (there : s.infoList.get? d = some ft) (f : JingleFT → JingleFT)
    : modifyFt d f s = .done () (s.storing d (f ft) []) := by
  have same : s.infoList.modify d f = s.infoList.modify d (fun _ => f ft) := by
    refine Pool.modify_congr (fun value found => ?_)
    rw [there] at found
    cases found
    rfl
  simp only [modifyFt, State.storing, ← same, List.append_nil]
  rfl

theorem diskOp_done {s : State} {d : FtPtr} {ft : JingleFT}
    (there : s.infoList.get? d = some ft) (op : DiskOp)
    : FileTransfer.diskOp op s = .done () (s.storing d ft [op]) := by
  have same : s.infoList.modify d (fun _ => ft) = s.infoList := by
    refine Pool.modify_of_same (fun value found => ?_)
    rw [there] at found
    cases found
    rfl
  simp only [FileTransfer.diskOp, State.storing, same]
  rfl

/-- A transfer whose channel was shut down. -/
def JingleFT.shutDown (ft : JingleFT) : JingleFT :=
  { ft with outfile := if ft.waiting = [] then ft.outfile else some (.writing []) }

/-- What the shutdown of a transfer's channel does on disk. -/
def shutdownOps (w : World) (d : FtPtr) (ft : JingleFT) : List DiskOp :=
  match ft.waiting with
  | [] => []
  | byte :: rest => [.wrote d ((byte :: rest).take (w.shutdown d))]

/-- The state that `stop` gives a transfer. -/
def JingleFT.stopped (ft : JingleFT) : JingleFT :=
  { ft with state := if ft.transmit < ft.size then .error else .ending }

theorem shutdown_done {s : State} (w : World) {d : FtPtr} {ft : JingleFT}
    (there : s.infoList.get? d = some ft)
    : FileTransfer.shutdown w d ft s
      = .done () (s.storing d ft.shutDown (shutdownOps w d ft)) := by
  unfold FileTransfer.shutdown JingleFT.shutDown shutdownOps
  cases ft.waiting with
  | nil =>
      rw [if_pos rfl]
      exact congrArg _ (State.storing_same there).symm
  | cons byte rest =>
      let closed := { ft with outfile := some (.writing []) }
      have there₁ := State.storing_get? there closed []
      dsimp only
      rw [bind_done (modifyFt_done there _), diskOp_done there₁, State.storing_storing,
        if_neg (List.cons_ne_nil byte rest)]
      rfl

theorem writeData_done {s : State} (w : World) {d : FtPtr} {ft : JingleFT}
    (there : s.infoList.get? d = some ft) (data : List UInt8)
    : FileTransfer.writeData w d data s
      = .done (receivedWrite w d data ft).ok
          (s.storing d (receivedWrite w d data ft).ft (receivedWrite w d data ft).ops) := by
  let waiting := ft.waiting ++ data.take w.write.written
  let starting := { ft with state := .starting }
  let taken := { starting with
    outfile := some (.writing (waiting.drop (FileTransfer.reaching w waiting))) }
  let op : DiskOp := .wrote d (waiting.take (FileTransfer.reaching w waiting))
  have there₁ := State.storing_get? there starting []
  have there₂ := State.storing_get? there₁ taken []
  have there₃ := State.storing_get? there₂ taken [op]
  rw [FileTransfer.writeData, bind_done (modifyFt_done there _), bind_done (readFt_done there₁)]
  refine (bind_done (modifyFt_done there₁ _)).trans ?_
  refine (bind_done (diskOp_done there₂ op)).trans ?_
  cases ok : w.write.status && w.write.flushed && w.write.written == data.length with
  | true =>
      rw [if_pos rfl, bind_done (modifyFt_done there₃ _)]
      simp [receivedWrite, ok, State.storing_storing, starting, taken, waiting, op]
      rfl
  | false =>
      rw [if_neg (by decide)]
      simp [receivedWrite, ok, State.storing_storing, starting, taken, waiting, op]
      rfl

/-- By the order of the source: the checksum first, then the file, then the write. -/
theorem handleData_done {s : State} (w : World) {d : FtPtr} {ft : JingleFT}
    (there : s.infoList.get? d = some ft) (incoming : ft.dir = .incoming)
    (alive : ft.md5 ≠ .freed) (data : List UInt8)
    : FileTransfer.handleData w d data s
      = .done (received w d data ft).ok
          (s.storing d (received w d data ft).ft (received w d data ft).ops) := by
  let summed := { ft with md5 := .running (ft.md5.seen ++ data) }
  have there₁ := State.storing_get? there summed []
  rw [FileTransfer.handleData, bind_done (readFt_done there), if_neg (not_not.mpr incoming)]
  refine (bind_done (?fed : _ = Outcome.done (.running (ft.md5.seen ++ data)) s)).trans ?_
  case fed =>
    cases md5 : ft.md5 with
    | null => rfl
    | running seen => rfl
    | freed => exact absurd md5 alive
  rw [bind_done (modifyFt_done there _)]
  generalize first : s.storing d _ [] = s₁
  change s.storing d summed [] = s₁ at first
  rw [first] at there₁
  cases outfile : ft.outfile with
  | some channel =>
      dsimp only
      rw [writeData_done w there₁ data, ← first, State.storing_storing]
      simp [received, outfile, summed]
  | none =>
  dsimp only
  cases opened : w.write.opened with
  | false =>
      rw [if_neg (by decide), ← first]
      simp [received, outfile, opened, summed]
      rfl
  | true =>
  let created := { summed with outfile := some (.writing []), state := .starting }
  let op : DiskOp := .created d ft.name
  have there₂ := State.storing_get? there₁ created []
  have there₃ := State.storing_get? there₂ created [op]
  rw [if_pos rfl, bind_done (modifyFt_done there₁ _), bind_done (diskOp_done there₂ op)]
  cases encoded : w.write.encoded with
  | false =>
      rw [if_neg (by decide)]
      simp only [← first, State.storing_storing]
      simp [received, outfile, opened, encoded, summed, created, op]
      rfl
  | true =>
      rw [if_pos rfl, writeData_done w there₃ data]
      simp only [← first, State.storing_storing]
      simp [received, outfile, opened, encoded, summed, created, op]

/-- What a call that came to its end did. -/
theorem FileTransfer.handleData_ends {s s' : State} {w : World} {d : FtPtr} {data : List UInt8}
    {taken : Bool} (handled : FileTransfer.handleData w d data s = .done taken s')
    : ∃ ft, s.infoList.get? d = some ft
        ∧ (ft.dir = .outgoing ∧ s' = s
          ∨ ft.dir = .incoming
            ∧ s' = s.storing d (received w d data ft).ft (received w d data ft).ops) := by
  cases there : s.infoList.get? d with
  | none =>
      rw [handleData, bind_fault (readFt_fault there)] at handled
      cases handled
  | some ft =>
  refine ⟨ft, rfl, ?_⟩
  cases direction : ft.dir with
  | outgoing =>
      rw [handleData, bind_done (readFt_done there), if_pos (by simp [direction])] at handled
      cases handled
      exact Or.inl ⟨rfl, rfl⟩
  | incoming =>
      by_cases alive : ft.md5 = .freed
      · rw [handleData, bind_done (readFt_done there), if_neg (by simp [direction]), alive]
          at handled
        cases handled
      rw [handleData_done w there direction alive data] at handled
      cases handled
      exact Or.inr ⟨rfl, rfl⟩

-----------------------------------------------------------------------------------------
-- One data packet
-----------------------------------------------------------------------------------------

/-- The `<data/>` element of an IBB packet for the stream `sid`. -/
def ibbData (sid : String) (message : LmMessage) : Option LmMessageNode :=
  if message.subType = .set then
    (message.node.getChild "data").filter (fun dnode =>
      dnode.getAttribute "xmlns" == some NS_TRANSPORT_IBB
        && dnode.getAttribute "sid" == some sid)
  else
    none

theorem ibbData_eq_some {sid : String} {message : LmMessage} {dnode : LmMessageNode}
    : ibbData sid message = some dnode
      ↔ message.subType = .set ∧ message.node.getChild "data" = some dnode
        ∧ dnode.getAttribute "xmlns" = some NS_TRANSPORT_IBB
        ∧ dnode.getAttribute "sid" = some sid := by
  unfold ibbData
  by_cases isSet : message.subType = .set
  · simp [isSet, Option.filter_eq_some_iff]
  · simp [isSet]

/-- A stream of the table whose content has an incoming transfer. -/
structure Streams (s : State) (sid : String) (d : FtPtr) (ft : JingleFT) : Prop where
  content : ∃ t sc, Ibb.lookup s sid = some t ∧ sessioncontentFindByTransport s t = some sc
    ∧ sc.appfuncs.isSome = true ∧ sc.description = some d
  there : s.infoList.get? d = some ft
  incoming : ft.dir = .incoming
  alive : ft.md5 ≠ .freed

theorem jingleIbbHandleIq_stream {env : Env} {w : World} {s : State} {sid : String}
    {message : LmMessage} {dnode : LmMessageNode} {t : TransportPtr}
    (data : ibbData sid message = some dnode) (stream : Ibb.lookup s sid = some t)
    : jingleIbbHandleIq env w message s
      = (do
          handleTransData w t (dnode.value.map env.base64Decode)
          pure LmHandlerResult.removeMessage : Run LmHandlerResult)
          (s.replied message (message.newIqFromQuery .result)) := by
  obtain ⟨isSet, child, ours, sidKnown⟩ := ibbData_eq_some.mp data
  rw [jingleIbbHandleIq, if_neg (not_not.mpr isSet), child]
  dsimp only
  rw [if_neg (not_not.mpr ours), bind_done (deref_done sidKnown), bind_get, stream]
  rfl

/-- A packet with a payload is answered and handed to the transfer, whatever its number. -/
theorem jingleIbbHandleIq_hands (env : Env) (w : World) {s : State} {sid : String} {d : FtPtr}
    {ft : JingleFT} {message : LmMessage} {dnode : LmMessageNode} {payload : String}
    (streams : Streams s sid d ft) (data : ibbData sid message = some dnode)
    (carried : dnode.value = some payload)
    : jingleIbbHandleIq env w message s
      = .done .removeMessage ((s.replied message (message.newIqFromQuery .result)).storing d
          (received w d (env.base64Decode payload) ft).ft
          (received w d (env.base64Decode payload) ft).ops) := by
  obtain ⟨t, sc, stream, found, app, description⟩ := streams.content
  obtain ⟨appfuncs, app⟩ := Option.isSome_iff_exists.mp app
  let s₁ := s.replied message (message.newIqFromQuery .result)
  have there : s₁.infoList.get? d = some ft := streams.there
  have found₁ : sessioncontentFindByTransport s₁ t = some sc := found
  have handled : handleTransData w t (some (env.base64Decode payload)) s₁
      = .done () (s₁.storing d (received w d (env.base64Decode payload) ft).ft
          (received w d (env.base64Decode payload) ft).ops) := by
    rw [handleTransData, bind_get, found₁]
    dsimp only
    rw [bind_done (deref_done app), bind_done (deref_done description),
      bind_done (handleData_done w there streams.incoming streams.alive _)]
    rfl
  rw [jingleIbbHandleIq_stream data stream, carried, Option.map_some, bind_done handled]
  rfl

/-- Without a payload the code goes on with a length that was never set. -/
theorem jingleIbbHandleIq_empty (env : Env) (w : World) {s : State} {sid : String} {d : FtPtr}
    {ft : JingleFT} {message : LmMessage} {dnode : LmMessageNode} (streams : Streams s sid d ft)
    (data : ibbData sid message = some dnode) (missing : dnode.value = none)
    : ∃ s', jingleIbbHandleIq env w message s = .fault .uninitialised s' := by
  obtain ⟨t, sc, stream, found, app, description⟩ := streams.content
  obtain ⟨appfuncs, app⟩ := Option.isSome_iff_exists.mp app
  let s₁ := s.replied message (message.newIqFromQuery .result)
  have found₁ : sessioncontentFindByTransport s₁ t = some sc := found
  have stops : handleTransData w t none s₁ = .fault .uninitialised s₁ := by
    rw [handleTransData, bind_get, found₁]
    dsimp only
    rw [bind_done (deref_done app), bind_done (deref_done description)]
    rfl
  refine ⟨s₁, ?_⟩
  rw [jingleIbbHandleIq_stream data stream, missing, Option.map_none, bind_fault stops]

end McabberJingle
