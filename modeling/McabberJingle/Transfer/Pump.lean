import McabberJingle.Jingle.Invitation
import McabberJingle.Transfer.Receiver

/-! The sending side of a transfer as changes of its `JingleFT` and its `JingleIBB`: what is
read from the file goes through the buffer into blocks, and the end of the file ends the
session.
-/

namespace McabberJingle

open Program Program.Prog

-----------------------------------------------------------------------------------------
-- The file
-----------------------------------------------------------------------------------------

/-- The bytes that a read hands out. -/
def ReadResult.bytes : ReadResult → List UInt8
  | .chunk data => data.bytes
  | _ => []

/-- What is left of the file. -/
def fileBytes (reads : List ReadResult) : List UInt8 := reads.flatMap ReadResult.bytes

/-- Every read gives bytes or the end of the file within its ten tries. -/
inductive Steady : List ReadResult → Prop
  | eof {reads rest : List ReadResult} (ends : readChars 9 reads = (.eof, rest)) : Steady reads
  | normal {reads rest : List ReadResult} {data : List UInt8}
    (gives : readChars 9 reads = (.normal data, rest)) (steady : Steady rest)
    : Steady reads

section ReadChars

variable {tries : Nat} {reads rest : List ReadResult}

/-- A read that gives bytes takes them from the front of the file. -/
theorem readChars_normal {data : List UInt8} (gives : readChars tries reads = (.normal data, rest))
    : fileBytes reads = data ++ fileBytes rest ∧ data ≠ [] ∧ rest.length < reads.length := by
  induction reads generalizing tries with
  | nil => simp [readChars] at gives
  | cons read reads ih =>
      cases read with
      | error => simp [readChars] at gives
      | chunk chunk =>
          simp only [readChars, Prod.mk.injEq, GIOStatus.normal.injEq] at gives
          obtain ⟨rfl, rfl⟩ := gives
          exact ⟨rfl, chunk.nonempty, Nat.lt_succ_self _⟩
      | again =>
          cases tries with
          | zero => simp [readChars] at gives
          | succ tries =>
              obtain ⟨bytes, some, shorter⟩ := ih gives
              exact ⟨bytes, some, Nat.lt_succ_of_lt shorter⟩

theorem readChars_eof (ends : readChars tries reads = (.eof, rest))
    : fileBytes reads = [] ∧ fileBytes rest = [] := by
  induction reads generalizing tries with
  | nil =>
      simp only [readChars, Prod.mk.injEq, true_and] at ends
      rw [← ends]
      exact ⟨rfl, rfl⟩
  | cons read reads ih =>
      cases read with
      | error => simp [readChars] at ends
      | chunk chunk => simp [readChars] at ends
      | again =>
          cases tries with
          | zero => simp [readChars] at ends
          | succ tries => exact ih ends

/-- A read that gives neither leaves the bytes of the file. -/
theorem readChars_fails (fails : readChars tries reads = (.again, rest)
      ∨ readChars tries reads = (.error, rest))
    : fileBytes rest = fileBytes reads := by
  induction reads generalizing tries with
  | nil => simp [readChars] at fails
  | cons read reads ih =>
      cases read with
      | error =>
          simp only [readChars, Prod.mk.injEq, reduceCtorEq, false_and, true_and, false_or] at fails
          rw [← fails]
          rfl
      | chunk chunk => simp [readChars] at fails
      | again =>
          cases tries with
          | zero =>
              simp only [readChars, Prod.mk.injEq, reduceCtorEq, false_and, true_and, or_false]
                at fails
              rw [← fails]
              rfl
          | succ tries => exact ih fails

end ReadChars

-----------------------------------------------------------------------------------------
-- Changes of a transfer and of a stream
-----------------------------------------------------------------------------------------

/-- The state with one transfer replaced. -/
def State.withFt (s : State) (d : FtPtr) (ft : JingleFT) : State :=
  { s with infoList := s.infoList.modify d (fun _ => ft) }

/-- The state with one IBB stream replaced. -/
def State.withIbb (s : State) (t : TransportPtr) (jibb : JingleIBB) : State :=
  { s with transports := s.transports.modify t (fun _ => .ibb jibb) }

section With

variable {s : State} {d : FtPtr} {ft ft' : JingleFT} {t : TransportPtr} {jibb jibb' : JingleIBB}

@[simp]
theorem State.withFt_withFt : (s.withFt d ft).withFt d ft' = s.withFt d ft' := by
  simp only [State.withFt, Pool.modify_modify]

@[simp]
theorem State.withIbb_withIbb : (s.withIbb t jibb).withIbb t jibb' = s.withIbb t jibb' := by
  simp only [State.withIbb, Pool.modify_modify]

theorem State.withIbb_withFt
    : (s.withIbb t jibb).withFt d ft = (s.withFt d ft).withIbb t jibb :=
  rfl

theorem State.withFt_get? (there : s.infoList.get? d = some ft)
    : (s.withFt d ft').infoList.get? d = some ft' := by
  simp [State.withFt, there]

theorem State.withIbb_get? (there : s.transports.get? t = some (.ibb jibb))
    : (s.withIbb t jibb').transports.get? t = some (.ibb jibb') := by
  simp [State.withIbb, there]

/-- Writing a stream back as it is changes nothing. -/
theorem State.withIbb_same (there : s.transports.get? t = some (.ibb jibb))
    : s.withIbb t jibb = s := by
  unfold State.withIbb
  rw [Pool.modify_of_same]
  intro value found
  exact Option.some.inj (there.symm.trans found)

theorem modifyFt_eq (there : s.infoList.get? d = some ft) (f : JingleFT → JingleFT)
    : modifyFt d f s = .done () (s.withFt d (f ft)) := by
  have same : s.infoList.modify d f = s.infoList.modify d (fun _ => f ft) := by
    refine Pool.modify_congr (fun value found => ?_)
    rw [Option.some.inj (there.symm.trans found)]
  rw [State.withFt, ← same]
  rfl

theorem modifyFt_to (there : s.infoList.get? d = some ft) (ft' : JingleFT)
    {f : JingleFT → JingleFT} (changes : f ft = ft')
    : modifyFt d f s = .done () (s.withFt d ft') := by
  rw [modifyFt_eq there, changes]

theorem modifyTransport_eq (there : s.transports.get? t = some (.ibb jibb))
    {f : Transport → Transport} (changes : f (.ibb jibb) = .ibb jibb')
    : modifyTransport t f s = .done () (s.withIbb t jibb') := by
  have same : s.transports.modify t f = s.transports.modify t (fun _ => .ibb jibb') := by
    refine Pool.modify_congr (fun value found => ?_)
    rw [← Option.some.inj (there.symm.trans found), changes]
  rw [State.withIbb, ← same]
  rfl

theorem writeIbb_eq : writeIbb t jibb s = .done () (s.withIbb t jibb) := rfl

end With

/-- The transfer after `got` was read, with `rest` left to be read. -/
def JingleFT.readOn (ft : JingleFT) (rest : List ReadResult) (got : List UInt8) : JingleFT :=
  { ft with
    outfile := some (.reading rest)
    transmit := ft.transmit + got.length
    md5 := .running (ft.md5.seen ++ got) }

theorem JingleFT.readOn_readOn (ft : JingleFT) (rest rest' : List ReadResult)
    (got got' : List UInt8)
    : (ft.readOn rest got).readOn rest' got' = ft.readOn rest' (got ++ got') := by
  simp [readOn, GChecksum.seen, Nat.add_assoc]

theorem JingleIBB.push_push (jibb : JingleIBB) (first second : List UInt8)
    : (jibb.push first).push second = jibb.push (first ++ second) := by
  unfold push dataleft
  simp only [List.length_append, List.append_assoc]
  congr 1
  split <;> split <;> split <;> omega

theorem JingleIBB.push_nil {jibb : JingleIBB} (room : jibb.buf.length ≤ jibb.sizeBuf)
    : jibb.push [] = jibb := by
  unfold push dataleft
  rw [if_pos (by simpa using room), List.append_nil]

theorem JingleIBB.push_room (jibb : JingleIBB) (got : List UInt8)
    : (jibb.push got).buf.length ≤ (jibb.push got).sizeBuf := by
  unfold push dataleft
  simp only [List.length_append]
  split <;> omega

-----------------------------------------------------------------------------------------
-- Packets
-----------------------------------------------------------------------------------------

/-- The stream after one block was cut off the front of its buffer and sent. -/
def JingleIBB.cut (jibb : JingleIBB) : JingleIBB :=
  { jibb with buf := jibb.buf.drop jibb.blocksize, seq := jibb.seq + 1 }

/-- The state after a data packet with this payload was sent. -/
def State.sentData (s : State) (env : Env) (sc : SessionContentRef) (js : JingleSession)
    (t : TransportPtr) (jibb : JingleIBB) (payload : List UInt8)
    : State :=
  let iq := ibbDataIq env js.toJid payload jibb.sid jibb.seq
  { s.requested (js.ident sc.owner) iq (some (.ibbSend sc)) 0 true with
    packets := s.packets ++ [(t, iq)] }

theorem State.sentData_withIbb (s : State) (env : Env) (sc : SessionContentRef)
    (js : JingleSession) (jibb jibb' : JingleIBB) (payload : List UInt8) (t : TransportPtr)
    : (s.sentData env sc js t jibb payload).withIbb t jibb'
      = (s.withIbb t jibb').sentData env sc js t jibb payload :=
  rfl

/-- The state after a block was cut off and sent. -/
def State.sentBlock (s : State) (env : Env) (sc : SessionContentRef) (js : JingleSession)
    (t : TransportPtr) (jibb : JingleIBB)
    : State :=
  (s.withIbb t jibb.cut).sentData env sc js t jibb (jibb.buf.take jibb.blocksize)

section Packets

variable {s : State} {env : Env} {sc : SessionContentRef} {js : JingleSession}
  {t : TransportPtr} {jibb : JingleIBB}

theorem ibbSendInternal_eq (sc : SessionContentRef)
    (there : s.transports.get? t = some (.ibb jibb)) (buf : List UInt8)
    : ibbSendInternal env sc sc.owner js t buf s
      = .done ()
          ((s.withIbb t { jibb with seq := jibb.seq + 1 }).sentData env sc js t jibb buf) := by
  rw [ibbSendInternal, bind_done (readIbb_done there), bind_done (sendRequest_done ..)]
  rfl

theorem ibbSendBlock_eq (sc : SessionContentRef)
    (there : s.transports.get? t = some (.ibb jibb))
    : ibbSendBlock env sc sc.owner js t s = .done () (s.sentBlock env sc js t jibb) := by
  let rest : JingleIBB := { jibb with buf := jibb.buf.drop jibb.blocksize }
  have there' : (s.withIbb t rest).transports.get? t = some (.ibb rest) := State.withIbb_get? there
  rw [ibbSendBlock, bind_done (readIbb_done there), bind_done writeIbb_eq,
    ibbSendInternal_eq sc there', State.withIbb_withIbb]
  rfl

/-- The state after the end of the file was handed to the transport: what is left in the buffer
is sent, and the buffer is freed.
-/
def State.flushed (s : State) (env : Env) (sc : SessionContentRef) (js : JingleSession)
    (t : TransportPtr) (jibb : JingleIBB)
    : State :=
  if jibb.buf = [] then
    s.withIbb t { jibb with bufFreed := decide (0 < jibb.sizeBuf) }
  else
    (s.withIbb t { jibb with
      seq := jibb.seq + 1
      bufFreed := decide (0 < jibb.sizeBuf)
    }).sentData env sc js t jibb jibb.buf

@[simp]
theorem State.flushed_infoList
    : (s.flushed env sc js t jibb).infoList = s.infoList := by
  unfold State.flushed
  split <;> rfl

@[simp]
theorem State.flushed_sessions
    : (s.flushed env sc js t jibb).sessions = s.sessions := by
  unfold State.flushed
  split <;> rfl

end Packets

-----------------------------------------------------------------------------------------
-- The content that is sent
-----------------------------------------------------------------------------------------

/-- A session with one content, whose file goes out over an in-band stream. -/
structure Conveys (s : State) (p : SessionPtr) (js : JingleSession) (sc : SessionContent)
    (d : FtPtr) (t : TransportPtr)
    : Prop where
  listed : s.sessions.get? p = some js
  found : sessionFindBySid s js.sid (some js.recipient) = some (p, js)
  only : js.content = [sc]
  appfuncs : sc.appfuncs = some .fileTransfer
  description : sc.description = some d
  transfuncs : sc.transfuncs = some .ibb
  transport : sc.transport = some t

section Conveys

variable {s s' : State} {env : Env} {p : SessionPtr} {js : JingleSession} {sc : SessionContent}
  {d : FtPtr} {t : TransportPtr} {jibb : JingleIBB} {ft : JingleFT}

/-- Only the sessions matter. -/
theorem Conveys.congr (conveys : Conveys s p js sc d t) (same : s'.sessions = s.sessions)
    : Conveys s' p js sc d t where
  listed := same ▸ conveys.listed
  found := by
    unfold sessionFindBySid
    rw [same]
    exact conveys.found
  only := conveys.only
  appfuncs := conveys.appfuncs
  description := conveys.description
  transfuncs := conveys.transfuncs
  transport := conveys.transport

theorem Conveys.find (conveys : Conveys s p js sc d t) (name : String)
    : sessionFindByRef { owner := p, name } s = .done (some (p, js)) s := by
  have some : s.sessions.cells.isEmpty = false := by
    have member := Pool.get?_eq_some_iff.mp conveys.listed
    cases cells : s.sessions.cells with
    | nil =>
        rw [cells] at member
        cases member
    | cons cell rest => rfl
  rw [sessionFindByRef, bind_get, if_neg (by simp [some]),
    bind_done (readSession_done conveys.listed), conveys.found]
  rfl

theorem Conveys.content (conveys : Conveys s p js sc d t)
    : sessionFindSessioncontent js sc.name = Option.some sc := by
  rw [sessionFindSessioncontent, conveys.only]
  simp

/-- Bytes that do not fill a block are kept and more is asked for. -/
theorem ibbSend_asks (ref : SessionContentRef)
    (there : s.transports.get? t = some (.ibb jibb)) (unfreed : jibb.bufFreed = false)
    {data : List UInt8} (little : (jibb.push data).buf.length < jibb.blocksize)
    (next : SessionContentRef → Run Unit)
    : ibbSend env next ref t data s = next ref (s.withIbb t (jibb.push data)) := by
  have little' : (jibb.push data).dataleft < (jibb.push data).blocksize := little
  rw [ibbSend, bind_done (readIbb_done there), if_neg (by simp [unfreed]),
    bind_done writeIbb_eq, if_pos little']

/-- Bytes that fill a block make it go out. -/
theorem Conveys.ibbSend_sends (conveys : Conveys s p js sc d t)
    (there : s.transports.get? t = some (.ibb jibb)) (unfreed : jibb.bufFreed = false)
    {data : List UInt8} (enough : jibb.blocksize ≤ (jibb.push data).buf.length)
    (next : SessionContentRef → Run Unit)
    : ibbSend env next { owner := p, name := sc.name } t data s
      = .done () (s.sentBlock env { owner := p, name := sc.name } js t (jibb.push data)) := by
  let ref : SessionContentRef := { owner := p, name := sc.name }
  have conveys' : Conveys (s.withIbb t (jibb.push data)) p js sc d t := conveys.congr rfl
  have there' : (s.withIbb t (jibb.push data)).transports.get? t = some (.ibb (jibb.push data)) :=
    State.withIbb_get? there
  have enough' : ¬(jibb.push data).dataleft < (jibb.push data).blocksize := Nat.not_lt.mpr enough
  rw [ibbSend, bind_done (readIbb_done there), if_neg (by simp [unfreed]),
    bind_done writeIbb_eq, if_neg enough', bind_done (conveys'.find sc.name),
    bind_done (deref_done rfl)]
  refine (ibbSendBlock_eq ref there').trans ?_
  simp [State.sentBlock, ref]

theorem Conveys.ibbEnd_flushes (conveys : Conveys s p js sc d t)
    (there : s.transports.get? t = some (.ibb jibb)) (unfreed : jibb.bufFreed = false)
    : ibbEnd env { owner := p, name := sc.name } t s
      = .done () (s.flushed env { owner := p, name := sc.name } js t jibb) := by
  rw [ibbEnd, bind_done (conveys.find sc.name), bind_done (readIbb_done there),
    if_neg (by simp [unfreed]), ibbSendRest, State.flushed]
  by_cases empty : jibb.buf = []
  · rw [if_neg (by simp [JingleIBB.dataleft, empty]), if_pos empty]
    have kept : (pure () : Run Unit) s = .done () s := rfl
    rw [bind_done kept, modifyTransport_eq there rfl]
  · have some : jibb.dataleft > 0 := List.length_pos_iff.mpr empty
    let next : JingleIBB := { jibb with seq := jibb.seq + 1 }
    let s₁ := (s.withIbb t next).sentData env { owner := p, name := sc.name } js t jibb jibb.buf
    have there' : s₁.transports.get? t = Option.some (.ibb next) := State.withIbb_get? there
    rw [if_pos some, if_neg empty]
    refine (bind_done (?sent : _ = Outcome.done () s₁)).trans ?_
    case sent => exact ibbSendInternal_eq { owner := p, name := sc.name } there jibb.buf
    rw [modifyTransport_eq there' rfl, State.sentData_withIbb, State.withIbb_withIbb]

-----------------------------------------------------------------------------------------
-- One turn of the circle
-----------------------------------------------------------------------------------------

theorem Conveys.handleAppData_data (conveys : Conveys s p js sc d t)
    (next : SessionContentRef → Run Unit) {data : List UInt8} (some : data ≠ [])
    : handleAppData env next { owner := p, name := sc.name } data s
      = ibbSend env next { owner := p, name := sc.name } t data s := by
  rw [handleAppData, bind_done (conveys.find sc.name)]
  dsimp only
  rw [bind_done (deref_done conveys.content), bind_done (deref_done conveys.transfuncs)]
  dsimp only
  rw [bind_done (deref_done conveys.transport), if_neg some]

theorem Conveys.handleAppData_end (conveys : Conveys s p js sc d t)
    (next : SessionContentRef → Run Unit)
    : handleAppData env next { owner := p, name := sc.name } [] s
      = ibbEnd env { owner := p, name := sc.name } t s := by
  rw [handleAppData, bind_done (conveys.find sc.name)]
  dsimp only
  rw [bind_done (deref_done conveys.content), bind_done (deref_done conveys.transfuncs)]
  dsimp only
  rw [bind_done (deref_done conveys.transport), if_pos rfl]

theorem Conveys.handleTransNext_sends (conveys : Conveys s p js sc d t)
    (appSend : SessionContentRef → Run Unit)
    : handleTransNext appSend { owner := p, name := sc.name } s
      = appSend { owner := p, name := sc.name } s := by
  rw [handleTransNext, bind_done (conveys.find sc.name)]
  dsimp only
  rw [bind_done (deref_done conveys.content), bind_done (deref_done conveys.appfuncs)]

/-- The transfer when its file has ended. -/
def JingleFT.finished (env : Env) (ft : JingleFT) (rest : List ReadResult) : JingleFT :=
  { ft with
    outfile := some (.reading rest)
    hash := some (env.md5 ft.md5.seen)
    state := .ending
    md5 := .freed }

/-- The state after the end of the file: the buffer is flushed, the hash and the end of the
session are announced, and the session is gone.
-/
def State.finished (s : State) (env : Env) (p : SessionPtr) (js : JingleSession)
    (sc : SessionContent) (d : FtPtr) (t : TransportPtr) (ft : JingleFT)
    (rest : List ReadResult) (jibb : JingleIBB)
    : State :=
  let s := (s.flushed env { owner := p, name := sc.name } js t jibb).withFt d
    (ft.finished env rest)
  let s := s.requested (js.ident p)
    (hashIq js.toJid js.sid (some (env.md5 ft.md5.seen))) none 0 true
  let s := s.requested (js.ident p) (sessionTerminateIq js "success") none 0 true
  { s with sessions := s.sessions.erase p }

theorem Conveys.ftSendEof_finishes (conveys : Conveys s p js sc d t) (w : World)
    (next : SessionContentRef → Run Unit) (thereFt : s.infoList.get? d = some ft)
    (there : s.transports.get? t = some (.ibb jibb)) (unfreed : jibb.bufFreed = false)
    {seen : List UInt8} (running : ft.md5 = .running seen) {rest : List ReadResult}
    (reading : ft.outfile = some (.reading rest))
    : ftSendEof env w next { owner := p, name := sc.name } p sc d s
      = .done () (s.finished env p js sc d t ft rest jibb) := by
  let ref : SessionContentRef := { owner := p, name := sc.name }
  let s₁ := s.flushed env ref js t jibb
  let ft₂ : JingleFT := { ft with hash := some (env.md5 seen), state := .ending }
  let s₂ := s₁.withFt d ft₂
  let ended : SessionContent := { sc with state := .ended }
  let js₃ : JingleSession := { js with content := [ended] }
  let s₃ := s₂.withContent p (updateFirst sc.name (fun sc => { sc with state := .ended }))
  let s₄ := s₃.requested (js.ident p) (hashIq js.toJid js.sid (some (env.md5 seen))) none 0 true
  let s₅ := s₄.withFt d (ft.finished env rest)
  have atEnd : handleAppData env next ref [] s = .done () s₁ := by
    rw [conveys.handleAppData_end, conveys.ibbEnd_flushes there unfreed]
  have thereFt₁ : s₁.infoList.get? d = some ft := by
    rw [State.flushed_infoList]
    exact thereFt
  have thereFt₂ : s₂.infoList.get? d = some ft₂ := State.withFt_get? thereFt₁
  have listed₂ : s₂.sessions.get? p = some js := by
    change s₁.sessions.get? p = _
    rw [State.flushed_sessions]
    exact conveys.listed
  have changed : updateFirst sc.name (fun sc => { sc with state := .ended }) js.content
      = [ended] := by
    rw [conveys.only]
    simp [updateFirst, ended]
  have listed₃ : s₃.sessions.get? p = some js₃ := by
    rw [State.withContent_listed listed₂, changed]
  have hashed : FileTransfer.checksumGetString env ft.md5 s₁ = .done (some (env.md5 seen)) s₁ := by
    rw [running]
    rfl
  have thereFt₄ : s₄.infoList.get? d = some ft₂ := thereFt₂
  let s₆ := s₅.withContent p (removeFirst sc.name)
  let js₆ : JingleSession := { js with content := [] }
  have listed₅ : s₅.sessions.get? p = some js₃ := listed₃
  have emptied : removeFirst sc.name js₃.content = [] := by
    simp [removeFirst, js₃, ended]
  have removed : sessionRemoveSessioncontent p sc.name s₅ = .done 0 s₆ := by
    have content : sessionFindSessioncontent js₃ sc.name = some ended := by
      simp [sessionFindSessioncontent, js₃, ended]
    rw [sessionRemoveSessioncontent, bind_done (readSession_done listed₅), content]
    dsimp only
    rw [bind_done (modifyContent_eq s₅ p (removeFirst sc.name)), emptied]
    rfl
  have listed₆ : s₆.sessions.get? p = some js₆ := by
    rw [State.withContent_listed listed₅, emptied]
  let s₇ := s₆.requested (js.ident p) (sessionTerminateIq js "success") none 0 true
  have terminated : jingleSendSessionTerminate p "success" s₆ = .done () s₇ := by
    rw [jingleSendSessionTerminate, bind_done (readSession_done listed₆), sendRequest_done]
    rfl
  have listed₇ : s₇.sessions.get? p = some js₆ := listed₆
  have deleted : sessionDelete w p s₇ = .done () { s₇ with sessions := s₇.sessions.erase p } := by
    rw [sessionDelete, bind_done (readSession_done listed₇)]
    rfl
  have erased : s₇.sessions.erase p = s₁.sessions.erase p := by
    change ((s₁.sessions.modify p _).modify p _).erase p = _
    rw [Pool.erase_modify, Pool.erase_modify]
  have marked : sessionChangestateSessioncontent p sc.name .ended s₂ = .done () s₃ := by
    rw [sessionChangestateSessioncontent, bind_done (readSession_done listed₂)]
    rfl
  have read : readSession p s₃ = .done js₃ s₃ := readSession_done listed₃
  have announced : sendRequest (js₃.ident p) (hashIq js₃.toJid js₃.sid (some (env.md5 seen))) none 0
      true s₃ = .done () s₄ :=
    sendRequest_done ..
  rw [ftSendEof, bind_done atEnd, bind_done (readFt_done thereFt₁), bind_done hashed,
    bind_done (modifyFt_eq thereFt₁ _)]
  refine (bind_done marked).trans ?_
  refine (bind_done read).trans ?_
  refine (bind_done announced).trans ?_
  refine (bind_done (modifyFt_to thereFt₄ (ft.finished env rest) ?freed)).trans ?_
  case freed => simp [ft₂, JingleFT.finished, running, reading, GChecksum.seen]
  refine (bind_done removed).trans ?_
  rw [if_pos rfl, bind_done terminated, deleted, erased]
  have once : s₂.withFt d (ft.finished env rest) = s₁.withFt d (ft.finished env rest) :=
    State.withFt_withFt
  let announce (s : State) : State :=
    (s.requested (js.ident p) (hashIq js.toJid js.sid (some (env.md5 seen))) none 0
      true).requested (js.ident p) (sessionTerminateIq js "success") none 0 true
  have ends : { s₇ with sessions := s₁.sessions.erase p }
      = { announce (s₂.withFt d (ft.finished env rest)) with
          sessions := s₁.sessions.erase p } := rfl
  rw [ends, once]
  simp only [State.finished, running, GChecksum.seen]
  rfl

end Conveys

-----------------------------------------------------------------------------------------
-- Asking for data
-----------------------------------------------------------------------------------------

/-- A content whose transfer is running. -/
structure Pumps (s : State) (p : SessionPtr) (js : JingleSession) (sc : SessionContent)
    (d : FtPtr) (t : TransportPtr) (ft : JingleFT) (jibb : JingleIBB) (reads : List ReadResult)
    : Prop where
  conveys : Conveys s p js sc d t
  transfer : s.infoList.get? d = some ft
  stream : s.transports.get? t = some (.ibb jibb)
  outgoing : ft.dir = .outgoing
  reading : ft.outfile = some (.reading reads)
  running : ft.md5 = .running ft.md5.seen
  unfreed : jibb.bufFreed = false
  room : jibb.buf.length ≤ jibb.sizeBuf

/-- The state after some bytes were read into the buffer. -/
def State.readOn (s : State) (d : FtPtr) (t : TransportPtr) (ft : JingleFT) (jibb : JingleIBB)
    (rest : List ReadResult) (got : List UInt8)
    : State :=
  (s.withFt d (ft.readOn rest got)).withIbb t (jibb.push got)

/-- How a request for data ends: a block goes out, or the file ends, or a read fails. -/
inductive Pumped (env : Env) (s : State) (p : SessionPtr) (js : JingleSession)
    (sc : SessionContent) (d : FtPtr) (t : TransportPtr) (ft : JingleFT) (jibb : JingleIBB)
    (reads : List ReadResult)
    : State → Prop
  | sent {rest : List ReadResult} {got : List UInt8}
    (split : fileBytes reads = got ++ fileBytes rest) (some : got ≠ [])
    (enough : jibb.blocksize ≤ (jibb.buf ++ got).length) (steady : Steady reads → Steady rest)
    : Pumped env s p js sc d t ft jibb reads
        ((s.readOn d t ft jibb rest got).sentBlock env { owner := p, name := sc.name } js t
          (jibb.push got))
  | ended {rest : List ReadResult} {got : List UInt8}
    (split : fileBytes reads = got ++ fileBytes rest) (spent : fileBytes rest = [])
    (little : got = [] ∨ (jibb.buf ++ got).length < jibb.blocksize)
    : Pumped env s p js sc d t ft jibb reads
        ((s.readOn d t ft jibb rest got).finished env p js sc d t (ft.readOn rest got) rest
          (jibb.push got))
  | failed {rest : List ReadResult} {got : List UInt8} {state : JingleFTState}
    (split : fileBytes reads = got ++ fileBytes rest) (unsteady : ¬Steady reads)
    (state_eq : state = ft.state ∨ state = .error)
    : Pumped env s p js sc d t ft jibb reads
        ((s.readOn d t ft jibb rest got).withFt d { ft.readOn rest got with state })

section Pumps

variable {s : State} {env : Env} {p : SessionPtr} {js : JingleSession} {sc : SessionContent}
  {d : FtPtr} {t : TransportPtr} {ft : JingleFT} {jibb : JingleIBB} {reads : List ReadResult}

theorem State.readOn_readOn (rest rest' : List ReadResult) (got got' : List UInt8)
    : (s.readOn d t ft jibb rest got).readOn d t (ft.readOn rest got) (jibb.push got) rest' got'
      = s.readOn d t ft jibb rest' (got ++ got') := by
  simp only [State.readOn, State.withIbb_withFt, State.withFt_withFt, State.withIbb_withIbb,
    JingleFT.readOn_readOn, JingleIBB.push_push]

theorem Pumps.readOn (pumps : Pumps s p js sc d t ft jibb reads) (rest : List ReadResult)
    (got : List UInt8)
    : Pumps (s.readOn d t ft jibb rest got) p js sc d t (ft.readOn rest got) (jibb.push got)
        rest where
  conveys := pumps.conveys.congr rfl
  transfer := State.withFt_get? pumps.transfer
  stream := State.withIbb_get? pumps.stream
  outgoing := pumps.outgoing
  reading := rfl
  running := rfl
  unfreed := pumps.unfreed
  room := JingleIBB.push_room jibb got

/-- After reading some bytes that do not fill a block, the request goes on. -/
theorem Pumped.after {s' : State} {rest : List ReadResult} {got : List UInt8}
    (split : fileBytes reads = got ++ fileBytes rest) (some : got ≠ [])
    (little : (jibb.buf ++ got).length < jibb.blocksize)
    (steady : Steady reads ↔ Steady rest)
    (pumped : Pumped env (s.readOn d t ft jibb rest got) p js sc d t (ft.readOn rest got)
      (jibb.push got) rest s')
    : Pumped env s p js sc d t ft jibb reads s' := by
  cases pumped with
  | @sent rest' got' split' some' enough' steady' =>
      rw [State.readOn_readOn, JingleIBB.push_push]
      refine .sent ?_ (by simp [some]) ?_ (fun ok => steady' (steady.mp ok))
      · rw [split, split', List.append_assoc]
      · rw [← List.append_assoc]
        exact enough'
  | @ended rest' got' split' spent' little' =>
      rw [State.readOn_readOn, JingleIBB.push_push, JingleFT.readOn_readOn]
      refine .ended ?_ spent' (Or.inr ?_)
      · rw [split, split', List.append_assoc]
      · rw [← List.append_assoc]
        rcases little' with nothing | little'
        · rwa [nothing, List.append_nil]
        · exact little'
  | @failed rest' got' state split' unsteady' state_eq =>
      rw [State.readOn_readOn, JingleFT.readOn_readOn]
      refine .failed ?_ (fun ok => unsteady' (steady.mp ok)) state_eq
      rw [split, split', List.append_assoc]

/-- Reading nothing only moves on in the file. -/
theorem Pumps.readOn_nil (pumps : Pumps s p js sc d t ft jibb reads) (rest : List ReadResult)
    : ft.readOn rest [] = { ft with outfile := some (.reading rest) }
      ∧ s.readOn d t ft jibb rest []
        = s.withFt d { ft with outfile := some (.reading rest) } := by
  have same : ft.readOn rest [] = { ft with outfile := some (.reading rest) } := by
    simp [JingleFT.readOn, ← pumps.running]
  have there : (s.withFt d (ft.readOn rest [])).transports.get? t = some (.ibb jibb) := pumps.stream
  rw [State.readOn, JingleIBB.push_nil pumps.room, State.withIbb_same there, same]
  exact ⟨rfl, rfl⟩

/-- Sending a block replaces whatever is in the stream. -/
theorem State.withIbb_sentBlock (s : State) (env : Env) (ref : SessionContentRef)
    (js : JingleSession) (t : TransportPtr) (jibb jibb' : JingleIBB)
    : (s.withIbb t jibb').sentBlock env ref js t jibb = s.sentBlock env ref js t jibb := by
  rw [State.sentBlock, State.sentBlock, State.withIbb_withIbb]

/-- By induction on the fuel, which the reads that are left bound. -/
theorem Pumps.ftSend_pumps (pumps : Pumps s p js sc d t ft jibb reads) (w : World) {fuel : Nat}
    (enough : reads.length < fuel)
    : ∃ s', ftSend env w fuel { owner := p, name := sc.name } s = .done () s'
        ∧ Pumped env s p js sc d t ft jibb reads s' := by
  induction fuel generalizing s ft jibb reads with
  | zero => exact absurd enough (Nat.not_lt_zero _)
  | succ fuel ih =>
      let ref : SessionContentRef := { owner := p, name := sc.name }
      change ∃ s', ftSendBody env w (handleTransNext (ftSend env w fuel)) ref s = .done () s' ∧ _
      rw [ftSendBody, bind_done (pumps.conveys.find sc.name)]
      dsimp only
      rw [bind_done (deref_done pumps.conveys.content),
        bind_done (deref_done pumps.conveys.description), bind_done (readFt_done pumps.transfer),
        if_neg (by simp [pumps.outgoing]), pumps.reading]
      dsimp only
      cases read : readChars 9 reads with
      | mk status rest =>
      dsimp only
      let ft₁ : JingleFT := { ft with outfile := some (.reading rest) }
      let s₁ := s.withFt d ft₁
      have transfer₁ : s₁.infoList.get? d = some ft₁ := State.withFt_get? pumps.transfer
      have conveys₁ : Conveys s₁ p js sc d t := pumps.conveys.congr rfl
      obtain ⟨sameFt, same⟩ := pumps.readOn_nil rest
      rw [bind_done (modifyFt_eq pumps.transfer _)]
      have failed (state : JingleFTState) (state_eq : state = ft.state ∨ state = .error)
          (fails : readChars 9 reads = (.again, rest) ∨ readChars 9 reads = (.error, rest))
          : Pumped env s p js sc d t ft jibb reads (s.withFt d { ft₁ with state }) := by
        have bytes : fileBytes reads = [] ++ fileBytes rest := (readChars_fails fails).symm
        have unsteady : ¬Steady reads := by
          intro steady
          cases steady with
          | eof ends => rcases fails with fails | fails <;> cases fails.symm.trans ends
          | normal gives => rcases fails with fails | fails <;> cases fails.symm.trans gives
        have pumped : Pumped env s p js sc d t ft jibb reads _ := .failed bytes unsteady state_eq
        rw [same, sameFt, State.withFt_withFt] at pumped
        exact pumped
      cases status with
      | again => exact ⟨s₁, rfl, failed ft.state (Or.inl rfl) (Or.inl read)⟩
      | error =>
          refine ⟨_, modifyFt_eq transfer₁ _, ?_⟩
          rw [State.withFt_withFt]
          exact failed .error (Or.inr rfl) (Or.inr read)
      | eof =>
          obtain ⟨nothing, spent⟩ := readChars_eof read
          have ended : Pumped env s p js sc d t ft jibb reads _ :=
            .ended (nothing.trans (List.append_nil [] ▸ spent.symm)) spent (Or.inl rfl)
          rw [same, sameFt, JingleIBB.push_nil pumps.room] at ended
          exact ⟨_, conveys₁.ftSendEof_finishes w _ transfer₁ pumps.stream pumps.unfreed
            pumps.running rfl, ended⟩
      | normal data =>
          obtain ⟨split, some, shorter⟩ := readChars_normal read
          have steady : Steady reads ↔ Steady rest := by
            constructor
            · intro steady
              cases steady with
              | eof ends => cases read.symm.trans ends
              | normal gives steady =>
                  cases read.symm.trans gives
                  exact steady
            · exact fun steady => .normal read steady
          let s₂ := s.withFt d (ft.readOn rest data)
          have conveys₂ : Conveys s₂ p js sc d t := pumps.conveys.congr rfl
          have stream₂ : s₂.transports.get? t = Option.some (.ibb jibb) := pumps.stream
          have updated : FileTransfer.checksumUpdate ft.md5 data s₁
              = .done (.running (ft.md5.seen ++ data)) s₁ := by
            rw [pumps.running]
            rfl
          have counted : modifyFt d (fun ft₁ => { ft₁ with
                transmit := ft₁.transmit + data.length
                md5 := .running (ft.md5.seen ++ data) }) s₁ = .done () s₂ := by
            rw [modifyFt_eq transfer₁, State.withFt_withFt]
            rfl
          dsimp only
          rw [bind_done updated, bind_done counted, conveys₂.handleAppData_data _ some]
          rcases Nat.lt_or_ge (jibb.push data).buf.length jibb.blocksize with little | full
          · rw [ibbSend_asks _ stream₂ pumps.unfreed little]
            have conveys₃ : Conveys (s₂.withIbb t (jibb.push data)) p js sc d t :=
              conveys₂.congr rfl
            rw [conveys₃.handleTransNext_sends]
            obtain ⟨s', runs, pumped⟩ := ih (pumps.readOn rest data) (by omega)
            exact ⟨s', runs, pumped.after split some little steady⟩
          · rw [conveys₂.ibbSend_sends stream₂ pumps.unfreed full]
            have sent : Pumped env s p js sc d t ft jibb reads _ :=
              .sent split some full steady.mp
            rw [State.readOn, State.withIbb_sentBlock] at sent
            exact ⟨_, rfl, sent⟩

/-- Reads of one open file are among those of all. -/
theorem le_unreadCount (there : s.infoList.get? d = some ft)
    (reading : ft.outfile = some (.reading reads))
    : reads.length ≤ unreadCount s := by
  have le_sum (counts : List Nat) : ∀ n ∈ counts, n ≤ counts.foldr (· + ·) 0 := by
    induction counts with
    | nil => simp
    | cons first rest ih =>
        intro n member
        rw [List.foldr_cons]
        rcases List.mem_cons.mp member with rfl | later
        · exact Nat.le_add_right _ _
        · exact Nat.le_trans (ih n later) (Nat.le_add_left _ _)
  have member : ft ∈ s.infoList.values :=
    List.mem_map.mpr ⟨(d, ft), Pool.get?_eq_some_iff.mp there, rfl⟩
  refine le_sum _ reads.length (List.mem_map.mpr ⟨ft, member, ?_⟩)
  rw [reading]

theorem Pumps.ftSendAll_pumps (pumps : Pumps s p js sc d t ft jibb reads) (env : Env)
    (w : World)
    : ∃ s', ftSendAll env w { owner := p, name := sc.name } s = .done () s'
        ∧ Pumped env s p js sc d t ft jibb reads s' := by
  have enough := le_unreadCount pumps.transfer pumps.reading
  rw [ftSendAll, bind_get]
  exact pumps.ftSend_pumps w (Nat.lt_succ_of_le enough)

/-- `start` of a content whose file is open. -/
theorem Conveys.ftStart_pumps (conveys : Conveys s p js sc d t)
    (transfer : s.infoList.get? d = some ft) (stream : s.transports.get? t = some (.ibb jibb))
    (outgoing : ft.dir = .outgoing) (reading : ft.outfile = some (.reading reads))
    (unfreed : jibb.bufFreed = false) (room : jibb.buf.length ≤ jibb.sizeBuf) (env : Env)
    (w : World)
    : ∃ s', ftStart env w { owner := p, name := sc.name } s = .done () s'
        ∧ Pumped env (s.withFt d { ft with state := .starting, md5 := .running [] }) p js sc d t
          { ft with state := .starting, md5 := .running [] } jibb reads s' := by
  have pumps : Pumps (s.withFt d { ft with state := .starting, md5 := .running [] }) p js sc d t
      { ft with state := .starting, md5 := .running [] } jibb reads :=
    ⟨conveys.congr rfl, State.withFt_get? transfer, stream, outgoing, reading, rfl, unfreed, room⟩
  obtain ⟨s', runs, pumped⟩ := pumps.ftSendAll_pumps env w
  refine ⟨s', ?_, pumped⟩
  rw [ftStart, bind_done (conveys.find sc.name)]
  dsimp only
  rw [bind_done (deref_done conveys.content), bind_done (deref_done conveys.description),
    bind_done (readFt_done transfer), bind_done (modifyFt_eq transfer _),
    bind_done (deref_done conveys.appfuncs)]
  exact runs

/-- The reply to a data packet: the next block of the buffer, or another request for data. -/
theorem Pumps.reply_sends (pumps : Pumps s p js sc d t ft jibb reads) (env : Env) (w : World)
    : ∃ s', jingleIbbHandleAckIqSend env w { owner := p, name := sc.name } s = .done () s'
        ∧ (jibb.blocksize < jibb.buf.length
            ∧ s' = s.sentBlock env { owner := p, name := sc.name } js t jibb
          ∨ jibb.buf.length ≤ jibb.blocksize
            ∧ Pumped env s p js sc d t ft jibb reads s') := by
  rw [jingleIbbHandleAckIqSend, bind_done (pumps.conveys.find sc.name)]
  dsimp only
  rw [bind_done (deref_done pumps.conveys.content), bind_done (deref_done pumps.conveys.transport),
    bind_done (readIbb_done pumps.stream)]
  rcases Nat.lt_or_ge jibb.blocksize jibb.buf.length with full | asks
  · have some : jibb.dataleft > jibb.blocksize := full
    rw [if_pos some, if_neg (by simp [pumps.unfreed])]
    exact ⟨_, ibbSendBlock_eq { owner := p, name := sc.name } pumps.stream,
      Or.inl ⟨full, rfl⟩⟩
  · have few : ¬jibb.dataleft > jibb.blocksize := Nat.not_lt.mpr asks
    rw [if_neg few, pumps.conveys.handleTransNext_sends]
    obtain ⟨s', runs, pumped⟩ := pumps.ftSendAll_pumps env w
    exact ⟨s', runs, Or.inr ⟨asks, pumped⟩⟩

end Pumps

end McabberJingle
