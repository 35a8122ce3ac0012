import McabberJingle.System.Machine
import McabberJingle.Transfer.Turns

/-! The course of a transfer that goes out: its start, and then one turn of the peer after the
other, with what was sent on the way.
-/

namespace McabberJingle

open Program Program.Prog

-----------------------------------------------------------------------------------------
-- What was sent for a session
-----------------------------------------------------------------------------------------

/-- The IQ, if it was sent for the session. -/
def Sent.request? (p : SessionPtr) : Sent → Option LmMessage
  | .reply _ _ => none
  | .request ident iq => if ident.ptr = p then some iq else none

/-- All IQs sent for a session, in order. -/
def State.requests (s : State) (p : SessionPtr) : List LmMessage :=
  s.sent.filterMap (Sent.request? p)

/-- Whether the handle waits for the reply to a data packet of the session. -/
def JingleAckHandle.awaitsData (handle : JingleAckHandle) (p : SessionPtr) : Bool :=
  match handle.callback with
  | some (.ibbSend sc) => sc.owner == p
  | _ => false

/-- The data packets of a session that were not replied to. -/
def State.unanswered (s : State) (p : SessionPtr) : List AckPtr :=
  (s.ackHandlers.cells.filter (fun cell => cell.2.awaitsData p)).map Prod.fst

/-- Data packets for these blocks, numbered from `seq` on. -/
def dataPackets (env : Env) (recipient sid : String) : Nat → List (List UInt8) → List LmMessage
  | _, [] => []
  | seq, block :: rest =>
      ibbDataIq env recipient block sid seq :: dataPackets env recipient sid (seq + 1) rest

theorem dataPackets_append (env : Env) (recipient sid : String) (seq : Nat)
    (blocks more : List (List UInt8))
    : dataPackets env recipient sid seq (blocks ++ more)
      = dataPackets env recipient sid seq blocks
        ++ dataPackets env recipient sid (seq + blocks.length) more := by
  induction blocks generalizing seq with
  | nil => rfl
  | cons block rest ih =>
      rw [List.cons_append, dataPackets, ih, dataPackets, List.cons_append, List.length_cons,
        Nat.add_right_comm, Nat.add_assoc]

section Requests

variable {s : State} {p : SessionPtr} {js : JingleSession} {iq : LmMessage}

theorem State.requests_requested (callback : Option AckCallback) (timeout : Nat)
    : (s.requested (js.ident p) iq callback timeout true).requests p = s.requests p ++ [iq] := by
  simp [State.requests, State.requested, Sent.request?, JingleSession.ident]

theorem State.requests_replied (query answer : LmMessage)
    : (s.replied query answer).requests p = s.requests p := by
  simp [State.requests, State.replied, Sent.request?]

end Requests

-----------------------------------------------------------------------------------------
-- Data packets that wait for a reply
-----------------------------------------------------------------------------------------

/-- The state after a reply was handled. -/
def State.answered (s : State) (ah : AckPtr) : State :=
  { s with ackHandlers := s.ackHandlers.erase ah, idHandlers := s.idHandlers.erase ah }

/-- The handles for the data packets of one content that wait, all known to loudmouth. -/
structure Waiting (sc : SessionContentRef) (s : State) (ahs : List AckPtr) : Prop where
  unanswered : s.unanswered sc.owner = ahs
  known : ∀ ah ∈ ahs, ah ∈ s.idHandlers
    ∧ ∃ handle, s.ackHandlers.get? ah = some handle ∧ handle.callback = some (.ibbSend sc)

section Waiting

variable {sc : SessionContentRef} {s s' : State} {ahs : List AckPtr}

theorem Waiting.congr (waiting : Waiting sc s ahs) (handles : s'.ackHandlers = s.ackHandlers)
    (ids : s'.idHandlers = s.idHandlers)
    : Waiting sc s' ahs where
  unanswered := by
    rw [State.unanswered, handles]
    exact waiting.unanswered
  known := by
    rw [handles, ids]
    exact waiting.known

theorem Waiting.lt_next (waiting : Waiting sc s ahs) {ah : AckPtr} (member : ah ∈ ahs)
    : ah < s.ackHandlers.next := by
  obtain ⟨_, handle, there, _⟩ := waiting.known ah member
  exact Pool.lt_next there

/-- A request whose reply is of no interest. -/
theorem Waiting.requested (waiting : Waiting sc s ahs) (ident : SessionIdent) (iq : LmMessage)
    (timeout : Nat) (sendOk : Bool)
    : Waiting sc (s.requested ident iq none timeout sendOk) ahs where
  unanswered := by
    have ours := waiting.unanswered
    unfold State.unanswered at ours ⊢
    simpa [State.requested, Pool.alloc, JingleAckHandle.awaitsData] using ours
  known := by
    intro ah member
    have below := waiting.lt_next member
    obtain ⟨id, handle, there, callback⟩ := waiting.known ah member
    refine ⟨List.mem_append_left _ id, handle, ?_, callback⟩
    rw [← there]
    exact Pool.get?_alloc_of_lt _ below

/-- One more data packet. -/
theorem Waiting.sentData (waiting : Waiting sc s ahs) (env : Env) (js : JingleSession)
    (t : TransportPtr) (jibb : JingleIBB) (payload : List UInt8)
    : Waiting sc (s.sentData env sc js t jibb payload) (ahs ++ [s.ackHandlers.next]) where
  unanswered := by
    have ours := waiting.unanswered
    unfold State.unanswered at ours ⊢
    simpa [State.sentData, State.requested, Pool.alloc, JingleAckHandle.awaitsData] using ours
  known := by
    intro ah member
    rcases List.mem_append.mp member with old | new
    · have below := waiting.lt_next old
      obtain ⟨id, handle, there, callback⟩ := waiting.known ah old
      refine ⟨List.mem_append_left _ id, handle, ?_, callback⟩
      rw [← there]
      exact Pool.get?_alloc_of_lt _ below
    · rw [List.mem_singleton.mp new]
      exact ⟨List.mem_append_right _ (List.mem_singleton.mpr rfl), _,
        Pool.get?_alloc_self _ _, rfl⟩

/-- One of them was replied to. -/
theorem Waiting.answered (waiting : Waiting sc s ahs) (ah : AckPtr)
    : Waiting sc (s.answered ah) (ahs.filter (fun other => other != ah)) where
  unanswered := by
    rw [← waiting.unanswered]
    simp only [State.unanswered, State.answered, Pool.erase, List.filter_map, List.filter_filter]
    congr 2
    funext cell
    exact Bool.and_comm _ _
  known := by
    intro other member
    obtain ⟨old, apart⟩ := List.mem_filter.mp member
    have apart : other ≠ ah := by simpa using apart
    obtain ⟨id, handle, there, callback⟩ := waiting.known other old
    refine ⟨(List.mem_erase_of_ne apart).mpr id, handle, ?_, callback⟩
    rw [← there]
    exact Pool.get?_erase_of_ne apart

end Waiting

-----------------------------------------------------------------------------------------
-- A transfer and what its run holds
-----------------------------------------------------------------------------------------

/-- A transfer that may start: an outgoing session with one content over IBB, whose file is
open, and of which nothing was read or sent.
-/
structure ReadyTransfer where
  state : State
  p : SessionPtr
  js : JingleSession
  sc : SessionContent
  d : FtPtr
  t : TransportPtr
  ft : JingleFT
  jibb : JingleIBB
  reads : List ReadResult
  conveys : Conveys state p js sc d t
  origin : js.origin = .outgoing
  transfer : state.infoList.get? d = some ft
  outgoing : ft.dir = .outgoing
  reading : ft.outfile = some (.reading reads)
  uncounted : ft.transmit = 0
  stream : state.transports.get? t = some (.ibb jibb)
  empty : jibb.buf = []
  unnumbered : jibb.seq = 0
  unfreed : jibb.bufFreed = false
  idle : state.unanswered p = []

/-- The `session_content` of the transfer. -/
def ReadyTransfer.ref (x : ReadyTransfer) : SessionContentRef := { owner := x.p, name := x.sc.name }

/-- The bytes of the file. -/
def ReadyTransfer.file (x : ReadyTransfer) : List UInt8 := fileBytes x.reads

/-- The data packets that carry these blocks. -/
def ReadyTransfer.packets (x : ReadyTransfer) (env : Env) (blocks : List (List UInt8))
    : List LmMessage :=
  dataPackets env x.js.toJid x.jibb.sid 0 blocks

/-- The block size in force. -/
def State.blockSize (s : State) (t : TransportPtr) : Nat :=
  match s.transports.get? t with
  | some (.ibb jibb) => jibb.blocksize
  | _ => 0

theorem State.blockSize_of {s : State} {t : TransportPtr} {jibb : JingleIBB}
    (there : s.transports.get? t = some (.ibb jibb))
    : s.blockSize t = jibb.blocksize := by
  rw [blockSize, there]

/-- A transfer that is running: what was sent, what is buffered and what is unread make up the
file.
-/
structure Holding (env : Env) (x : ReadyTransfer) (s : State) (sc : SessionContent)
    (ft : JingleFT) (jibb : JingleIBB) (reads : List ReadResult) (blocks : List (List UInt8))
    : Prop where
  pumps : Pumps s x.p { x.js with content := [sc] } sc x.d x.t ft jibb reads
  named : sc.name = x.sc.name
  sid : jibb.sid = x.jibb.sid
  seq : jibb.seq = blocks.length
  bytes : blocks.flatten ++ jibb.buf ++ fileBytes reads = x.file
  counted : ft.transmit + (fileBytes reads).length = x.file.length
  summed : ft.md5.seen ++ fileBytes reads = x.file
  size : ft.size = x.ft.size
  sent : s.requests x.p = x.state.requests x.p ++ x.packets env blocks

/-- A transfer that is over: everything was sent, and then the hash and the end. -/
structure Closed (env : Env) (x : ReadyTransfer) (s : State) (blocks : List (List UInt8))
    : Prop where
  gone : s.sessions.get? x.p = none
  bytes : blocks.flatten = x.file
  transfer : ∃ ft, s.infoList.get? x.d = some ft ∧ ft.transmit = x.file.length
    ∧ ft.state = .ending ∧ ft.hash = some (env.md5 x.file)
  sent : s.requests x.p = x.state.requests x.p ++ x.packets env blocks
    ++ [hashIq x.js.toJid x.js.sid (some (env.md5 x.file)), sessionTerminateIq x.js "success"]

section Holding

variable {env : Env} {x : ReadyTransfer} {s s' : State} {sc : SessionContent} {ft : JingleFT}
  {jibb : JingleIBB} {reads : List ReadResult} {blocks : List (List UInt8)} {ahs : List AckPtr}

/-- What one more packet adds to what was sent. -/
theorem ReadyTransfer.packets_append (x : ReadyTransfer) (env : Env)
    (blocks : List (List UInt8)) (block : List UInt8)
    : x.packets env (blocks ++ [block])
      = x.packets env blocks
        ++ [ibbDataIq env x.js.toJid block x.jibb.sid blocks.length] := by
  rw [packets, dataPackets_append, Nat.zero_add]
  rfl

/-- A block cut off the buffer goes out. -/
theorem Holding.sentBlock (holding : Holding env x s sc ft jibb reads blocks)
    (enough : jibb.blocksize ≤ jibb.buf.length)
    : ∃ block, block.length = jibb.blocksize
      ∧ Holding env x (s.sentBlock env x.ref { x.js with content := [sc] } x.t jibb) sc ft
        jibb.cut reads (blocks ++ [block]) := by
  let block := jibb.buf.take jibb.blocksize
  have pumps := holding.pumps
  refine ⟨block, List.length_take_of_le enough, ?_⟩
  exact {
    pumps := {
      conveys := pumps.conveys.congr rfl
      transfer := pumps.transfer
      stream := State.withIbb_get? pumps.stream
      outgoing := pumps.outgoing
      reading := pumps.reading
      running := pumps.running
      unfreed := pumps.unfreed
      room := Nat.le_trans (by simp [JingleIBB.cut]) pumps.room
    }
    named := holding.named
    sid := holding.sid
    seq := by simp [JingleIBB.cut, holding.seq]
    bytes := by
      rw [List.flatten_append, List.flatten_singleton, List.append_assoc _ block]
      change blocks.flatten ++ (block ++ jibb.buf.drop jibb.blocksize) ++ _ = _
      rw [List.take_append_drop]
      exact holding.bytes
    counted := holding.counted
    summed := holding.summed
    size := holding.size
    sent := by
      rw [x.packets_append, ← List.append_assoc, ← holding.sent, ← holding.seq, ← holding.sid]
      exact State.requests_requested (some (.ibbSend x.ref)) 0
  }

/-- Bytes go from the file into the buffer. -/
theorem Holding.readOn (holding : Holding env x s sc ft jibb reads blocks)
    {rest : List ReadResult} {got : List UInt8} (split : fileBytes reads = got ++ fileBytes rest)
    : Holding env x (s.readOn x.d x.t ft jibb rest got) sc (ft.readOn rest got) (jibb.push got)
        rest blocks where
  pumps := holding.pumps.readOn rest got
  named := holding.named
  sid := holding.sid
  seq := holding.seq
  bytes := by
    rw [← holding.bytes, split]
    simp [JingleIBB.push]
  counted := by
    have counted := holding.counted
    rw [split, List.length_append] at counted
    simp only [JingleFT.readOn]
    omega
  summed := by
    rw [← holding.summed, split]
    simp [JingleFT.readOn, GChecksum.seen]
  size := holding.size
  sent := holding.sent

/-- The block size is the one of the stream. -/
theorem Holding.blockSize (holding : Holding env x s sc ft jibb reads blocks)
    : s.blockSize x.t = jibb.blocksize :=
  State.blockSize_of holding.pumps.stream

/-- What is left in the buffer, as the last packets. -/
def JingleIBB.rest (jibb : JingleIBB) : List (List UInt8) :=
  if jibb.buf = [] then [] else [jibb.buf]

theorem JingleIBB.flatten_rest (jibb : JingleIBB) : jibb.rest.flatten = jibb.buf := by
  unfold rest
  split
  · rename_i empty
    rw [empty]
    rfl
  · simp

/-- Flushing the buffer at the end of the file. -/
theorem Holding.flushed (holding : Holding env x s sc ft jibb reads blocks)
    : (s.flushed env x.ref { x.js with content := [sc] } x.t jibb).requests x.p
        = x.state.requests x.p ++ x.packets env (blocks ++ jibb.rest) := by
  unfold State.flushed JingleIBB.rest
  split
  · rw [List.append_nil]
    exact holding.sent
  · rw [x.packets_append, ← List.append_assoc, ← holding.sent, ← holding.seq, ← holding.sid]
    exact State.requests_requested (some (.ibbSend x.ref)) 0

/-- The end of the file, with everything read. -/
theorem Holding.finished (holding : Holding env x s sc ft jibb reads blocks)
    (all : fileBytes reads = [])
    : Closed env x (s.finished env x.p { x.js with content := [sc] } sc x.d x.t ft reads jibb)
        (blocks ++ jibb.rest) where
  gone := Pool.get?_erase_self _ _
  bytes := by
    rw [List.flatten_append, jibb.flatten_rest, ← holding.bytes, all, List.append_nil]
  transfer := by
    have summed := holding.summed
    have counted := holding.counted
    rw [all, List.append_nil] at summed
    rw [all, List.length_nil, Nat.add_zero] at counted
    let ref : SessionContentRef := { owner := x.p, name := sc.name }
    have there : (s.flushed env ref { x.js with content := [sc] } x.t jibb).infoList.get? x.d
        = some ft := by
      rw [State.flushed_infoList]
      exact holding.pumps.transfer
    refine ⟨ft.finished env reads, State.withFt_get? there, counted, rfl, ?_⟩
    rw [JingleFT.finished, summed]
  sent := by
    have summed := holding.summed
    rw [all, List.append_nil] at summed
    have flushed := holding.flushed
    let js : JingleSession := { x.js with content := [sc] }
    let s₁ := (s.flushed env { owner := x.p, name := sc.name } js x.t jibb).withFt x.d
      (ft.finished env reads)
    let s₂ := s₁.requested (js.ident x.p)
      (hashIq js.toJid js.sid (some (env.md5 ft.md5.seen))) none 0 true
    have sent₁ : s₁.requests x.p
        = x.state.requests x.p ++ x.packets env (blocks ++ jibb.rest) := by
      rw [← flushed]
      unfold ReadyTransfer.ref
      rw [← holding.named]
      rfl
    have sent₂ : s₂.requests x.p = s₁.requests x.p ++ _ := State.requests_requested none 0
    change (s₂.requested (js.ident x.p) (sessionTerminateIq js "success") none 0 true).requests
      x.p = _
    rw [State.requests_requested, sent₂, sent₁, summed]
    simp [js, sessionTerminateIq]

/-- Only the state of the transfer changes. -/
theorem Holding.withState (holding : Holding env x s sc ft jibb reads blocks)
    (state : JingleFTState)
    : Holding env x (s.withFt x.d { ft with state }) sc { ft with state } jibb reads blocks where
  pumps := { holding.pumps with
    conveys := holding.pumps.conveys.congr rfl
    transfer := State.withFt_get? holding.pumps.transfer
  }
  named := holding.named
  sid := holding.sid
  seq := holding.seq
  bytes := holding.bytes
  counted := holding.counted
  summed := holding.summed
  size := holding.size
  sent := holding.sent

theorem Holding.ref (holding : Holding env x s sc ft jibb reads blocks)
    : { owner := x.p, name := sc.name } = x.ref := by
  rw [ReadyTransfer.ref, holding.named]

/-- The last packet that flushes the buffer, if there is one. -/
def ShortBlock (size : Nat) (last : List (List UInt8)) : Prop :=
  last = [] ∨ ∃ block, block ≠ [] ∧ block.length ≤ size ∧ last = [block]

/-- The end of the file leaves the block size as it is. -/
theorem State.finished_blockSize (there : s.transports.get? x.t = some (.ibb jibb)) (env : Env)
    (p : SessionPtr) (js : JingleSession) (sc : SessionContent) (d : FtPtr) (ft : JingleFT)
    (rest : List ReadResult)
    : (s.finished env p js sc d x.t ft rest jibb).blockSize x.t = jibb.blocksize := by
  have flushed : (s.flushed env { owner := p, name := sc.name } js x.t jibb).blockSize x.t
      = jibb.blocksize := by
    unfold State.flushed
    split
    · exact (State.blockSize_of (State.withIbb_get? there)).trans rfl
    · exact (State.blockSize_of (State.withIbb_get? there)).trans rfl
  exact flushed

/-- What a request for data comes to: a block was sent, or the transfer is over, or it stays. -/
inductive Went (env : Env) (x : ReadyTransfer) (sc : SessionContent) (ft : JingleFT)
    (jibb : JingleIBB) (reads : List ReadResult) (blocks : List (List UInt8))
    (ahs : List AckPtr) (s' : State)
    : Prop
  | sent {ft' : JingleFT} {jibb' : JingleIBB} {reads' : List ReadResult} {block : List UInt8}
    {ah : AckPtr} (holding : Holding env x s' sc ft' jibb' reads' (blocks ++ [block]))
    (length : block.length = jibb.blocksize) (blocksize : jibb'.blocksize = jibb.blocksize)
    (state : ft'.state = ft.state) (waiting : Waiting x.ref s' (ahs ++ [ah])) (fresh : ah ∉ ahs)
    (steady : Steady reads → Steady reads')
    : Went env x sc ft jibb reads blocks ahs s'
  | ended {last : List (List UInt8)} {more : List AckPtr}
    (closed : Closed env x s' (blocks ++ last))
    (blocksize : s'.blockSize x.t = jibb.blocksize) (short : ShortBlock jibb.blocksize last)
    (waiting : Waiting x.ref s' (ahs ++ more)) (fresh : ∀ ah ∈ more, ah ∉ ahs)
    (same : more.length = last.length)
    : Went env x sc ft jibb reads blocks ahs s'
  | failed {ft' : JingleFT} {jibb' : JingleIBB} {reads' : List ReadResult}
    (holding : Holding env x s' sc ft' jibb' reads' blocks)
    (blocksize : jibb'.blocksize = jibb.blocksize) (unsteady : ¬Steady reads)
    (state : ft'.state = ft.state ∨ ft'.state = .error) (waiting : Waiting x.ref s' ahs)
    : Went env x sc ft jibb reads blocks ahs s'

/-- The packet that flushes the buffer waits, if there is one. -/
theorem Waiting.flushed (waiting : Waiting x.ref s ahs) (env : Env) (js : JingleSession)
    (t : TransportPtr) (jibb : JingleIBB)
    : ∃ more, Waiting x.ref (s.flushed env x.ref js t jibb) (ahs ++ more)
        ∧ (∀ ah ∈ more, ah ∉ ahs) ∧ more.length = jibb.rest.length := by
  unfold State.flushed JingleIBB.rest
  split
  · refine ⟨[], ?_, by simp, rfl⟩
    rw [List.append_nil]
    exact waiting.congr rfl rfl
  · let next : JingleIBB := { jibb with
      seq := jibb.seq + 1, bufFreed := decide (0 < jibb.sizeBuf) }
    have waiting' : Waiting x.ref (s.withIbb t next) ahs := waiting.congr rfl rfl
    refine ⟨[s.ackHandlers.next], waiting'.sentData env js t jibb jibb.buf, ?_, rfl⟩
    · intro ah member old
      rw [List.mem_singleton.mp member] at old
      exact Nat.lt_irrefl _ (waiting.lt_next old)

/-- The hash and the end of the session are sent without a look at their replies. -/
theorem Waiting.finished (waiting : Waiting x.ref s ahs) (env : Env)
    (named : sc.name = x.sc.name) (js : JingleSession) (d : FtPtr) (t : TransportPtr)
    (ft : JingleFT) (rest : List ReadResult) (jibb : JingleIBB)
    : ∃ more, Waiting x.ref (s.finished env x.p js sc d t ft rest jibb) (ahs ++ more)
        ∧ (∀ ah ∈ more, ah ∉ ahs) ∧ more.length = jibb.rest.length := by
  obtain ⟨more, flushed, fresh, same⟩ := waiting.flushed env js t jibb
  refine ⟨more, ?_, fresh, same⟩
  have changed : Waiting x.ref ((s.flushed env x.ref js t jibb).withFt d (ft.finished env rest))
      (ahs ++ more) := flushed.congr rfl rfl
  have announced := (changed.requested (js.ident x.p)
    (hashIq js.toJid js.sid (some (env.md5 ft.md5.seen))) 0 true).requested (js.ident x.p)
    (sessionTerminateIq js "success") 0 true
  refine announced.congr ?_ ?_
  · rw [State.finished, named]
    rfl
  · rw [State.finished, named]
    rfl

/-- By cases on how the request for data ended. -/
theorem Holding.went (holding : Holding env x s sc ft jibb reads blocks)
    (waiting : Waiting x.ref s ahs) (few : jibb.buf.length ≤ jibb.blocksize)
    (pumped : Pumped env s x.p { x.js with content := [sc] } sc x.d x.t ft jibb reads s')
    : Went env x sc ft jibb reads blocks ahs s' := by
  have fresh : s.ackHandlers.next ∉ ahs :=
    fun old => Nat.lt_irrefl _ (waiting.lt_next old)
  cases pumped with
  | @sent rest got split some enough steady =>
      rw [holding.ref]
      obtain ⟨block, length, holding'⟩ := (holding.readOn split).sentBlock enough
      have waiting' : Waiting x.ref ((s.readOn x.d x.t ft jibb rest got).withIbb x.t
          (jibb.push got).cut) ahs := waiting.congr rfl rfl
      have waits := waiting'.sentData env { x.js with content := [sc] } x.t (jibb.push got)
        ((jibb.push got).buf.take jibb.blocksize)
      exact .sent holding' length rfl rfl waits fresh steady
  | @ended rest got split spent little =>
      have waiting' : Waiting x.ref (s.readOn x.d x.t ft jibb rest got) ahs :=
        waiting.congr rfl rfl
      obtain ⟨more, waiting', fresh', same⟩ := waiting'.finished env holding.named
        { x.js with content := [sc] } x.d x.t (ft.readOn rest got) rest (jibb.push got)
      refine .ended ((holding.readOn split).finished spent) ?_ ?_ ?_ fresh' same
      · exact State.finished_blockSize (holding.readOn split).pumps.stream env ..
      · unfold JingleIBB.rest
        by_cases empty : (jibb.push got).buf = []
        · rw [if_pos empty]
          exact Or.inl rfl
        · rw [if_neg empty]
          refine Or.inr ⟨_, empty, ?_, rfl⟩
          rcases little with rfl | little
          · simpa [JingleIBB.push] using few
          · exact Nat.le_of_lt little
      · exact waiting'
  | @failed rest got state split unsteady state_eq =>
      exact .failed ((holding.readOn split).withState state) rfl unsteady state_eq
        (waiting.congr rfl rfl)

end Holding

-----------------------------------------------------------------------------------------
-- Turns of the peer
-----------------------------------------------------------------------------------------

/-- What the peer of a transfer does next. -/
inductive Turn where
  | reply (ah : AckPtr) (message : LmMessage)
  | accept (message : LmMessage)
  | terminate (message : LmMessage)

def Turn.input : Turn → Input
  | .reply ah message => .reply ah message
  | .accept message => .jingleIq message
  | .terminate message => .jingleIq message

def Turn.reply? : Turn → Option LmMessage
  | .reply _ message => some message
  | .accept _ => none
  | .terminate _ => none

/-- An IQ with this request for the session. -/
def AsksFor (env : Env) (s : State) (p : SessionPtr) (action : JingleAction)
    (message : LmMessage)
    : Prop :=
  ∃ jn, jingleRequest env message = some jn ∧ jn.action = action
    ∧ (sessionFind s jn).map Prod.fst = some p

instance (env : Env) (s : State) (p : SessionPtr) (action : JingleAction) (message : LmMessage)
    : Decidable (AsksFor env s p action message) :=
  decidable_of_iff ((jingleRequest env message).any (fun jn =>
      jn.action == action && (sessionFind s jn).map Prod.fst == some p) = true) (by
    simp only [AsksFor, Option.any_eq_true, Bool.and_eq_true, beq_iff_eq])

/-- The turn is about the session: a reply to one of its data packets, or a request for it. -/
def Turn.Fits (env : Env) (s : State) (p : SessionPtr) : Turn → Prop
  | .reply ah _ => ah ∈ s.unanswered p
  | .accept message => AsksFor env s p .sessionAccept message
  | .terminate message => AsksFor env s p .sessionTerminate message

instance (env : Env) (s : State) (p : SessionPtr) (turn : Turn)
    : Decidable (turn.Fits env s p) := by
  cases turn <;> unfold Turn.Fits <;> infer_instance

/-- A run so far: its state, the block sizes in force at the start and at each reply, and the
turns that were taken.
-/
structure Course where
  state : State
  sizes : List Nat
  turns : List Turn

/-- The replies so far. -/
def Course.replies (course : Course) : List LmMessage := course.turns.filterMap Turn.reply?

/-- The run right after `start`. -/
structure ReadyTransfer.Starts (env : Env) (x : ReadyTransfer) (course : Course) : Prop where
  run : ∃ w, ftStart env w x.ref x.state = .done () course.state
  sizes : course.sizes = [x.state.blockSize x.t]
  turns : course.turns = []

/-- The run takes a turn. -/
structure ReadyTransfer.Takes (env : Env) (x : ReadyTransfer) (course : Course)
    (input : World × Turn) (next : Course)
    : Prop where
  fits : input.2.Fits env course.state x.p
  step : Step env course.state (input.1, input.2.input) next.state
  sizes : next.sizes = course.sizes
    ++ (input.2.reply?.map (fun _ => course.state.blockSize x.t)).toList
  turns : next.turns = course.turns ++ [input.2]

/-- The runs of a transfer in which every turn meets `allowed`. -/
abbrev ReadyTransfer.Runs (env : Env) (x : ReadyTransfer)
    (allowed : Course → World × Turn → Prop)
    : Course → Prop :=
  Reach (x.Starts env) (x.Takes env) allowed

theorem ReadyTransfer.Takes.replies {env : Env} {x : ReadyTransfer} {course next : Course}
    {input : World × Turn} (takes : x.Takes env course input next)
    : next.replies = course.replies ++ input.2.reply?.toList := by
  rw [Course.replies, takes.turns, List.filterMap_append]
  cases reply : input.2.reply? <;> simp [Course.replies, reply]

-----------------------------------------------------------------------------------------
-- Replies
-----------------------------------------------------------------------------------------

/-- The state in which the callback of a handle runs. -/
def State.fire (s : State) (ah : AckPtr) : State :=
  { s with fired := s.fired ++ [(ah, .response)] }

section Replies

variable {env : Env} {w : World} {s s' : State} {ah : AckPtr} {handle : JingleAckHandle}
  {callback : AckCallback} {message : LmMessage}

theorem jingleHandleAckIq_callback (there : s.ackHandlers.get? ah = some handle)
    (known : handle.callback = some callback)
    : jingleHandleAckIq env w ah message s
      = (do
          callback.run env w (some message)
          jingleAckHandlerFree ah
          Prog.modify (fun s => { s with idHandlers := s.idHandlers.erase ah }) : Run Unit)
          (s.fire ah) := by
  have read : readAck ah s = .done handle s := by
    change alive .ackHandle (s.ackHandlers.get? ah) s = _
    rw [there]
    rfl
  rw [jingleHandleAckIq, bind_done read, known]
  rfl

theorem reply_runs (there : s.ackHandlers.get? ah = some handle)
    (known : handle.callback = some callback)
    (runs : callback.run env w (some message) (s.fire ah) = .done () s')
    : jingleHandleAckIq env w ah message s = .done () (s'.answered ah) := by
  rw [jingleHandleAckIq_callback there known, bind_done runs]
  rfl

theorem reply_ran (there : s.ackHandlers.get? ah = some handle)
    (known : handle.callback = some callback)
    (ran : jingleHandleAckIq env w ah message s = .done () s')
    : ∃ s₁, callback.run env w (some message) (s.fire ah) = .done () s₁
        ∧ s' = s₁.answered ah := by
  rw [jingleHandleAckIq_callback there known] at ran
  obtain ⟨_, s₁, runs, rest⟩ := of_bind_done ran
  cases rest
  exact ⟨s₁, runs, rfl⟩

/-- A reply for a session that is gone does nothing, if control comes back at all. -/
theorem ibbReply_gone {sc : SessionContentRef} (gone : s.sessions.get? sc.owner = none)
    (ran : jingleIbbHandleAckIqSend env w sc s = .done () s')
    : s' = s := by
  rw [jingleIbbHandleAckIqSend] at ran
  obtain ⟨found, s₁, finds, ran⟩ := of_bind_done ran
  rw [sessionFindByRef, bind_get] at finds
  split at finds
  · cases finds
    cases ran
    rfl
  · obtain ⟨owner, s₂, reads, _⟩ := of_bind_done finds
    change alive .session (s.sessions.get? sc.owner) s = _ at reads
    rw [gone] at reads
    cases reads

/-- Without any session a reply does nothing. -/
theorem ibbReply_empty (empty : s.sessions.cells = []) (w : World) (sc : SessionContentRef)
    : jingleIbbHandleAckIqSend env w sc s = .done () s := by
  have nothing : sessionFindByRef sc s = .done none s := by
    rw [sessionFindByRef, bind_get, empty]
    rfl
  rw [jingleIbbHandleAckIqSend, bind_done nothing]
  rfl

end Replies

-----------------------------------------------------------------------------------------
-- The phases of a run
-----------------------------------------------------------------------------------------

/-- The transfer is running, it is over, or the peer has ended the session. -/
inductive Phase (env : Env) (x : ReadyTransfer) (course : Course) : Prop
  | running {sc : SessionContent} {ft : JingleFT} {jibb : JingleIBB} {reads : List ReadResult}
    {blocks : List (List UInt8)} {ahs : List AckPtr}
    (holding : Holding env x course.state sc ft jibb reads blocks)
    (waiting : Waiting x.ref course.state ahs) (one : ahs.length ≤ 1)
    (going : ft.state ≠ .ending)
    (sizes : ahs ≠ [] → course.sizes = blocks.map List.length)
    (answered : course.replies.length + ahs.length = blocks.length)
    (steady : Steady x.reads → Steady reads ∧ ahs ≠ [])
    : Phase env x course
  | finished {blocks last : List (List UInt8)} {size : Nat} {ahs : List AckPtr}
    (closed : Closed env x course.state (blocks ++ last))
    (short : ShortBlock size last)
    (waiting : Waiting x.ref course.state ahs) (one : ahs.length ≤ 1)
    (sizes : blocks.map List.length ++ [size] <+: course.sizes)
    (answered : course.replies.length + ahs.length = (blocks ++ last).length)
    : Phase env x course
  | stopped {ft : JingleFT} {blocks : List (List UInt8)} {ahs : List AckPtr}
    (gone : course.state.sessions.get? x.p = none)
    (transfer : course.state.infoList.get? x.d = some ft)
    (sent : course.state.requests x.p = x.state.requests x.p ++ x.packets env blocks)
    (waiting : Waiting x.ref course.state ahs) (one : ahs.length ≤ 1)
    (asked : ∃ message, .terminate message ∈ course.turns)
    : Phase env x course

section Phases

variable {env : Env} {x : ReadyTransfer} {s s' : State} {sc : SessionContent} {ft : JingleFT}
  {jibb : JingleIBB} {reads : List ReadResult} {blocks : List (List UInt8)} {ahs : List AckPtr}

/-- Only these parts of the state matter. -/
theorem Holding.congr (holding : Holding env x s sc ft jibb reads blocks)
    (sessions : s'.sessions = s.sessions) (infoList : s'.infoList = s.infoList)
    (transports : s'.transports = s.transports) (sent : s'.sent = s.sent)
    : Holding env x s' sc ft jibb reads blocks where
  pumps := { holding.pumps with
    conveys := holding.pumps.conveys.congr sessions
    transfer := infoList ▸ holding.pumps.transfer
    stream := transports ▸ holding.pumps.stream
  }
  named := holding.named
  sid := holding.sid
  seq := holding.seq
  bytes := holding.bytes
  counted := holding.counted
  summed := holding.summed
  size := holding.size
  sent := by
    rw [State.requests, sent]
    exact holding.sent

theorem Closed.congr (closed : Closed env x s blocks) (sessions : s'.sessions = s.sessions)
    (infoList : s'.infoList = s.infoList) (sent : s'.sent = s.sent)
    : Closed env x s' blocks where
  gone := sessions ▸ closed.gone
  bytes := closed.bytes
  transfer := infoList ▸ closed.transfer
  sent := by
    rw [State.requests, sent]
    exact closed.sent

/-- What is left of the handles once the one replied to is freed. -/
theorem filter_answered {ah : AckPtr} {more : List AckPtr} (fresh : ∀ other ∈ more, other ∉ [ah])
    : ([ah] ++ more).filter (fun other => other != ah) = more := by
  rw [List.filter_append, List.filter_cons_of_neg (by simp), List.filter_nil, List.nil_append]
  refine List.filter_eq_self.mpr (fun other member => ?_)
  simpa using fresh other member

/-- The reply that asked for the data is done with. -/
theorem Went.answered {ah : AckPtr} (went : Went env x sc ft jibb reads blocks [ah] s')
    : Went env x sc ft jibb reads blocks [] (s'.answered ah) := by
  cases went with
  | @sent ft' jibb' reads' block next holding length blocksize state waiting fresh steady =>
      have apart : ∀ other ∈ [next], other ∉ [ah] := by
        intro other member
        rwa [List.mem_singleton.mp member]
      have left : Waiting x.ref (s'.answered ah) [next] :=
        filter_answered apart ▸ waiting.answered ah
      exact .sent (holding.congr rfl rfl rfl rfl) length blocksize state left (by simp) steady
  | ended closed blocksize short waiting fresh same =>
      have left : Waiting x.ref (s'.answered ah) _ := filter_answered fresh ▸ waiting.answered ah
      exact .ended (closed.congr rfl rfl rfl) blocksize short left (by simp) same
  | failed holding blocksize unsteady state waiting =>
      refine .failed (holding.congr rfl rfl rfl rfl) blocksize unsteady state ?_
      have left := waiting.answered ah
      rwa [List.filter_cons_of_neg (by simp), List.filter_nil] at left

/-- The transfer when `start` asks for the first data. -/
def ReadyTransfer.started (x : ReadyTransfer) : JingleFT :=
  { x.ft with state := .starting, md5 := .running [] }

theorem ReadyTransfer.begins (env : Env) (x : ReadyTransfer)
    : Holding env x (x.state.withFt x.d x.started) x.sc x.started x.jibb x.reads [] where
  pumps := {
    conveys := by
      have same : ({ x.js with content := [x.sc] } : JingleSession) = x.js := by
        rw [← x.conveys.only]
      rw [same]
      exact x.conveys.congr rfl
    transfer := State.withFt_get? x.transfer
    stream := x.stream
    outgoing := x.outgoing
    reading := x.reading
    running := rfl
    unfreed := x.unfreed
    room := by simp [x.empty]
  }
  named := rfl
  sid := rfl
  seq := x.unnumbered
  bytes := by simp [x.empty, file]
  counted := by simp [started, x.uncounted, file]
  summed := rfl
  size := rfl
  sent := (List.append_nil _).symm

theorem ReadyTransfer.waits (x : ReadyTransfer) : Waiting x.ref x.state [] where
  unanswered := x.idle
  known := by
    intro ah member
    cases member

/-- A request for data at the start or at a reply leads to the next phase. -/
theorem Went.phase {course : Course} (went : Went env x sc ft jibb reads blocks [] course.state)
    (going : ft.state ≠ .ending)
    (sizes : course.sizes = blocks.map List.length ++ [jibb.blocksize])
    (answered : course.replies.length = blocks.length)
    (steady : Steady x.reads → Steady reads)
    : Phase env x course := by
  cases went with
  | sent holding length blocksize state waiting fresh onward =>
      refine .running holding waiting (Nat.le_refl _) (state ▸ going) ?_ ?_ ?_
      · intro _
        rw [sizes, List.map_append, List.map_singleton, length]
      · simp [answered]
      · exact fun ok => ⟨onward (steady ok), List.cons_ne_nil _ _⟩
  | @ended last more closed blocksize short waiting fresh same =>
      have few : more.length ≤ 1 := by
        rw [same]
        rcases short with rfl | ⟨block, _, _, rfl⟩
        · exact Nat.zero_le _
        · exact Nat.le_refl _
      refine .finished closed short waiting few ?_ ?_
      · exact sizes.symm ▸ List.prefix_rfl
      · simp [answered, same]
  | failed holding blocksize unsteady state waiting =>
      refine .running holding waiting (Nat.zero_le _) ?_ ?_ ?_ ?_
      · rcases state with state | state
        · exact state ▸ going
        · simp [state]
      · exact fun some => absurd rfl some
      · simp [answered]
      · exact fun ok => absurd (steady ok) unsteady

/-- `start` asks for data. -/
theorem ReadyTransfer.start_went (env : Env) (x : ReadyTransfer) (w : World)
    : ∃ s', ftStart env w x.ref x.state = .done () s'
        ∧ Went env x x.sc x.started x.jibb x.reads [] [] s' := by
  have nothing : x.jibb.buf.length = 0 := by rw [x.empty, List.length_nil]
  obtain ⟨s', runs, pumped⟩ := x.conveys.ftStart_pumps x.transfer x.stream x.outgoing
    x.reading x.unfreed (by omega) env w
  have same : ({ x.js with content := [x.sc] } : JingleSession) = x.js := by
    rw [← x.conveys.only]
  rw [← same] at pumped
  have waiting : Waiting x.ref (x.state.withFt x.d x.started) [] := x.waits.congr rfl rfl
  exact ⟨s', runs, (x.begins env).went waiting (by omega) pumped⟩

theorem Phase.start {course : Course} (starts : x.Starts env course) : Phase env x course := by
  obtain ⟨w, run⟩ := starts.run
  obtain ⟨s', runs, went⟩ := x.start_went env w
  cases runs.symm.trans run
  refine went.phase (by simp [ReadyTransfer.started]) ?_ ?_ (fun ok => ok)
  · rw [starts.sizes, State.blockSize, x.stream]
    rfl
  · rw [Course.replies, starts.turns]
    rfl

-----------------------------------------------------------------------------------------
-- One turn
-----------------------------------------------------------------------------------------

/-- A handle that waits for a data packet of the session has the callback for it. -/
theorem Waiting.callback (waiting : Waiting x.ref s ahs) {ah : AckPtr}
    (member : ah ∈ s.unanswered x.p)
    : ah ∈ ahs ∧ ah ∈ s.idHandlers
      ∧ ∃ handle, s.ackHandlers.get? ah = some handle
        ∧ handle.callback = some (.ibbSend x.ref) := by
  have ours : ah ∈ ahs := waiting.unanswered ▸ member
  exact ⟨ours, waiting.known ah ours⟩

/-- A list of at most one handle that has `ah` is that handle. -/
theorem only_handle {ah : AckPtr} (one : ahs.length ≤ 1) (member : ah ∈ ahs) : ahs = [ah] := by
  cases ahs with
  | nil => cases member
  | cons first rest =>
      cases rest with
      | nil => rw [List.mem_singleton.mp member]
      | cons second rest => simp at one

/-- A reply while the transfer is running: another block goes out, or data is asked for. -/
theorem Holding.reply_went (holding : Holding env x s sc ft jibb reads blocks) {ah : AckPtr}
    (waiting : Waiting x.ref s [ah]) (w : World) (message : LmMessage)
    : ∃ s', jingleHandleAckIq env w ah message s = .done () s'
        ∧ Went env x sc ft jibb reads blocks [] s' := by
  obtain ⟨_, handle, there, callback⟩ := waiting.known ah (List.mem_singleton.mpr rfl)
  have firing : Holding env x (s.fire ah) sc ft jibb reads blocks := holding.congr rfl rfl rfl rfl
  have waits : Waiting x.ref (s.fire ah) [ah] := waiting.congr rfl rfl
  obtain ⟨s₁, runs, sends⟩ := firing.pumps.reply_sends env w
  rw [holding.ref] at runs
  refine ⟨_, reply_runs there callback runs, Went.answered ?_⟩
  rcases sends with ⟨full, rfl⟩ | ⟨few, pumped⟩
  · rw [holding.ref]
    obtain ⟨block, length, sent⟩ := firing.sentBlock (Nat.le_of_lt full)
    have waits' : Waiting x.ref ((s.fire ah).withIbb x.t jibb.cut) [ah] := waits.congr rfl rfl
    refine .sent sent length rfl rfl (waits'.sentData env _ x.t jibb _) ?_ (fun ok => ok)
    exact fun old => Nat.lt_irrefl _ (waits.lt_next old)
  · exact firing.went waits few pumped

/-- A request for a session finds it listed. -/
theorem AsksFor.listed {p : SessionPtr} {action : JingleAction} {message : LmMessage}
    (asks : AsksFor env s p action message)
    : s.sessions.get? p ≠ none := by
  obtain ⟨jn, _, _, found⟩ := asks
  obtain ⟨cell, hit, rfl⟩ := Option.map_eq_some_iff.mp found
  have member : cell ∈ s.sessions.cells := List.mem_of_find?_eq_some hit
  rw [Pool.get?_eq_some_iff.mpr member]
  exact Option.some_ne_none _

/-- A reply after the session is gone only frees its handle. -/
theorem Waiting.reply_gone (waiting : Waiting x.ref s ahs)
    (gone : s.sessions.get? x.p = none) {ah : AckPtr} (member : ah ∈ s.unanswered x.p) {w : World}
    {message : LmMessage} (ran : jingleHandleAckIq env w ah message s = .done () s')
    : s' = (s.fire ah).answered ah := by
  obtain ⟨_, _, handle, there, callback⟩ := waiting.callback member
  obtain ⟨s₁, runs, same⟩ := reply_ran there callback ran
  have silent : s₁ = s.fire ah := by
    have gone' : (s.fire ah).sessions.get? x.ref.owner = none := gone
    exact ibbReply_gone gone' runs
  rw [same, silent]

theorem ReadyTransfer.Takes.asked_before {course next : Course} {input : World × Turn}
    (takes : x.Takes env course input next)
    (asked : ∃ message, .terminate message ∈ course.turns)
    : ∃ message, .terminate message ∈ next.turns := by
  obtain ⟨message, member⟩ := asked
  exact ⟨message, takes.turns ▸ List.mem_append_left _ member⟩

theorem Phase.reply {course next : Course} {w : World} {ah : AckPtr} {message : LmMessage}
    (phase : Phase env x course) (takes : x.Takes env course (w, .reply ah message) next)
    : Phase env x next := by
  have member : ah ∈ course.state.unanswered x.p := takes.fits
  have ran : jingleHandleAckIq env w ah message course.state = .done () next.state :=
    takes.step.2
  have sizes := takes.sizes
  have replies : next.replies = course.replies ++ [message] := takes.replies
  cases phase with
  | running holding waiting one going cut answered steady =>
      have only := only_handle one (waiting.callback member).1
      subst only
      obtain ⟨s', runs, went⟩ := holding.reply_went waiting w message
      cases runs.symm.trans ran
      refine went.phase going ?_ ?_ (fun ok => (steady ok).1)
      · rw [sizes, cut (List.cons_ne_nil _ _), ← holding.blockSize]
        rfl
      · rw [replies, List.length_append]
        exact answered
  | @finished blocks last size ahs closed short waiting one cut answered =>
      have same := waiting.reply_gone closed.gone member ran
      have only := only_handle one (waiting.callback member).1
      subst only
      have left : Waiting x.ref ((course.state.fire ah).answered ah) [] := by
        have fired : Waiting x.ref (course.state.fire ah) [ah] := waiting.congr rfl rfl
        have left := fired.answered ah
        rwa [List.filter_cons_of_neg (by simp), List.filter_nil] at left
      have closed' : Closed env x ((course.state.fire ah).answered ah) (blocks ++ last) :=
        closed.congr rfl rfl rfl
      rw [← same] at left closed'
      refine .finished closed' short left (Nat.zero_le _) ?_ ?_
      · rw [sizes]
        exact cut.trans (List.prefix_append _ _)
      · rw [replies, List.length_append]
        exact answered
  | @stopped ft blocks ahs gone transfer sent waiting one asked =>
      have same := waiting.reply_gone gone member ran
      have fired : Waiting x.ref (course.state.fire ah) ahs := waiting.congr rfl rfl
      have left := fired.answered ah
      rw [← same] at left
      have sessions : next.state.sessions = course.state.sessions := by
        rw [same]
        rfl
      have infoList : next.state.infoList = course.state.infoList := by
        rw [same]
        rfl
      have kept : next.state.requests x.p = course.state.requests x.p := by
        rw [same]
        rfl
      exact .stopped (sessions ▸ gone) (infoList ▸ transfer) (kept.trans sent) left
        (Nat.le_trans (List.length_filter_le _ _) one) (takes.asked_before asked)

/-- What a session-accept leaves of a running transfer. -/
theorem Holding.accept (holding : Holding env x s sc ft jibb reads blocks) {message : LmMessage}
    (asks : AsksFor env s x.p .sessionAccept message) {w : World}
    (ran : handleInput env w (.jingleIq message) s = .done () s')
    : ∃ sc' jibb', Holding env x s' sc' ft jibb' reads blocks
        ∧ s'.ackHandlers = s.ackHandlers ∧ s'.idHandlers = s.idHandlers := by
  obtain ⟨jn, requested, action, found⟩ := asks
  obtain ⟨result, s₁, runs, rest⟩ := of_bind_done ran
  cases rest
  have pumps := holding.pumps
  obtain ⟨answer, lowered⟩ :=
    pumps.conveys.accept_lowers pumps.stream requested action found runs
  obtain ⟨state, conveys⟩ := lowered.conveys
  obtain ⟨blocksize, _, stream⟩ := lowered.stream
  refine ⟨{ sc with state }, { jibb with blocksize }, ?_, lowered.ackHandlers, lowered.idHandlers⟩
  exact {
    pumps := {
      conveys := conveys
      transfer := lowered.infoList ▸ pumps.transfer
      stream := stream
      outgoing := pumps.outgoing
      reading := pumps.reading
      running := pumps.running
      unfreed := pumps.unfreed
      room := pumps.room
    }
    named := holding.named
    sid := holding.sid
    seq := holding.seq
    bytes := holding.bytes
    counted := holding.counted
    summed := holding.summed
    size := holding.size
    sent := by
      rw [State.requests, lowered.sent]
      exact (State.requests_replied message answer).trans holding.sent
  }

theorem Phase.accept {course next : Course} {w : World} {message : LmMessage}
    (phase : Phase env x course) (takes : x.Takes env course (w, .accept message) next)
    : Phase env x next := by
  have asks : AsksFor env course.state x.p .sessionAccept message := takes.fits
  have sizes : next.sizes = course.sizes := takes.sizes.trans (List.append_nil _)
  have replies : next.replies = course.replies := takes.replies.trans (List.append_nil _)
  cases phase with
  | running holding waiting one going cut answered steady =>
      obtain ⟨sc', jibb', holding', handles, ids⟩ := holding.accept asks takes.step.2
      refine .running holding' (waiting.congr handles ids) one going ?_ ?_ steady
      · rwa [sizes]
      · rwa [replies]
  | finished closed short waiting one cut answered => exact absurd closed.gone asks.listed
  | stopped gone transfer sent waiting one asked => exact absurd gone asks.listed

/-- What a session-terminate leaves of a running transfer. -/
theorem Holding.terminate (holding : Holding env x s sc ft jibb reads blocks)
    {message : LmMessage} (asks : AsksFor env s x.p .sessionTerminate message) {w : World}
    (ran : handleInput env w (.jingleIq message) s = .done () s')
    : Terminated env s s' message x.p x.js x.d ft := by
  obtain ⟨jn, requested, action, found⟩ := asks
  obtain ⟨result, s₁, runs, rest⟩ := of_bind_done ran
  cases rest
  have rest : ft.AtRest := by
    refine ⟨by rw [holding.pumps.running]; simp, ?_⟩
    rw [JingleFT.waiting, holding.pumps.reading]
  have ends := holding.pumps.conveys.terminate_ends holding.pumps.transfer rest requested action
    found runs
  exact {
    sessions := ends.sessions
    infoList := ends.infoList
    reports := ends.reports
    ackHandlers := ends.ackHandlers
    idHandlers := ends.idHandlers
    disk := ends.disk
    sent := ends.sent
  }

theorem Phase.terminate {course next : Course} {w : World} {message : LmMessage}
    (phase : Phase env x course) (takes : x.Takes env course (w, .terminate message) next)
    : Phase env x next := by
  have asks : AsksFor env course.state x.p .sessionTerminate message := takes.fits
  cases phase with
  | running holding waiting one going cut answered steady =>
      have ends := holding.terminate asks takes.step.2
      have gone : next.state.sessions.get? x.p = none := by
        rw [ends.sessions]
        exact Pool.get?_erase_self _ _
      obtain ⟨answer, sent⟩ := ends.sent
      have same : next.state.requests x.p = course.state.requests x.p := by
        rw [State.requests, sent]
        exact State.requests_replied message answer
      exact .stopped gone (ends.transfer holding.pumps.transfer) (same.trans holding.sent)
        (waiting.congr ends.ackHandlers ends.idHandlers) one
        ⟨message, takes.turns ▸ List.mem_append_right _ (List.mem_singleton.mpr rfl)⟩
  | finished closed short waiting one cut answered => exact absurd closed.gone asks.listed
  | stopped gone transfer sent waiting one asked => exact absurd gone asks.listed

theorem Phase.turn {course next : Course} {w : World} {turn : Turn} (phase : Phase env x course)
    (takes : x.Takes env course (w, turn) next)
    : Phase env x next := by
  cases turn with
  | reply ah message => exact phase.reply takes
  | accept message => exact phase.accept takes
  | terminate message => exact phase.terminate takes

/-- Every run is in one of the phases. -/
theorem ReadyTransfer.Runs.phase {allowed : Course → World × Turn → Prop} {course : Course}
    (run : x.Runs env allowed course)
    : Phase env x course := by
  refine run.invariant ?_ ?_
  · exact fun course starts => Phase.start starts
  · exact fun course input next phase _ takes => phase.turn takes

end Phases

-----------------------------------------------------------------------------------------
-- Finding a transfer that may start
-----------------------------------------------------------------------------------------

def ReadResult.isChunk : ReadResult → Bool
  | .chunk _ => true
  | _ => false

/-- Reads that all give bytes are steady. -/
theorem steady_of_chunks {reads : List ReadResult} (chunks : reads.all ReadResult.isChunk = true)
    : Steady reads := by
  induction reads with
  | nil => exact .eof rfl
  | cons read rest ih =>
      obtain ⟨first, later⟩ := List.forall_mem_cons.mp (List.all_eq_true.mp chunks)
      cases read with
      | chunk data => exact .normal rfl (ih (List.all_eq_true.mpr later))
      | again => cases first
      | error => cases first

/-- Whether an outgoing session has this one content, with these objects, over IBB. -/
def conveysAt (s : State) (sc : SessionContentRef) (d : FtPtr) (t : TransportPtr) : Bool :=
  (s.sessions.get? sc.owner).any (fun js =>
    js.origin == .outgoing
    && (sessionFindBySid s js.sid (some js.recipient)).any (fun cell => cell.1 == sc.owner)
    && js.content.length == 1
    && js.content.all (fun content =>
      content.name == sc.name && content.appfuncs == some .fileTransfer
      && content.transfuncs == some .ibb && content.description == some d
      && content.transport == some t))

/-- Whether the transfer has this file open, and nothing was read from it. -/
def opensAt (s : State) (d : FtPtr) (file : List UInt8) : Bool :=
  (s.infoList.get? d).any (fun ft =>
    ft.dir == .outgoing && ft.transmit == 0
    && match ft.outfile with
      | some (.reading reads) => reads.all ReadResult.isChunk && fileBytes reads == file
      | _ => false)

/-- Whether the stream is new, with this block size. -/
def freshAt (s : State) (t : TransportPtr) (blocksize : Nat) : Bool :=
  match s.transports.get? t with
  | some (.ibb jibb) =>
      jibb.buf.isEmpty && jibb.seq == 0 && !jibb.bufFreed && jibb.blocksize == blocksize
  | _ => false

theorem exists_readyTransfer {s : State} {sc : SessionContentRef} {d : FtPtr} {t : TransportPtr}
    {file : List UInt8} {blocksize : Nat}
    (ready : (conveysAt s sc d t && opensAt s d file && freshAt s t blocksize
      && (s.unanswered sc.owner).isEmpty) = true)
    : ∃ x : ReadyTransfer, x.state = s ∧ x.ref = sc ∧ x.d = d ∧ x.t = t ∧ x.file = file
        ∧ Steady x.reads ∧ x.jibb.blocksize = blocksize := by
  simp only [Bool.and_eq_true] at ready
  obtain ⟨⟨⟨conveys, opens⟩, fresh⟩, idle⟩ := ready
  obtain ⟨js, listed, holds⟩ := (Option.any_eq_true _ _).mp conveys
  simp only [Bool.and_eq_true, beq_iff_eq] at holds
  obtain ⟨⟨⟨origin, address⟩, one⟩, all⟩ := holds
  obtain ⟨content, only⟩ := List.length_eq_one_iff.mp one
  have content_ok := List.all_eq_true.mp all content (by simp [only])
  simp only [Bool.and_eq_true, beq_iff_eq] at content_ok
  obtain ⟨⟨⟨⟨name, appfuncs⟩, transfuncs⟩, description⟩, transport⟩ := content_ok
  obtain ⟨cell, hit, same⟩ := (Option.any_eq_true _ _).mp address
  have found : sessionFindBySid s js.sid (some js.recipient) = some (sc.owner, js) := by
    have member : cell ∈ s.sessions.cells := List.mem_of_find?_eq_some hit
    have same : cell.1 = sc.owner := eq_of_beq same
    have there := (Pool.get?_eq_some_iff.mpr member).symm.trans (same ▸ listed)
    rw [hit, ← Option.some.inj there, ← same]
  obtain ⟨ft, transfer, opens⟩ := (Option.any_eq_true _ _).mp opens
  simp only [Bool.and_eq_true, beq_iff_eq] at opens
  obtain ⟨⟨outgoing, uncounted⟩, opens⟩ := opens
  cases reading : ft.outfile with
  | none => simp [reading] at opens
  | some channel =>
  cases channel with
  | writing => simp [reading] at opens
  | reading reads =>
  simp only [reading, Bool.and_eq_true, beq_iff_eq] at opens
  cases stream : s.transports.get? t with
  | none => simp [freshAt, stream] at fresh
  | some transport' =>
  cases transport' with
  | s5b js5b => simp [freshAt, stream] at fresh
  | ibb jibb =>
  simp only [freshAt, stream, Bool.and_eq_true, beq_iff_eq, List.isEmpty_iff, Bool.not_eq_true']
    at fresh
  obtain ⟨⟨⟨empty, unnumbered⟩, unfreed⟩, size⟩ := fresh
  let x : ReadyTransfer := {
    state := s
    p := sc.owner
    js
    sc := content
    d
    t
    ft
    jibb
    reads
    conveys := ⟨listed, found, only, appfuncs, description, transfuncs, transport⟩
    origin
    transfer
    outgoing
    reading
    uncounted
    stream
    empty
    unnumbered
    unfreed
    idle := List.isEmpty_iff.mp idle
  }
  refine ⟨x, rfl, ?_, rfl, rfl, opens.2, steady_of_chunks opens.1, size⟩
  rw [ReadyTransfer.ref, name]

end McabberJingle
