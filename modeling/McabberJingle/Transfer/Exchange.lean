import McabberJingle.System.Instances

/-! The two ends of a transfer between two instances: what the sender holds to as long as its
packets are answered in order, and what the receiver holds to as long as they arrive in order.
-/

namespace McabberJingle

open Program Program.Prog

-----------------------------------------------------------------------------------------
-- What the sender asks
-----------------------------------------------------------------------------------------

section Asks

variable {env : Env} {s₀ s s' : State} {asks : List Ask} {p : SessionPtr} {js : JingleSession}
  {sc : SessionContent} {ref : SessionContentRef} {t : TransportPtr} {jibb : JingleIBB}
  {d : FtPtr} {ft : JingleFT} {reads : List ReadResult}

/-- One more data packet. -/
theorem Asked.sentData (asked : Asked (js.ident ref.owner) s₀ s asks) (env : Env)
    (payload : List UInt8)
    : Asked (js.ident ref.owner) s₀ (s.sentData env ref js t jibb payload)
        (asks ++ [⟨s.ackHandlers.next, ibbDataIq env js.toJid payload jibb.sid jibb.seq,
          some (.ibbSend ref)⟩]) :=
  (asked.requested _ _ 0).congr rfl rfl rfl

/-- The end of the file asks for the last packet, if there is one. -/
theorem Asked.flushed (asked : Asked (js.ident ref.owner) s₀ s asks) (env : Env)
    (t : TransportPtr) (jibb : JingleIBB)
    : ∃ last, Asked (js.ident ref.owner) s₀ (s.flushed env ref js t jibb) (asks ++ last)
        ∧ ∀ ask ∈ last, ask.callback = some (.ibbSend ref) := by
  unfold State.flushed
  split
  · refine ⟨[], ?_, by simp⟩
    rw [List.append_nil]
    exact asked.congr rfl rfl rfl
  · let next : JingleIBB := { jibb with
      seq := jibb.seq + 1, bufFreed := decide (0 < jibb.sizeBuf) }
    have asked' : Asked (js.ident ref.owner) s₀ (s.withIbb t next) asks :=
      asked.congr rfl rfl rfl
    refine ⟨_, asked'.sentData env jibb.buf, ?_⟩
    intro ask member
    rw [List.mem_singleton.mp member]

/-- The requests of one turn: packets and what ends the session, one request being a packet. -/
structure Asks (ref : SessionContentRef) (ident : SessionIdent) (s s' : State) (asks : List Ask)
    : Prop where
  asked : Asked ident s s' asks
  callbacks : ∀ ask ∈ asks, ask.callback = none ∨ ask.callback = some (.ibbSend ref)
  single : ∀ ask, asks = [ask] → ask.callback = some (.ibbSend ref)
  sessions : s'.sessions = s.sessions ∨ s'.sessions = s.sessions.erase ref.owner

/-- A block that is cut off. -/
theorem sentBlock_asks (asked : Asked (js.ident ref.owner) s₀ s []) (env : Env)
    (same : s.sessions = s₀.sessions)
    : ∃ asks, Asks ref (js.ident ref.owner) s₀ (s.sentBlock env ref js t jibb) asks := by
  have cut : Asked (js.ident ref.owner) s₀ (s.withIbb t jibb.cut) [] := asked.congr rfl rfl rfl
  refine ⟨_, cut.sentData env (jibb.buf.take jibb.blocksize), ?_, ?_, Or.inl same⟩
  · intro ask member
    rw [List.mem_singleton.mp member]
    exact Or.inr rfl
  · rintro ask same
    cases same
    rfl

/-- By cases on how the request for data ended. -/
theorem Pumped.asking (pumped : Pumped env s p js sc d t ft jibb reads s')
    (asked : Asked (js.ident p) s₀ s []) (same : s.sessions = s₀.sessions)
    : ∃ asks, Asks { owner := p, name := sc.name } (js.ident p) s₀ s' asks := by
  let ref : SessionContentRef := { owner := p, name := sc.name }
  cases pumped with
  | @sent rest got =>
      have read : Asked (js.ident ref.owner) s₀ (s.readOn d t ft jibb rest got) [] :=
        asked.congr rfl rfl rfl
      exact sentBlock_asks read env same
  | @ended rest got =>
      have read : Asked (js.ident ref.owner) s₀ (s.readOn d t ft jibb rest got) [] :=
        asked.congr rfl rfl rfl
      obtain ⟨last, flushed, packets⟩ := read.flushed env t (jibb.push got)
      have ended : Asked (js.ident p) s₀ (((s.readOn d t ft jibb rest got).flushed env ref js t
          (jibb.push got)).withFt d ((ft.readOn rest got).finished env rest)) ([] ++ last) :=
        flushed.congr rfl rfl rfl
      have told := (ended.requested (hashIq js.toJid js.sid
        (some (env.md5 (ft.readOn rest got).md5.seen))) none 0).requested
        (sessionTerminateIq js "success") none 0
      refine ⟨_, told.congr rfl rfl rfl, ?_, ?_, Or.inr ?_⟩
      · intro ask member
        simp only [List.nil_append, List.append_assoc, List.mem_append, List.mem_singleton]
          at member
        rcases member with packet | rfl | rfl
        · exact Or.inr (packets ask packet)
        · exact Or.inl rfl
        · exact Or.inl rfl
      · intro ask one
        have length := congrArg List.length one
        simp at length
      · change (State.flushed _ env ref js t (jibb.push got)).sessions.erase p = _
        rw [State.flushed_sessions]
        exact congrArg (fun sessions => sessions.erase p) same
  | @failed rest got state =>
      refine ⟨[], asked.congr rfl rfl rfl, by simp, by simp, Or.inl same⟩

end Asks

-----------------------------------------------------------------------------------------
-- What the sender holds to
-----------------------------------------------------------------------------------------

/-- An answer to the handle can come, and asks for the next data at most. -/
structure Answerable (ref : SessionContentRef) (s : State) (ah : AckPtr) : Prop where
  id : ah ∈ s.idHandlers
  handle : ∃ handle, s.ackHandlers.get? ah = some handle
    ∧ (handle.callback = none ∨ handle.callback = some (.ibbSend ref))

/-- All requests so far, each with a handle of its own. -/
structure Ledger (s : State) (asks : List Ask) : Prop where
  old : s.KeepsOld
  below : ∀ ask ∈ asks, ask.ah < s.ackHandlers.next
  distinct : (asks.map Ask.ah).Nodup

section Ledger

variable {ident : SessionIdent} {s s' : State} {asks more : List Ask} {ref : SessionContentRef}

theorem Ledger.asked (ledger : Ledger s asks) (asked : Asked ident s s' more)
    : Ledger s' (asks ++ more) where
  old := asked.keepsOld
  below := by
    intro ask member
    rcases List.mem_append.mp member with before | since
    · rw [asked.next]
      exact Nat.lt_of_lt_of_le (ledger.below ask before) (Nat.le_add_right _ _)
    · exact (asked.bounds since).2
  distinct := by
    rw [List.map_append, List.nodup_append]
    refine ⟨ledger.distinct, ?_, ?_⟩
    · rw [asked.numbered]
      exact List.nodup_range'
    · intro ah before ah' since same
      obtain ⟨first, member, rfl⟩ := List.mem_map.mp before
      obtain ⟨second, member', rfl⟩ := List.mem_map.mp since
      have below := ledger.below first member
      rw [same] at below
      exact Nat.lt_irrefl _ (Nat.lt_of_lt_of_le below (asked.bounds member').1)

theorem Ledger.answered (ledger : Ledger s asks) (ah : AckPtr) : Ledger (s.answered ah) asks where
  old := fun other member => ledger.old other (List.mem_of_mem_erase member)
  below := ledger.below
  distinct := ledger.distinct

/-- The answer to one handle leaves the others. -/
theorem Answerable.answered {ah other : AckPtr} (waits : Answerable ref s other)
    (apart : other ≠ ah)
    : Answerable ref (s.answered ah) other where
  id := (List.mem_erase_of_ne apart).mpr waits.id
  handle := by
    obtain ⟨handle, there, callback⟩ := waits.handle
    refine ⟨handle, ?_, callback⟩
    rw [← there]
    exact Pool.get?_erase_of_ne apart

theorem Asks.answerable (asks : Asks ref ident s s' more) {ask : Ask} (member : ask ∈ more)
    : Answerable ref s' ask.ah := by
  obtain ⟨id, handle, there, callback⟩ := asks.asked.waits member
  exact ⟨id, handle, there, callback ▸ asks.callbacks ask member⟩

/-- What was asked for the session. -/
theorem Asked.requests (asked : Asked ident s s' more)
    : s'.requests ident.ptr = s.requests ident.ptr ++ more.map Ask.iq := by
  have all : (more.map (fun ask => Sent.request ident ask.iq)).filterMap
      (Sent.request? ident.ptr) = more.map Ask.iq := by
    rw [List.filterMap_map]
    refine Eq.trans (List.filterMap_congr (g := fun ask => some ask.iq) (fun ask _ => ?_)) ?_
    · exact if_pos rfl
    · exact congrFun List.filterMap_eq_map more
  rw [State.requests, asked.sent, List.filterMap_append, all]
  rfl

end Ledger

/-- What the sender holds to: the last request waits while the file goes out, and once all of it
went out, every request that was not answered waits.
-/
inductive Sending (env : Env) (x : ReadyTransfer) (s : State) (asks : List Ask)
    (answers : List AckPtr)
    : Prop
  | running {sc : SessionContent} {ft : JingleFT} {jibb : JingleIBB} {reads : List ReadResult}
    {blocks : List (List UInt8)} {front : List Ask} {last : Ask}
    (holding : Holding env x s sc ft jibb reads blocks)
    (waiting : Waiting x.ref s [last.ah]) (steady : Steady reads)
    (positive : 0 < jibb.blocksize) (filled : ∀ block ∈ blocks, block ≠ [])
    (alone : ∀ cell ∈ s.sessions.cells, cell.1 = x.p) (ledger : Ledger s asks)
    (split : asks = front ++ [last]) (iqs : asks.map Ask.iq = x.packets env blocks)
    (answered : answers = front.map Ask.ah)
    : Sending env x s asks answers
  | done {blocks : List (List UInt8)} (closed : Closed env x s blocks)
    (empty : s.sessions.cells = []) (filled : ∀ block ∈ blocks, block ≠ [])
    (ledger : Ledger s asks)
    (iqs : asks.map Ask.iq = x.packets env blocks
      ++ [hashIq x.js.toJid x.js.sid (some (env.md5 x.file)), sessionTerminateIq x.js "success"])
    (few : blocks.length ≤ answers.length + 1) (answered : answers <+: asks.map Ask.ah)
    (waits : ∀ ask ∈ asks.drop answers.length, Answerable x.ref s ask.ah)
    : Sending env x s asks answers

theorem length_dataPackets (env : Env) (recipient sid : String) (seq : Nat)
    (blocks : List (List UInt8))
    : (dataPackets env recipient sid seq blocks).length = blocks.length := by
  induction blocks generalizing seq with
  | nil => rfl
  | cons block rest ih => rw [dataPackets, List.length_cons, ih, List.length_cons]

section Sending

variable {env : Env} {x : ReadyTransfer} {s s' : State} {asks more : List Ask}
  {answers : List AckPtr} {sc : SessionContent} {ft : JingleFT} {jibb : JingleIBB}
  {reads : List ReadResult} {blocks : List (List UInt8)}

/-- What a turn adds to the requests for the session. -/
theorem Asks.added (turn : Asks x.ref (x.js.ident x.p) s s' more)
    (holding : Holding env x s sc ft jibb reads blocks) {iqs : List LmMessage}
    (sent : s'.requests x.p = x.state.requests x.p ++ x.packets env blocks ++ iqs)
    : more.map Ask.iq = iqs := by
  have requests : s'.requests x.p = s.requests x.p ++ more.map Ask.iq := turn.asked.requests
  rw [holding.sent, sent] at requests
  exact (List.append_cancel_left requests).symm

/-- The new handle is the one that waits. -/
theorem Asks.waiting {ask : Ask} (turn : Asks x.ref (x.js.ident x.p) s s' [ask]) {ah : AckPtr}
    (waiting : Waiting x.ref s' [ah])
    : ask.ah = ah := by
  obtain ⟨_, handle, there, callback⟩ := turn.asked.waits (List.mem_singleton.mpr rfl)
  rw [turn.single ask rfl] at callback
  have waits : ask.ah ∈ s'.unanswered x.ref.owner := by
    refine List.mem_map.mpr ⟨(ask.ah, handle), List.mem_filter.mpr ⟨?_, ?_⟩, rfl⟩
    · exact Pool.get?_eq_some_iff.mp there
    · simp [JingleAckHandle.awaitsData, callback]
  rw [waiting.unanswered] at waits
  exact List.mem_singleton.mp waits

/-- The session of the transfer stays the only one, or it was the last one. -/
theorem Asks.alone (turn : Asks x.ref (x.js.ident x.p) s s' more)
    (alone : ∀ cell ∈ s.sessions.cells, cell.1 = x.p)
    : ∀ cell ∈ s'.sessions.cells, cell.1 = x.p := by
  intro cell member
  rcases turn.sessions with same | removed
  · rw [same] at member
    exact alone cell member
  · rw [removed] at member
    exact alone cell (Pool.mem_erase.mp member).1

/-- Without its only session an instance has none. -/
theorem empty_of_gone {p : SessionPtr} (alone : ∀ cell ∈ s.sessions.cells, cell.1 = p)
    (gone : s.sessions.get? p = none)
    : s.sessions.cells = [] := by
  refine List.eq_nil_iff_forall_not_mem.mpr (fun cell member => ?_)
  exact Pool.get?_eq_none_iff.mp gone cell.2 (alone cell member ▸ member)

/-- A request for data at the start or at an answer: the last packet waits, or all went out. -/
theorem Went.sending (went : Went env x sc ft jibb reads blocks [] s')
    (holding : Holding env x s sc ft jibb reads blocks)
    (turn : Asks x.ref (x.js.ident x.p) s s' more) (ledger : Ledger s asks)
    (iqs : asks.map Ask.iq = x.packets env blocks) (steady : Steady reads)
    (positive : 0 < jibb.blocksize) (filled : ∀ block ∈ blocks, block ≠ [])
    (alone : ∀ cell ∈ s.sessions.cells, cell.1 = x.p)
    : Sending env x s' (asks ++ more) (asks.map Ask.ah) := by
  have ledger' := ledger.asked turn.asked
  cases went with
  | @sent ft' jibb' reads' block ah holding' length blocksize state waiting fresh onward =>
      have sent := holding'.sent
      rw [x.packets_append, ← List.append_assoc] at sent
      have added := turn.added holding sent
      obtain ⟨ask, rest, rfl, one, none⟩ := List.map_eq_cons_iff.mp added
      have nothing : rest = [] := List.map_eq_nil_iff.mp none
      subst nothing
      have same := turn.waiting waiting
      refine .running holding' (same ▸ waiting) (onward steady) (blocksize ▸ positive) ?_
        (turn.alone alone) ledger' rfl ?_ rfl
      · intro piece member
        rcases List.mem_append.mp member with old | new
        · exact filled piece old
        · rw [List.mem_singleton.mp new]
          exact List.ne_nil_of_length_pos (length ▸ positive)
      · rw [List.map_append, iqs, added, ← x.packets_append]
  | @ended last waits closed blocksize short waiting fresh same =>
      have sent := closed.sent
      have split : x.packets env (blocks ++ last)
          = x.packets env blocks
            ++ dataPackets env x.js.toJid x.jibb.sid blocks.length last := by
        rw [ReadyTransfer.packets, dataPackets_append, Nat.zero_add]
        rfl
      rw [split, ← List.append_assoc, List.append_assoc _ _ [_, _]] at sent
      have added := turn.added holding sent
      have few : last.length ≤ 1 := by
        rcases short with rfl | ⟨block, _, _, rfl⟩
        · exact Nat.zero_le _
        · exact Nat.le_refl _
      have count : asks.length = blocks.length := by
        rw [← List.length_map Ask.iq, iqs, ReadyTransfer.packets, length_dataPackets]
      refine .done closed (empty_of_gone (turn.alone alone) closed.gone) ?_ ledger' ?_ ?_ ?_ ?_
      · intro piece member
        rcases List.mem_append.mp member with old | new
        · exact filled piece old
        · rcases short with rfl | ⟨block, some, _, rfl⟩
          · cases new
          · rwa [List.mem_singleton.mp new]
      · rw [List.map_append, iqs, added, split, List.append_assoc]
      · rw [List.length_append, List.length_map, count]
        exact Nat.add_le_add_left few _
      · rw [List.map_append]
        exact List.prefix_append _ _
      · intro ask member
        rw [List.length_map, List.drop_left] at member
        exact turn.answerable member
  | failed holding' blocksize unsteady state waiting => exact absurd steady unsteady

/-- A transport that reports on the content calls `start`. -/
theorem ReadyTransfer.initialize_eq (x : ReadyTransfer) (env : Env) (w : World)
    (starting : x.state = { s with starts := s.starts ++ [x.ref] })
    : handleTransportInitialize env w true x.ref s = ftStart env w x.ref x.state := by
  have conveys : Conveys s x.p x.js x.sc x.d x.t := x.conveys.congr (by rw [starting])
  rw [handleTransportInitialize, ReadyTransfer.ref, bind_done (conveys.find x.sc.name),
    bind_done (deref_done rfl)]
  dsimp only
  rw [bind_done (deref_done conveys.content), if_pos rfl,
    bind_done (deref_done conveys.appfuncs), starting]
  rfl

/-- The transfer starts: its first packet waits, or all of it went out. -/
theorem ReadyTransfer.sending (x : ReadyTransfer) (env : Env) (w : World) (old : s.KeepsOld)
    (starting : x.state = { s with starts := s.starts ++ [x.ref] }) (steady : Steady x.reads)
    (positive : 0 < x.jibb.blocksize) (alone : ∀ cell ∈ s.sessions.cells, cell.1 = x.p)
    : ∃ s' asks, handleTransportInitialize env w true x.ref s = .done () s'
        ∧ Sending env x s' asks [] ∧ s.sentUntil s' none = asks.map Ask.stanza := by
  let s₁ := x.state.withFt x.d x.started
  have nothing : x.jibb.buf.length = 0 := by rw [x.empty, List.length_nil]
  obtain ⟨s', runs, went⟩ := x.start_went env w
  obtain ⟨s₂, again, pumped⟩ := x.conveys.ftStart_pumps x.transfer x.stream x.outgoing
    x.reading x.unfreed (by omega) env w
  cases again.symm.trans runs
  have kept : s₁.KeepsOld := by
    intro ah member
    simp only [s₁, State.withFt, starting] at member ⊢
    exact old ah member
  have asked : Asked (x.js.ident x.p) s₁ s₁ [] := .nothing kept rfl rfl rfl
  obtain ⟨asks, turn⟩ := pumped.asking asked rfl
  have ledger : Ledger s₁ [] := ⟨kept, by simp, by simp⟩
  have alone₁ : ∀ cell ∈ s₁.sessions.cells, cell.1 = x.p := by
    intro cell member
    simp only [s₁, State.withFt, starting] at member
    exact alone cell member
  have sending := went.sending (x.begins env) turn ledger rfl steady positive (by simp) alone₁
  refine ⟨s', asks, (x.initialize_eq env w starting).trans runs, sending, ?_⟩
  rw [← turn.asked.sentUntil]
  simp only [State.sentUntil, s₁, State.withFt, starting]

/-- The handle that waits in front. -/
theorem next_ask {ah : AckPtr} (next : answers ++ [ah] <+: asks.map Ask.ah)
    : ∃ ask rest, asks.drop answers.length = ask :: rest ∧ ask.ah = ah := by
  obtain ⟨later, all⟩ := next
  obtain ⟨front, rest, rfl, before, behind⟩ := List.map_eq_append_iff.mp all.symm
  obtain ⟨first, one, rfl, same, two⟩ := List.map_eq_append_iff.mp before
  obtain ⟨ask, none, rfl, here, nothing⟩ := List.map_eq_cons_iff.mp two
  refine ⟨ask, none ++ rest, ?_, here⟩
  rw [← same, List.length_map, List.append_assoc, List.drop_left]
  rfl

/-- The state of the handles does not show what their callbacks did. -/
theorem Sending.discharged {s₁ : State} {ah : AckPtr} (closed : Closed env x s blocks)
    (empty : s.sessions.cells = []) (filled : ∀ block ∈ blocks, block ≠ [])
    (ledger : Ledger s asks)
    (iqs : asks.map Ask.iq = x.packets env blocks
      ++ [hashIq x.js.toJid x.js.sid (some (env.md5 x.file)), sessionTerminateIq x.js "success"])
    (few : blocks.length ≤ answers.length + 1) (next : answers ++ [ah] <+: asks.map Ask.ah)
    (waits : ∀ ask ∈ asks.drop answers.length, Answerable x.ref s ask.ah)
    (same : s₁ = s ∨ s₁ = s.fire ah)
    : Sending env x (s₁.answered ah) asks (answers ++ [ah]) := by
  have closed₁ : Closed env x (s₁.answered ah) blocks := by
    rcases same with rfl | rfl <;> exact closed.congr rfl rfl rfl
  have empty₁ : (s₁.answered ah).sessions.cells = [] := by
    rcases same with rfl | rfl <;> exact empty
  have ledger₁ : Ledger (s₁.answered ah) asks := by
    rcases same with rfl | rfl
    · exact ledger.answered ah
    · have fired : Ledger (s.fire ah) asks := ⟨ledger.old, ledger.below, ledger.distinct⟩
      exact fired.answered ah
  obtain ⟨ask, rest, front, here⟩ := next_ask next
  refine .done closed₁ empty₁ filled ledger₁ iqs ?_ next ?_
  · rw [List.length_append]
    omega
  · intro other member
    rw [List.length_append, ← List.drop_drop, front] at member
    have member : other ∈ rest := member
    have apart : other.ah ≠ ah := by
      have distinct := ledger.distinct.sublist ((List.drop_sublist answers.length asks).map Ask.ah)
      rw [front, List.map_cons, List.nodup_cons] at distinct
      rw [← here]
      exact fun same => distinct.1 (same ▸ List.mem_map_of_mem member)
    have waiting := waits other (front ▸ List.mem_cons_of_mem _ member)
    rcases same with rfl | rfl
    · exact waiting.answered apart
    · have fired : Answerable x.ref (s.fire ah) other.ah := ⟨waiting.id, waiting.handle⟩
      exact fired.answered apart

/-- The answer to a request without a callback only frees its handle. -/
theorem reply_ignored {ah : AckPtr} {handle : JingleAckHandle}
    (there : s.ackHandlers.get? ah = some handle) (none : handle.callback = .none) (w : World)
    (message : LmMessage)
    : jingleHandleAckIq env w ah message s = .done () (s.answered ah) := by
  have read : readAck ah s = .done handle s := by
    change alive .ackHandle (s.ackHandlers.get? ah) s = _
    rw [there]
    rfl
  rw [jingleHandleAckIq, bind_done read, none]
  rfl

/-- The next answer: another request for data, or nothing more to do. -/
theorem Sending.answer (sending : Sending env x s asks answers) {ah : AckPtr}
    (next : answers ++ [ah] <+: asks.map Ask.ah) (w : World) (message : LmMessage)
    : ∃ s' more, Step env s (w, .reply ah message) s'
        ∧ Sending env x s' (asks ++ more) (answers ++ [ah])
        ∧ s.sentUntil s' none = more.map Ask.stanza := by
  cases sending with
  | @running sc ft jibb reads blocks front last holding waiting steady positive filled alone
    ledger split iqs answered =>
      subst split answered
      have only : ah = last.ah := by
        rw [List.map_append] at next
        have same := next.eq_of_length (by simp)
        exact List.singleton_inj.mp (List.append_cancel_left same)
      subst only
      obtain ⟨id, handle, there, callback⟩ := waiting.known _ (List.mem_singleton.mpr rfl)
      obtain ⟨s', runs, went⟩ := holding.reply_went waiting w message
      have firing : Holding env x (s.fire last.ah) sc ft jibb reads blocks :=
        holding.congr rfl rfl rfl rfl
      obtain ⟨s₁, calls, sends⟩ := firing.pumps.reply_sends env w
      rw [holding.ref] at calls sends
      cases (reply_runs there callback calls).symm.trans runs
      have before : last.ah < s.ackHandlers.next := waiting.lt_next (List.mem_singleton.mpr rfl)
      have asked : Asked (x.js.ident x.p) (s.fire last.ah) (s.fire last.ah) [] :=
        .nothing ledger.old rfl rfl rfl
      have turn : ∃ more, Asks x.ref (x.js.ident x.p) (s.fire last.ah) s₁ more := by
        rcases sends with ⟨_, rfl⟩ | ⟨_, pumped⟩
        · exact sentBlock_asks asked env rfl
        · rw [← holding.ref]
          exact pumped.asking asked rfl
      obtain ⟨more, turn⟩ := turn
      have turn' : Asks x.ref (x.js.ident x.p) (s.fire last.ah) (s₁.answered last.ah) more :=
        ⟨turn.asked.answered before, turn.callbacks, turn.single, turn.sessions⟩
      have fired : Ledger (s.fire last.ah) (front ++ [last]) :=
        ⟨ledger.old, ledger.below, ledger.distinct⟩
      have sending := went.sending firing turn' fired iqs steady positive filled alone
      rw [List.map_append] at sending
      exact ⟨_, more, ⟨id, runs⟩, sending, turn'.asked.sentUntil⟩
  | @done blocks closed empty filled ledger iqs few answered waits =>
      obtain ⟨ask, rest, front, here⟩ := next_ask next
      obtain ⟨id, handle, there, callback⟩ := waits ask (front ▸ List.mem_cons_self)
      rw [here] at id there
      have nothing (s₁ : State) (same : s₁ = s ∨ s₁ = s.fire ah)
          (runs : jingleHandleAckIq env w ah message s = .done () (s₁.answered ah))
          : ∃ s' more, Step env s (w, .reply ah message) s'
              ∧ Sending env x s' (asks ++ more) (answers ++ [ah])
              ∧ s.sentUntil s' none = more.map Ask.stanza := by
        have sending := Sending.discharged closed empty filled ledger iqs few next waits same
        have asked : Asked (x.js.ident x.p) s s₁ [] := by
          rcases same with rfl | rfl <;> exact .nothing ledger.old rfl rfl rfl
        rw [← List.append_nil asks] at sending
        exact ⟨_, [], ⟨id, runs⟩, sending, (asked.answered (ledger.old ah id)).sentUntil⟩
      rcases callback with none | data
      · exact nothing s (Or.inl rfl) (reply_ignored there none w message)
      · have empty' : (s.fire ah).sessions.cells = [] := empty
        exact nothing (s.fire ah) (Or.inr rfl)
          (reply_runs there data (ibbReply_empty empty' w x.ref))

end Sending

end McabberJingle
