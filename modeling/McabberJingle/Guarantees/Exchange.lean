import McabberJingle.Guarantees.EndToEnd
import McabberJingle.Guarantees.Replies
import McabberJingle.Transfer.Exchange

/-! A transfer between two instances, with its packets and their answers under way in any order:
what is at the receiver is always a beginning of the file, the transfer never gets stuck, and it
is complete when nothing is under way any more.
-/

namespace McabberJingle

open Program Program.Prog

-----------------------------------------------------------------------------------------
-- What the receiver answers
-----------------------------------------------------------------------------------------

section Answers

variable {env : Env} {w : World} {x : ReadyTransfer} {y : AwaitedTransfer x} {r r' : State}
  {pieces : List (List UInt8)}

/-- One answer is all that was sent. -/
def AnsweredOnly (r r' : State) : Prop := ∃ query answer, r'.sent = r.sent ++ [.reply query answer]

theorem Fed.packet_answered (fed : Fed y r pieces) {recipient fromJid : String} {seq : Nat}
    {block : List UInt8}
    (handled : handleIq env w ((ibbDataIq env recipient block x.jibb.sid seq).stamped fromJid) r
      = .done () r')
    : AnsweredOnly r r' := by
  have data := ibbData_ibbDataIq env recipient block x.jibb.sid seq fromJid
  have hands := jingleIbbHandleIq_hands env w fed.streams data rfl
  have other : ((ibbDataIq env recipient block x.jibb.sid seq).stamped fromJid).node.getChild
      "jingle" = none := by
    rw [LmMessage.getChild_stamped]
    rfl
  rw [handleIq_data rfl other, bind_done hands] at handled
  cases handled
  exact ⟨_, _, rfl⟩

theorem Fed.hash_answered (fed : Fed y r pieces) {hash : Option String}
    (handled : handleIq env w ((hashIq x.js.toJid x.js.sid hash).stamped x.js.fromJid) r
      = .done () r')
    : AnsweredOnly r r' := by
  let child := textElement "hash" [("xmlns", NS_JINGLE_APP_FT_INFO)] hash
  obtain ⟨jn, requested, action, sid, sender, node⟩ := jingleRequest_stamped env x.js.toJid
    x.js.fromJid x.js.sid "session-info"
    (element "jingle" [("xmlns", NS_JINGLE), ("sid", x.js.sid), ("action", "session-info")]
      [child]) rfl rfl rfl rfl rfl (by decide)
  have requested : jingleRequest env ((hashIq x.js.toJid x.js.sid hash).stamped x.js.fromJid)
      = some jn := requested
  have known : actionHandler env w jn.action = some handleSessionInfo := by
    rw [action]
    rfl
  have found := y.finds fed.conveys sid sender
  have askable : ∀ sc ∈ consulted child y.js.content, Askable r child sc := by
    intro sc member
    have member : sc ∈ y.js.content := by
      unfold consulted at member
      split at member
      · exact member
      · exact List.mem_of_mem_take member
    rw [y.conveys.only] at member
    rw [List.mem_singleton.mp member]
    refine ⟨by rw [y.conveys.appfuncs]; rfl, y.d, y.conveys.description, fun _ => ?_⟩
    exact Pool.live_of_get? fed.transfer
  obtain ⟨taken, r₁, offered, sent, _⟩ := (offerInfo_runs child y.js.content).1 askable
  have ends : ∃ r₂, handleSessionInfo jn r = .done jn r₂ ∧ AnsweredOnly r r₂ := by
    have answered (answer : LmMessage) : AnsweredOnly r (r₁.replied jn.message answer) :=
      ⟨_, _, congrArg (fun sent => sent ++ [Sent.reply jn.message answer]) sent⟩
    rw [handleSessionInfo, bind_get, found]
    dsimp only
    rw [node]
    change ∃ r₂, (offerInfo child y.js.content >>= _) r = _ ∧ _
    rw [bind_done offered]
    cases taken with
    | true => exact ⟨_, rfl, answered _⟩
    | false => exact ⟨_, rfl, answered _⟩
  obtain ⟨r₂, ends, answered⟩ := ends
  obtain ⟨_, _, notFreed⟩ := jingleRequest_node requested
  have taken : jingleHandleIq env w ((hashIq x.js.toJid x.js.sid hash).stamped x.js.fromJid) r
      = .done .removeMessage r₂ := by
    rw [jingleHandleIq_request requested known, bind_done ends, jingleFreeJinglenode, notFreed]
    rfl
  cases (handleIq_jingle taken).symm.trans handled
  exact answered

theorem AwaitedTransfer.ends_answered {ft : JingleFT} (conveys : Conveys r y.q y.js y.sc y.d y.t)
    (transfer : r.infoList.get? y.d = some ft) (rest : ft.AtRest)
    (kept : w.freedLink ≠ .traps)
    (handled : handleIq env w ((sessionTerminateIq x.js "success").stamped x.js.fromJid) r
      = .done () r')
    : AnsweredOnly r r' := by
  obtain ⟨jn, requested, action, sid, sender⟩ := terminate_requested env x
  have found := y.finds conveys sid sender
  obtain ⟨r₂, ends, terminated⟩ :=
    conveys.terminate_runs transfer rest requested action (by rw [found]; rfl) kept
  obtain ⟨answer, sent⟩ := terminated.sent
  cases (handleIq_jingle ends).symm.trans handled
  exact ⟨_, answer, sent⟩

end Answers

-----------------------------------------------------------------------------------------
-- What the receiver holds to
-----------------------------------------------------------------------------------------

/-- What the sender ends with. -/
def ReadyTransfer.farewell (x : ReadyTransfer) (env : Env) : List LmMessage :=
  [hashIq x.js.toJid x.js.sid (some (env.md5 x.file)), sessionTerminateIq x.js "success"]

/-- What the receiver holds to, after these requests. -/
inductive Receiving (env : Env) {x : ReadyTransfer} (y : AwaitedTransfer x) (r : State)
    : List LmMessage → Prop
  | fed {pieces : List (List UInt8)} (fed : Fed y r pieces)
    : Receiving env y r (x.packets env pieces)
  | announced {pieces : List (List UInt8)} (announced : Announced env y r pieces)
    : Receiving env y r (x.packets env pieces
        ++ [hashIq x.js.toJid x.js.sid (some (env.md5 x.file))])
  | ended {r₀ : State} {pieces : List (List UInt8)} (announced : Announced env y r₀ pieces)
    (ended : Ended env y r₀ r (y.whole env pieces))
    : Receiving env y r (x.packets env pieces ++ x.farewell env)

/-- The calls that write the payload of a data packet succeed, and so does the step behind a
freed content.
-/
structure Smooth (env : Env) (w : World) (iq : LmMessage) : Prop where
  writes : ∀ recipient block sid seq, iq = ibbDataIq env recipient block sid seq →
    Writes w block.length
  kept : w.freedLink ≠ .traps

/-- An instance handles a stanza from `peer`, and no call fails meanwhile. -/
def HandlesSmoothly (env : Env) (peer : String) (r : State) (w : World) (stanza : Stanza)
    (r' : State) (out : List Stanza)
    : Prop :=
  Smooth env w stanza.iq ∧ Handles env peer r w stanza r' out

section Receiving

variable {env : Env} {w : World} {x : ReadyTransfer} {y : AwaitedTransfer x} {r r' : State}
  {pieces blocks : List (List UInt8)} {iq : LmMessage} {iqs tail taken : List LmMessage}

/-- The payload of a data packet can be read back. -/
theorem ibbDataIq_inj (inverse : ∀ bytes, env.base64Decode (env.base64Encode bytes) = bytes)
    {recipient sid : String} {seq : Nat} {block block' : List UInt8}
    (same : ibbDataIq env recipient block sid seq = ibbDataIq env recipient block' sid seq)
    : block = block' := by
  have text := congrArg dataText same
  change some (env.base64Encode block) = some (env.base64Encode block') at text
  rw [← inverse block, Option.some.inj text, inverse]

/-- Packets in front of others carry the blocks in front. By induction on these. -/
theorem dataPackets_front (inverse : ∀ bytes, env.base64Decode (env.base64Encode bytes) = bytes)
    {recipient sid : String} {seq : Nat}
    (front : dataPackets env recipient sid seq pieces ++ iqs
      <+: dataPackets env recipient sid seq blocks ++ tail)
    (other : ∀ iq ∈ tail, iq.isData = false)
    : ∃ more, blocks = pieces ++ more
        ∧ iqs <+: dataPackets env recipient sid (seq + pieces.length) more ++ tail := by
  induction pieces generalizing blocks seq with
  | nil => exact ⟨blocks, rfl, front⟩
  | cons piece rest ih =>
      cases blocks with
      | nil =>
          rw [dataPackets, dataPackets, List.nil_append, List.cons_append] at front
          have first := other _ (front.subset List.mem_cons_self)
          cases first
      | cons block later =>
          rw [dataPackets, dataPackets, List.cons_append, List.cons_append, List.cons_prefix_cons]
            at front
          obtain ⟨more, rfl, behind⟩ := ih front.2
          refine ⟨more, ?_, ?_⟩
          · rw [ibbDataIq_inj inverse front.1, List.cons_append]
          · rwa [List.length_cons, Nat.add_comm rest.length, ← Nat.add_assoc]

theorem farewell_other (x : ReadyTransfer) (env : Env)
    : ∀ iq ∈ x.farewell env, iq.isData = false := by
  intro iq member
  rcases List.mem_cons.mp member with rfl | member
  · rfl
  · rw [List.mem_singleton.mp member]
    rfl

/-- The next request: a packet, the hash behind all packets, or the end behind that. -/
theorem Receiving.request (receiving : Receiving env y r taken)
    (inverse : ∀ bytes, env.base64Decode (env.base64Encode bytes) = bytes)
    (next : taken ++ [iq] <+: x.packets env blocks ++ tail)
    (rest : tail = [] ∨ tail = x.farewell env) (smooth : Smooth env w iq)
    : ∃ r', handleIq env w (iq.stamped x.js.fromJid) r = .done () r'
        ∧ Receiving env y r' (taken ++ [iq]) ∧ AnsweredOnly r r' := by
  have other : ∀ iq ∈ tail, iq.isData = false := by
    rcases rest with rfl | rfl
    · simp
    · exact farewell_other x env
  cases receiving with
  | @fed pieces fed =>
      obtain ⟨more, rfl, behind⟩ := dataPackets_front inverse next other
      rw [Nat.zero_add] at behind
      cases more with
      | cons block later =>
          rw [dataPackets, List.cons_append, List.cons_prefix_cons] at behind
          rw [behind.1] at smooth ⊢
          obtain ⟨r', handled, fed'⟩ := fed.packet (inverse block)
            (smooth.writes _ _ _ _ rfl) x.js.toJid pieces.length x.js.fromJid
          refine ⟨r', handled, ?_, fed.packet_answered handled⟩
          rw [← x.packets_append]
          exact .fed fed'
      | nil =>
          rw [dataPackets, List.nil_append] at behind
          rcases rest with rfl | rfl
          · cases List.prefix_nil.mp behind
          rw [ReadyTransfer.farewell, List.cons_prefix_cons] at behind
          rw [behind.1]
          obtain ⟨r', handled, hashed⟩ := fed.hash env w (some (env.md5 x.file))
          refine ⟨r', handled, .announced ?_, fed.hash_answered handled⟩
          exact {
            conveys := fed.conveys.congr hashed.sessions
            transfer := hashed.transfer
            disk := hashed.disk.trans fed.disk
            stopReports := hashed.stopReports.trans fed.stopReports
          }
  | @announced pieces announced =>
      rw [List.append_assoc] at next
      obtain ⟨more, rfl, behind⟩ := dataPackets_front inverse next other
      cases more with
      | cons block later =>
          rw [dataPackets, List.cons_append, List.cons_append, List.cons_prefix_cons] at behind
          have data := congrArg LmMessage.isData behind.1
          cases data
      | nil =>
          rw [dataPackets, List.nil_append] at behind
          rcases rest with rfl | rfl
          · cases List.prefix_nil.mp behind
          rw [ReadyTransfer.farewell, List.cons_append, List.cons_prefix_cons, List.nil_append,
            List.cons_prefix_cons] at behind
          rw [behind.2.1]
          have atRest := y.whole_atRest env pieces
          obtain ⟨r', handled, ended⟩ := AwaitedTransfer.ends announced.conveys
            announced.transfer atRest env smooth.kept
          refine ⟨r', handled, ?_, AwaitedTransfer.ends_answered announced.conveys
            announced.transfer atRest smooth.kept handled⟩
          rw [List.append_assoc]
          exact .ended announced ended
  | @ended r₀ pieces announced ended =>
      rw [List.append_assoc] at next
      obtain ⟨more, rfl, behind⟩ := dataPackets_front inverse next other
      cases more with
      | cons block later =>
          rw [ReadyTransfer.farewell, dataPackets, List.cons_append, List.cons_append,
            List.cons_append, List.cons_prefix_cons] at behind
          have data := congrArg LmMessage.isData behind.1
          cases data
      | nil =>
          rw [dataPackets, List.nil_append] at behind
          have long := behind.length_le
          rcases rest with rfl | rfl <;> simp [ReadyTransfer.farewell] at long

end Receiving

-----------------------------------------------------------------------------------------
-- Both instances
-----------------------------------------------------------------------------------------

/-- New handles are the newest ones, and forgetting one leaves the others. -/
theorem keepsOld_stable {r : Rights} : Stable r State.KeepsOld := by
  intro s s' old effect
  have appended (ah : AckPtr) (member : ah ∈ s.idHandlers ++ [s.ackHandlers.next])
      : ah < s.ackHandlers.next + 1 := by
    rcases List.mem_append.mp member with before | new
    · exact Nat.lt_succ_of_lt (old ah before)
    · rw [List.mem_singleton.mp new]
      exact Nat.lt_succ_self _
  cases effect with
  | finish p js reason listed allowed outward => exact appended
  | request p js iq callback timeout sendOk listed request timed => exact appended
  | packet p js t jibb sc env buf => exact appended
  | forget ah => exact fun other member => old other (List.mem_of_mem_erase member)
  | _ => exact old

theorem keepsOld_reached {env : Env} {s : State} (run : Reachable env s) : s.KeepsOld := by
  refine stable_reached keepsOld_stable ?_ run
  intro s initial ah member
  rw [initial.idHandlers] at member
  cases member

/-- A transport of the sender reports on the content, and nothing has arrived anywhere. -/
structure Begins (env : Env) (x : ReadyTransfer) (y : AwaitedTransfer x) (s : State)
    (link : Link State State Stanza Stanza)
    : Prop where
  left : ∃ w, Step env s (w, .transportInitialize true x.ref) link.left
  forth : link.forth = .opened (s.sentUntil link.left none)
  right : link.right = y.state
  back : link.back = .opened []

/-- The two instances and what is under way between them, after any of the stanzas arrived. -/
abbrev Exchange (env : Env) (x : ReadyTransfer) (y : AwaitedTransfer x) (s : State)
    : Link State State Stanza Stanza → Prop :=
  Link.Runs (Begins env x y s) (Handles env x.js.toJid) (HandlesSmoothly env x.js.fromJid)

/-- What the sender holds to, in the stanzas it sends and gets. -/
def SenderHolds (env : Env) (x : ReadyTransfer) (s : State) (sent got : List Stanza) : Prop :=
  ∃ asks, sent = asks.map Ask.stanza ∧ Sending env x s asks (got.map Stanza.ah)

/-- What the receiver holds to, in the stanzas it gets and sends. -/
structure ReceiverHolds (env : Env) {x : ReadyTransfer} (y : AwaitedTransfer x) (r : State)
    (taken replies : List Stanza)
    : Prop where
  receiving : Receiving env y r (taken.map Stanza.iq)
  answers : replies.map Stanza.ah = taken.map Stanza.ah
  kind : ∀ stanza ∈ replies, ∃ ah iq, stanza = .answer ah iq

section Exchange

variable {env : Env} {x : ReadyTransfer} {y : AwaitedTransfer x} {s r : State}
  {asks : List Ask} {answers : List AckPtr} {link : Link State State Stanza Stanza}

/-- What the sender has asked are packets, and behind them perhaps the end. -/
theorem Sending.iqs_eq (sending : Sending env x s asks answers)
    : ∃ blocks tail, asks.map Ask.iq = x.packets env blocks ++ tail
        ∧ (tail = [] ∨ tail = x.farewell env) ∧ (∀ block ∈ blocks, block ≠ [])
        ∧ blocks.flatten <+: x.file := by
  cases sending with
  | running holding waiting steady positive filled alone ledger split iqs answered =>
      refine ⟨_, [], by rw [iqs, List.append_nil], Or.inl rfl, filled, ?_⟩
      rw [← holding.bytes, List.append_assoc]
      exact List.prefix_append _ _
  | done closed empty filled ledger iqs few answered waits =>
      exact ⟨_, _, iqs, Or.inr rfl, filled, closed.bytes ▸ List.prefix_rfl⟩

theorem asks_ahs (asks : List Ask) : (asks.map Ask.stanza).map Stanza.ah = asks.map Ask.ah := by
  rw [List.map_map]
  rfl

theorem asks_iqs (asks : List Ask) : (asks.map Ask.stanza).map Stanza.iq = asks.map Ask.iq := by
  rw [List.map_map]
  rfl

/-- What an instance does with a stanza comes to one end only. -/
theorem Handles.unique {peer : String} {s₁ s₂ : State} {w : World} {stanza : Stanza}
    {out₁ out₂ : List Stanza} (first : Handles env peer s w stanza s₁ out₁)
    (second : Handles env peer s w stanza s₂ out₂)
    : s₁ = s₂ ∧ out₁ = out₂ := by
  cases stanza with
  | request ah iq =>
      cases first.1.symm.trans second.1
      exact ⟨rfl, first.2.trans second.2.symm⟩
  | answer ah iq =>
      cases first.1.2.symm.trans second.1.2
      exact ⟨rfl, first.2.trans second.2.symm⟩

/-- The sender can take the next answer, as long as the receiver holds to its part. -/
theorem SenderHolds.takes {sent got taken replies : List Stanza} {message : Stanza}
    (sender : SenderHolds env x s sent got) (receiver : ReceiverHolds env y r taken replies)
    (front : taken <+: sent) (answered : got ++ [message] <+: replies) (w : World)
    : ∃ s' out, Handles env x.js.toJid s w message s' out
        ∧ SenderHolds env x s' (sent ++ out) (got ++ [message]) := by
  obtain ⟨asks, rfl, sending⟩ := sender
  obtain ⟨ah, iq, rfl⟩ := receiver.kind message
    (answered.subset (List.mem_append_right _ (List.mem_singleton.mpr rfl)))
  have next : got.map Stanza.ah ++ [ah] <+: asks.map Ask.ah := by
    have arrived := answered.map Stanza.ah
    rw [List.map_append, receiver.answers] at arrived
    rw [← asks_ahs]
    exact arrived.trans (front.map Stanza.ah)
  obtain ⟨s', more, step, sending', sent⟩ := sending.answer next w (iq.stamped x.js.toJid)
  refine ⟨s', more.map Ask.stanza, ⟨step, sent.symm⟩, asks ++ more, ?_, ?_⟩
  · rw [List.map_append]
  · rw [List.map_append]
    exact sending'

/-- The receiver can take the next request, as long as the sender holds to its part. -/
theorem ReceiverHolds.takes {sent got taken replies : List Stanza} {message : Stanza} {w : World}
    (receiver : ReceiverHolds env y r taken replies) (sender : SenderHolds env x s sent got)
    (inverse : ∀ bytes, env.base64Decode (env.base64Encode bytes) = bytes)
    (arrived : taken ++ [message] <+: sent) (smooth : Smooth env w message.iq)
    : ∃ r' out, Handles env x.js.fromJid r w message r' out
        ∧ ReceiverHolds env y r' (taken ++ [message]) (replies ++ out) := by
  obtain ⟨asks, rfl, sending⟩ := sender
  obtain ⟨blocks, tail, iqs, rest, _, _⟩ := sending.iqs_eq
  obtain ⟨ask, _, rfl⟩ := List.mem_map.mp
    (arrived.subset (List.mem_append_right _ (List.mem_singleton.mpr rfl)))
  have next := arrived.map Stanza.iq
  rw [List.map_append, asks_iqs, iqs] at next
  obtain ⟨r', handled, receiving, query, answer, sent⟩ :=
    receiver.receiving.request inverse next rest smooth
  refine ⟨r', [.answer ask.ah answer], ⟨handled, (State.sentUntil_replied sent _).symm⟩, ?_, ?_, ?_⟩
  · rw [List.map_append]
    exact receiving
  · rw [List.map_append, List.map_append, receiver.answers]
    rfl
  · intro stanza member
    rcases List.mem_append.mp member with old | new
    · exact receiver.kind stanza old
    · exact ⟨_, _, List.mem_singleton.mp new⟩

/-- As long as the other instance answers in order, the sender goes on, and as long as packets
come in order, the receiver does.
-/
theorem exchange_upholds (env : Env) (x : ReadyTransfer) (y : AwaitedTransfer x)
    (inverse : ∀ bytes, env.base64Decode (env.base64Encode bytes) = bytes)
    : Link.Upholds (Handles env x.js.toJid) (HandlesSmoothly env x.js.fromJid) (SenderHolds env x)
      (ReceiverHolds env y) where
  left := by
    intro s r w message s' out sent got taken replies sender receiver front answered handles
    obtain ⟨s₁, out₁, handles₁, sender₁⟩ := sender.takes receiver front answered w
    obtain ⟨rfl, rfl⟩ := handles.unique handles₁
    exact sender₁
  right := by
    intro s r w message r' out sent got taken replies sender receiver front arrived handles
    obtain ⟨smooth, handles⟩ := handles
    obtain ⟨r₁, out₁, handles₁, receiver₁⟩ := receiver.takes sender inverse arrived smooth
    obtain ⟨rfl, rfl⟩ := handles.unique handles₁
    exact receiver₁

theorem Begins.holds {env : Env} {x : ReadyTransfer} {y : AwaitedTransfer x} {s : State}
    (old : s.KeepsOld) (starting : x.state = { s with starts := s.starts ++ [x.ref] })
    (steady : Steady x.reads) (positive : 0 < x.jibb.blocksize)
    (alone : ∀ cell ∈ s.sessions.cells, cell.1 = x.p) (link : Link State State Stanza Stanza)
    (begins : Begins env x y s link)
    : SenderHolds env x link.left link.forth.log link.back.arrived
      ∧ ReceiverHolds env y link.right link.forth.arrived link.back.log := by
  obtain ⟨w, step⟩ := begins.left
  obtain ⟨s', asks, runs, sending, sent⟩ := x.sending env w old starting steady positive alone
  cases step.2.symm.trans runs
  rw [begins.forth, begins.back, begins.right]
  refine ⟨⟨asks, sent, sending⟩, ?_, rfl, ?_⟩
  · exact .fed y.fed_nil
  · intro stanza member
    cases member

end Exchange

-----------------------------------------------------------------------------------------
-- The transfer
-----------------------------------------------------------------------------------------

/-- At any time a beginning of the file is at the receiver and at most one packet on its way
there; whatever arrives next can be handled; and nothing is left to arrive once all did.
-/
structure Delivers (env : Env) {x : ReadyTransfer} (y : AwaitedTransfer x)
    (link : Link State State Stanza Stanza)
    : Prop where
  stored : ∃ pieces, pieces.flatten <+: x.file
    ∧ link.right.disk = y.state.disk ++ y.stored pieces
  one : (link.forth.underWay.filter (fun stanza => stanza.iq.isData)).length ≤ 1
  bounded : link.steps ≤ 2 * (x.file.length + 2)
  answers : ∀ w stanza, link.back.next? = some stanza →
    ∃ s' out, Handles env x.js.toJid link.left w stanza s' out
  packets : ∀ w stanza, link.forth.next? = some stanza → Smooth env w stanza.iq →
    ∃ r' out, Handles env x.js.fromJid link.right w stanza r' out
  arrives : link.Quiet → x.file ≠ [] → Arrived x y link.left link.right

section Delivers

variable {env : Env} {x : ReadyTransfer} {y : AwaitedTransfer x}
  {link : Link State State Stanza Stanza}

/-- What is on disk are the pieces that arrived. -/
theorem Receiving.stored {r : State} {taken : List LmMessage} (receiving : Receiving env y r taken)
    : ∃ pieces iqs, taken = x.packets env pieces ++ iqs
        ∧ r.disk = y.state.disk ++ y.stored pieces := by
  cases receiving with
  | @fed pieces fed => exact ⟨pieces, [], (List.append_nil _).symm, fed.disk⟩
  | @announced pieces announced => exact ⟨pieces, _, rfl, announced.disk⟩
  | @ended r₀ pieces announced ended =>
      exact ⟨pieces, _, rfl, ended.disk.trans announced.disk⟩

/-- Packets whose answers the sender has not got: one at most. -/
theorem Sending.one_waits {s : State} {asks : List Ask} {answers : List AckPtr}
    (sending : Sending env x s asks answers) {n : Nat} (answered : answers.length ≤ n)
    : ((asks.drop n).filter (fun ask => ask.iq.isData)).length ≤ 1 := by
  cases sending with
  | @running sc ft jibb reads blocks front last holding waiting steady positive filled alone
    ledger split iqs same =>
      refine Nat.le_trans (List.length_filter_le _ _) ?_
      rw [same, List.length_map] at answered
      rw [split, List.length_drop, List.length_append, List.length_singleton]
      omega
  | @done blocks closed empty filled ledger iqs few same waits =>
      have mapped : ((asks.drop n).filter (fun ask => ask.iq.isData)).length
          = (((asks.map Ask.iq).drop n).filter LmMessage.isData).length := by
        rw [← List.map_drop, List.filter_map, List.length_map]
        rfl
      have nothing : ((x.farewell env).drop (n - (x.packets env blocks).length)).filter
          LmMessage.isData = [] := by
        refine List.filter_eq_nil_iff.mpr (fun iq member => ?_)
        rw [farewell_other x env iq (List.mem_of_mem_drop member)]
        decide
      change asks.map Ask.iq = x.packets env blocks ++ x.farewell env at iqs
      rw [mapped, iqs, List.drop_append, List.filter_append, nothing, List.append_nil]
      refine Nat.le_trans (List.length_filter_le _ _) ?_
      rw [List.length_drop, ReadyTransfer.packets, length_dataPackets]
      omega

/-- The packets of a transfer are not more than its bytes. -/
theorem length_le_of_filled {blocks : List (List UInt8)} (filled : ∀ block ∈ blocks, block ≠ [])
    : blocks.length ≤ blocks.flatten.length := by
  induction blocks with
  | nil => exact Nat.zero_le _
  | cons block rest ih =>
      have some := List.length_pos_iff.mpr (filled block List.mem_cons_self)
      have later := ih (fun block member => filled block (List.mem_cons_of_mem _ member))
      rw [List.flatten_cons, List.length_append, List.length_cons]
      omega

/-- After all requests the receiver is done. -/
theorem Receiving.whole {r : State} {taken : List LmMessage} {blocks : List (List UInt8)}
    (receiving : Receiving env y r taken)
    (inverse : ∀ bytes, env.base64Decode (env.base64Encode bytes) = bytes)
    (all : taken = x.packets env blocks ++ x.farewell env)
    : ∃ r₀, Announced env y r₀ blocks ∧ Ended env y r₀ r (y.whole env blocks) := by
  have count := congrArg List.length all
  have behind (pieces : List (List UInt8)) (iqs : List LmMessage)
      (same : taken = x.packets env pieces ++ iqs)
      : ∃ more, blocks = pieces ++ more := by
    have front : x.packets env pieces ++ iqs <+: x.packets env blocks ++ x.farewell env := by
      exact ⟨[], (List.append_nil _).trans (same.symm.trans all)⟩
    obtain ⟨more, split, _⟩ := dataPackets_front inverse front (farewell_other x env)
    exact ⟨more, split⟩
  cases receiving with
  | @fed pieces fed =>
      obtain ⟨more, rfl⟩ := behind pieces [] (List.append_nil _).symm
      simp [ReadyTransfer.packets, length_dataPackets, ReadyTransfer.farewell] at count
      omega
  | @announced pieces announced =>
      obtain ⟨more, rfl⟩ := behind pieces _ rfl
      simp [ReadyTransfer.packets, length_dataPackets, ReadyTransfer.farewell] at count
      omega
  | @ended r₀ pieces announced ended =>
      obtain ⟨more, rfl⟩ := behind pieces _ rfl
      simp only [ReadyTransfer.packets, List.length_append, length_dataPackets] at count
      have none : more = [] := List.length_eq_zero_iff.mp (by omega)
      rw [none, List.append_nil]
      exact ⟨r₀, announced, ended⟩

/-- When nothing is under way any more, the file is there. -/
theorem arrives_of_quiet (inverse : ∀ bytes, env.base64Decode (env.base64Encode bytes) = bytes)
    (offered : x.ft.size = x.file.length)
    (sender : SenderHolds env x link.left link.forth.log link.back.arrived)
    (receiver : ReceiverHolds env y link.right link.forth.arrived link.back.log)
    (quiet : link.Quiet) (filled : x.file ≠ [])
    : Arrived x y link.left link.right := by
  rw [Channel.arrived_eq_log quiet.2] at sender
  rw [Channel.arrived_eq_log quiet.1] at receiver
  obtain ⟨asks, log, sending⟩ := sender
  have answered := receiver.answers
  have receiving := receiver.receiving
  rw [log, asks_ahs] at answered
  rw [log, asks_iqs] at receiving
  cases sending with
  | @running sc ft jibb reads blocks front last holding waiting steady positive some alone ledger
    split iqs got =>
      have count := congrArg List.length (got.symm.trans answered)
      simp [split] at count
  | @done blocks closed empty some ledger iqs few got waits =>
      obtain ⟨r₀, announced, ended⟩ := receiving.whole inverse iqs
      exact announced.arrives filled offered closed.bytes closed.gone ended

/-- What both hold to, for a link. -/
theorem delivers_of_holds (inverse : ∀ bytes, env.base64Decode (env.base64Encode bytes) = bytes)
    (offered : x.ft.size = x.file.length)
    (sender : SenderHolds env x link.left link.forth.log link.back.arrived)
    (receiver : ReceiverHolds env y link.right link.forth.arrived link.back.log)
    : Delivers env y link := by
  obtain ⟨asks, log, sending⟩ := id sender
  obtain ⟨blocks, tail, iqs, rest, filled, begun⟩ := sending.iqs_eq
  have other : ∀ iq ∈ tail, iq.isData = false := by
    rcases rest with rfl | rfl
    · simp
    · exact farewell_other x env
  have answered : link.back.log.length = link.forth.taken := by
    rw [← link.forth.length_arrived, ← List.length_map Stanza.ah, receiver.answers,
      List.length_map]
  refine ⟨?_, ?_, ?_, ?_, ?_, ?_⟩
  · obtain ⟨pieces, later, taken, disk⟩ := receiver.receiving.stored
    have front := link.forth.arrived_prefix.map Stanza.iq
    rw [log, asks_iqs, iqs, taken] at front
    obtain ⟨more, rfl, _⟩ := dataPackets_front inverse front other
    refine ⟨pieces, ?_, disk⟩
    rw [List.flatten_append] at begun
    exact (List.prefix_append _ _).trans begun
  · have few : (link.back.arrived.map Stanza.ah).length ≤ link.forth.taken := by
      rw [List.length_map, link.back.length_arrived, ← answered]
      exact link.back.bound
    have waits := sending.one_waits few
    rw [Channel.underWay, log, ← List.map_drop, List.filter_map, List.length_map]
    exact waits
  · have sent : link.forth.log.length ≤ x.file.length + 2 := by
      have count := congrArg List.length iqs
      have few := length_le_of_filled filled
      have bytes := begun.length_le
      have ends : tail.length ≤ 2 := by
        rcases rest with rfl | rfl
        · exact Nat.zero_le _
        · exact Nat.le_refl _
      rw [List.length_map, List.length_append, ReadyTransfer.packets, length_dataPackets] at count
      rw [log, List.length_map]
      omega
    have bound := link.forth.bound
    have bound' := link.back.bound
    rw [Link.steps]
    omega
  · intro w stanza next
    obtain ⟨s', out, handles, _⟩ := sender.takes receiver link.forth.arrived_prefix
      (link.back.arrived_append_prefix next) w
    exact ⟨s', out, handles⟩
  · intro w stanza next smooth
    obtain ⟨r', out, handles, _⟩ := receiver.takes sender inverse
      (link.forth.arrived_append_prefix next) smooth
    exact ⟨r', out, handles⟩
  · exact arrives_of_quiet inverse offered sender receiver

/-- In some surroundings a request is handled smoothly. -/
theorem exists_smooth (inverse : ∀ bytes, env.base64Decode (env.base64Encode bytes) = bytes)
    (iq : LmMessage)
    : ∃ w, Smooth env w iq := by
  let bytes := env.base64Decode ((dataText iq).getD "")
  refine ⟨{ plainWorld with write := { plainWorld.write with written := bytes.length } }, ?_, ?_⟩
  · rintro recipient block sid seq rfl
    refine ⟨rfl, rfl, rfl, rfl, ?_⟩
    change (env.base64Decode (env.base64Encode block)).length = block.length
    rw [inverse]
  · intro traps
    cases traps

/-- While something is under way, it can arrive. -/
theorem Delivers.goesOn (delivers : Delivers env y link)
    (inverse : ∀ bytes, env.base64Decode (env.base64Encode bytes) = bytes) (busy : ¬link.Quiet)
    : ∃ side next, Link.Step (Handles env x.js.toJid) (HandlesSmoothly env x.js.fromJid) link side
        next := by
  cases answer : link.back.next? with
  | some stanza =>
      obtain ⟨s', out, handles⟩ := delivers.answers plainWorld stanza answer
      exact ⟨_, _, .left answer handles⟩
  | none =>
      cases request : link.forth.next? with
      | some stanza =>
          obtain ⟨w, smooth⟩ := exists_smooth inverse stanza.iq
          obtain ⟨r', out, handles⟩ := delivers.packets w stanza request smooth
          exact ⟨_, _, .right request ⟨smooth, handles⟩⟩
      | none =>
          have quiet : link.Quiet :=
            ⟨link.forth.underWay_eq_nil_iff.mpr request, link.back.underWay_eq_nil_iff.mpr answer⟩
          exact absurd quiet busy

/-- Whatever has arrived so far, the rest can arrive. -/
theorem exchange_settles {s : State}
    (inverse : ∀ bytes, env.base64Decode (env.base64Encode bytes) = bytes)
    (delivers : ∀ link, Exchange env x y s link → Delivers env y link)
    (exchange : Exchange env x y s link)
    : ∃ last, Exchange env x y s last ∧ last.Quiet
        ∧ Link.Runs (fun first => first = link) (Handles env x.js.toJid)
          (HandlesSmoothly env x.js.fromJid) last := by
  obtain ⟨last, onward, quiet⟩ := Link.settles
    (fun link exchange => (delivers link exchange).bounded)
    (fun link exchange busy => (delivers link exchange).goesOn inverse busy) exchange
  exact ⟨last, exchange.trans onward, quiet, onward⟩

end Delivers

section Transfer

variable {env : Env} {x : ReadyTransfer} {y : AwaitedTransfer x} {s : State}
  (run : Reachable env s) (starting : x.state = { s with starts := s.starts ++ [x.ref] })
  (alone : ∀ cell ∈ s.sessions.cells, cell.1 = x.p) (steady : Steady x.reads)
  (positive : 0 < x.jibb.blocksize)

include run starting alone steady positive

/-- The report of the transport is handled to its end. -/
theorem exists_begins (enabled : Enabled s (.transportInitialize true x.ref))
    : ∃ link, Begins env x y s link := by
  obtain ⟨s', asks, runs, _, _⟩ :=
    x.sending env plainWorld (keepsOld_reached run) starting steady positive alone
  let link : Link State State Stanza Stanza := {
    left := s'
    right := y.state
    forth := .opened (s.sentUntil s' none)
    back := .opened []
  }
  exact ⟨link, ⟨plainWorld, enabled, runs⟩, rfl, rfl, rfl⟩

theorem exchange_delivers (offered : x.ft.size = x.file.length)
    (inverse : ∀ bytes, env.base64Decode (env.base64Encode bytes) = bytes)
    {link : Link State State Stanza Stanza} (exchange : Exchange env x y s link)
    : Delivers env y link := by
  have old := keepsOld_reached run
  obtain ⟨sender, receiver⟩ := (exchange_upholds env x y inverse).both
    (fun link begins => begins.holds old starting steady positive alone link) exchange
  exact delivers_of_holds inverse offered sender receiver

end Transfer

/-- When a transport reports on the only session of an instance, its file gets to the instance
that awaits it, in every order in which the packets and their answers may arrive.
-/
theorem file_exchanged (env : Env) (x : ReadyTransfer) (y : AwaitedTransfer x) (s : State)
    (run : Reachable env s) (starting : x.state = { s with starts := s.starts ++ [x.ref] })
    (enabled : Enabled s (.transportInitialize true x.ref))
    (alone : ∀ cell ∈ s.sessions.cells, cell.1 = x.p) (steady : Steady x.reads)
    (positive : 0 < x.jibb.blocksize) (offered : x.ft.size = x.file.length)
    (inverse : ∀ bytes, env.base64Decode (env.base64Encode bytes) = bytes)
    : (∃ link, Begins env x y s link)
      ∧ ∀ link, Exchange env x y s link → Delivers env y link
          ∧ ∃ last, Exchange env x y s last ∧ last.Quiet
            ∧ Link.Runs (fun first => first = link) (Handles env x.js.toJid)
              (HandlesSmoothly env x.js.fromJid) last := by
  have delivers (link : Link State State Stanza Stanza) (exchange : Exchange env x y s link)
      : Delivers env y link :=
    exchange_delivers run starting alone steady positive offered inverse exchange
  refine ⟨exists_begins run starting alone steady positive enabled, fun link exchange => ?_⟩
  exact ⟨delivers link exchange, exchange_settles inverse delivers exchange⟩

/-- Four bytes in two packets. -/
theorem file_exchanged_fourBytes
    : ∃ (x : ReadyTransfer) (y : AwaitedTransfer x) (s : State), Reachable fileEnv s
        ∧ x.file = [1, 2, 3, 4] ∧ x.jibb.blocksize = 2
        ∧ (∃ link, Begins fileEnv x y s link)
        ∧ ∀ link, Exchange fileEnv x y s link → Delivers fileEnv y link
            ∧ ∃ last, Exchange fileEnv x y s last ∧ last.Quiet
              ∧ Link.Runs (fun first => first = link) (Handles fileEnv x.js.toJid)
                (HandlesSmoothly fileEnv x.js.fromJid) last := by
  let sc : SessionContentRef := { owner := 0, name := "file" }
  have passed : (execute fileEnv (fun _ _ => True) loaded (acceptedOffer fourBytes)).any (fun s =>
      (conveysAt s sc 1 0 && opensAt s 1 [1, 2, 3, 4] && freshAt s 0 2 && (s.unanswered 0).isEmpty)
      && decide (Enabled s (.transportInitialize true sc))
      && s.sessions.cells.all (fun cell => cell.1 == 0)
      && (invitedBy s).any (awaitsFrom s sc 1 0 4)) = true := by
    decide +kernel
  obtain ⟨s, run, both⟩ := execute_any _ (loaded_reached fileEnv _) passed
  simp only [Bool.and_eq_true, decide_eq_true_eq] at both
  obtain ⟨⟨⟨ready, enabled⟩, alone⟩, invites⟩ := both
  let s₁ : State := { s with starts := s.starts ++ [sc] }
  have ready₁ : (conveysAt s₁ sc 1 0 && opensAt s₁ 1 [1, 2, 3, 4] && freshAt s₁ 0 2
      && (s₁.unanswered 0).isEmpty) = true := by
    simp only [Bool.and_eq_true]
    exact ready
  obtain ⟨x, state, ref, description, transport, file, steady, size⟩ :=
    exists_readyTransfer ready₁
  obtain ⟨r, _, awaits⟩ := (Option.any_eq_true _ _).mp invites
  have awaits : awaitsFrom x.state x.ref x.d x.t 4 r = true := by
    rw [state, ref, description, transport]
    exact awaits
  obtain ⟨offered, y, _⟩ := exists_awaitedTransfer x awaits
  have starting : x.state = { s with starts := s.starts ++ [x.ref] } := by
    rw [state, ref]
  have owner : x.p = 0 := congrArg SessionContentRef.owner ref
  refine ⟨x, y, s, run, file, size, ?_⟩
  refine file_exchanged fileEnv x y s run starting (ref ▸ enabled) ?_ steady (by omega)
    (by rw [offered, file]; rfl) Base64.decode_encode
  intro cell member
  rw [owner]
  exact eq_of_beq (List.all_eq_true.mp alone cell member)

end McabberJingle
