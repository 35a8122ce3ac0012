import McabberJingle.Jingle.Requests
import McabberJingle.Transfer.Pump

/-! What the peer's stanzas do to a content that is being sent: a session-accept lowers the
block size, and a session-terminate ends the session.
-/

namespace McabberJingle

open Program Program.Prog

variable {s : State} {env : Env} {p : SessionPtr} {js : JingleSession} {sc : SessionContent}
  {d : FtPtr} {t : TransportPtr} {ft : JingleFT} {jibb : JingleIBB}

-----------------------------------------------------------------------------------------
-- session-accept
-----------------------------------------------------------------------------------------

/-- Who a session is does not depend on its contents. -/
theorem sessionFindBySid_withContent (s : State) (p : SessionPtr)
    (g : List SessionContent → List SessionContent) (sid : String) (fromJid : Option String)
    : sessionFindBySid (s.withContent p g) sid fromJid
      = (sessionFindBySid s sid fromJid).map (fun cell =>
          if cell.1 = p then (cell.1, { cell.2 with content := g cell.2.content }) else cell) := by
  simp only [sessionFindBySid, State.withContent, Pool.modify, List.find?_map]
  congr 2
  funext cell
  simp only [Function.comp_apply]
  split <;> rfl

/-- The state of the content changes. -/
theorem Conveys.withState (conveys : Conveys s p js sc d t)
    {g : List SessionContent → List SessionContent} {state : SessionState}
    (changes : g js.content = [{ sc with state }])
    : Conveys (s.withContent p g) p { js with content := [{ sc with state }] } { sc with state }
        d t where
  listed := by rw [State.withContent_listed conveys.listed, changes]
  found := by
    have before : sessionFindBySid s js.sid (some js.recipient) = some (p, js) := conveys.found
    rw [sessionFindBySid_withContent]
    change (sessionFindBySid s js.sid (some js.recipient)).map _ = _
    rw [before]
    simp [changes]
  only := rfl
  appfuncs := conveys.appfuncs
  description := conveys.description
  transfuncs := conveys.transfuncs
  transport := conveys.transport

/-- What a session-accept leaves of a content that is being sent. -/
structure Lowered (s s' : State) (p : SessionPtr) (js : JingleSession) (sc : SessionContent)
    (d : FtPtr) (t : TransportPtr) (jibb : JingleIBB)
    : Prop where
  conveys : ∃ state, Conveys s' p { js with content := [{ sc with state }] } { sc with state } d t
  stream : ∃ blocksize ≤ jibb.blocksize,
    s'.transports.get? t = some (.ibb { jibb with blocksize })
  infoList : s'.infoList = s.infoList
  ackHandlers : s'.ackHandlers = s.ackHandlers
  idHandlers : s'.idHandlers = s.idHandlers
  sent : s'.sent = s.sent

theorem Conveys.lowered_refl (conveys : Conveys s p js sc d t)
    (there : s.transports.get? t = some (.ibb jibb))
    : Lowered s s p js sc d t jibb := by
  have same : { js with content := [{ sc with state := sc.state }] } = js := by
    rw [← conveys.only]
  refine ⟨⟨sc.state, ?_⟩, ⟨jibb.blocksize, Nat.le_refl _, there⟩, rfl, rfl, rfl, rfl⟩
  rw [same]
  exact conveys

/-- `handle` with a session-accept keeps the block size or lowers it. -/
theorem ibbHandle_lowers (there : s.transports.get? t = some (.ibb jibb)) (node : LmMessageNode)
    : ∃ status blocksize, blocksize ≤ jibb.blocksize
        ∧ Ibb.handle .sessionAccept t node s
          = .done status (s.withIbb t { jibb with blocksize }) := by
  by_cases ours : node.getAttribute "xmlns" = some NS_JINGLE_TRANSPORT_IBB
  · let asked := Ibb.toGuint64 (gAsciiStrtoll (node.getAttribute "block-size"))
    refine ⟨.handled, if asked < jibb.blocksize then asked else jibb.blocksize, ?_, ?_⟩
    · split
      · rename_i lower
        exact Nat.le_of_lt lower
      · exact Nat.le_refl _
    · rw [Ibb.handle, if_pos ⟨rfl, ours⟩, bind_done (readIbb_done there)]
      rfl
  · refine ⟨.notHandled, jibb.blocksize, Nat.le_refl _, ?_⟩
    rw [Ibb.handle, if_neg (fun both => ours both.2), State.withIbb_same there]
    rfl

/-- By induction on the contents of the stanza. -/
theorem Conveys.acceptContents_lowers (env : Env) (conveys : Conveys s p js sc d t)
    (there : s.transports.get? t = some (.ibb jibb)) (contents : List JingleContent)
    : ∃ s', acceptContents env p contents s = .done () s' ∧ Lowered s s' p js sc d t jibb := by
  induction contents generalizing s js sc jibb with
  | nil => exact ⟨s, rfl, conveys.lowered_refl there⟩
  | cons jc rest ih =>
      rw [acceptContents, bind_done (readSession_done conveys.listed)]
      by_cases named : sc.name = jc.name
      · let active : SessionContent := { sc with state := .active }
        let g := updateFirst jc.name (fun sc => { sc with state := .active })
        let s₁ := s.withContent p g
        let s₂ := s₁.handling t jc.transport
        have found : sessionFindSessioncontent js jc.name = some sc := named ▸ conveys.content
        have changes : g js.content = [active] := by
          rw [conveys.only]
          simp [g, updateFirst, named, active]
        have conveys₁ := conveys.withState changes
        have there₂ : s₂.transports.get? t = some (.ibb jibb) := there
        obtain ⟨status, blocksize, lower, handled⟩ := ibbHandle_lowers there₂ jc.transport
        let s₃ := s₂.withIbb t { jibb with blocksize }
        let s₄ : State := { s₃ with inits := s₃.inits ++ [({ owner := p, name := jc.name }, t)] }
        have there₄ : s₄.transports.get? t = some (.ibb { jibb with blocksize }) :=
          State.withIbb_get? there₂
        have conveys₄ : Conveys s₄ p { js with content := [active] } active d t :=
          conveys₁.congr rfl
        have marked : sessionChangestateSessioncontent p jc.name .active s = .done () s₁ := by
          rw [sessionChangestateSessioncontent, bind_done (readSession_done conveys.listed)]
          rfl
        have recorded : (Prog.modify (fun s =>
              { s with inits := s.inits ++ [({ owner := p, name := jc.name }, t)] }) : Run Unit) s₃
            = .done () s₄ := rfl
        have handles := (runHandle_eq env .ibb .sessionAccept t jc.transport s₁).trans handled
        obtain ⟨s', runs, lowered⟩ := ih conveys₄ there₄
        refine ⟨s', ?_, ?_⟩
        · rw [found]
          dsimp only
          rw [bind_done marked, bind_done (deref_done conveys.transfuncs),
            bind_done (deref_done conveys.transport)]
          refine (bind_done handles).trans ?_
          refine (bind_done recorded).trans ?_
          exact runs
        · obtain ⟨state, conveys'⟩ := lowered.conveys
          obtain ⟨blocksize', lower', stream⟩ := lowered.stream
          exact ⟨⟨state, conveys'⟩, ⟨blocksize', Nat.le_trans lower' lower, stream⟩,
            lowered.infoList, lowered.ackHandlers, lowered.idHandlers, lowered.sent⟩
      · have missing : sessionFindSessioncontent js jc.name = none := by
          rw [sessionFindSessioncontent, conveys.only]
          simp [named]
        rw [missing]
        exact ih conveys there

/-- A session-accept for the session, from which control came back. -/
theorem Conveys.accept_lowers (conveys : Conveys s p js sc d t)
    (there : s.transports.get? t = some (.ibb jibb)) {w : World} {message : LmMessage}
    {jn : JingleNode} (requested : jingleRequest env message = some jn)
    (action : jn.action = .sessionAccept) (found : (sessionFind s jn).map Prod.fst = some p)
    {s' : State} {result : LmHandlerResult}
    (run : jingleHandleIq env w message s = .done result s')
    : ∃ answer, Lowered (s.replied message answer) s' p js sc d t jibb := by
  have handled : actionHandler env w jn.action = some (handleSessionAccept env) := by
    rw [action]
    rfl
  have same := (jingleRequest_node requested).1
  obtain ⟨jn', run⟩ := jingleHandleIq_ends requested handled run
  obtain ⟨cell, hit, rfl⟩ := Option.map_eq_some_iff.mp found
  have looked : sessionFindBySid s jn.sid jn.message.getFrom = some cell := hit
  rw [handleSessionAccept, bind_get, looked] at run
  dsimp only at run
  have replied (answer : LmMessage) : Conveys (s.replied message answer) cell.1 js sc d t :=
    conveys.congr rfl
  cases ok : (checkContents jn).ok with
  | false =>
      rw [if_pos ok] at run
      obtain ⟨error, s₄, known, run⟩ := of_bind_done run
      cases fault : (checkContents jn).err with
      | none =>
          rw [fault] at known
          cases known
      | some gerror =>
          rw [fault] at known
          cases known
          cases run
          rw [same]
          exact ⟨_, (replied _).lowered_refl there⟩
  | true =>
      rw [if_neg (by simp [ok])] at run
      obtain ⟨_, s₄, acked, run⟩ := of_bind_done run
      cases acked
      obtain ⟨_, s₅, accepts, run⟩ := of_bind_done run
      cases run
      rw [same] at accepts
      obtain ⟨s₆, again, lowered⟩ :=
        (replied (message.newIqFromQuery .result)).acceptContents_lowers env there
          (checkContents jn).jn.content
      cases again.symm.trans accepts
      exact ⟨_, lowered⟩

-----------------------------------------------------------------------------------------
-- session-terminate
-----------------------------------------------------------------------------------------

/-- What `stop` reports. -/
def JingleFT.report (env : Env) (ft : JingleFT) : StopReport :=
  if ft.transmit < ft.size then
    .incomplete
  else
    match ft.hash, ft.md5 with
    | some hash, .running seen =>
        if gAsciiStrncaseeq hash (env.md5 seen) 32 then .verified else .corrupt
    | _, _ => .notVerified

/-- The state after `stop` of the transfer. -/
def State.stopFt (s : State) (env : Env) (w : World) (d : FtPtr) (ft : JingleFT) : State :=
  { s.storing d ft.shutDown.stopped (shutdownOps w d ft) with
    stopReports := s.stopReports ++ [(d, ft.report env)] }

theorem stop_eq (env : Env) (w : World) (transfer : s.infoList.get? d = some ft)
    (alive : ft.md5 ≠ .freed)
    : FileTransfer.stop env w d s = .done () (s.stopFt env w d ft) := by
  have there := State.storing_get? transfer ft.shutDown (shutdownOps w d ft)
  have stopped (state : JingleFTState)
      : modifyFt d (fun jft => { jft with state })
            (s.storing d ft.shutDown (shutdownOps w d ft))
          = .done () (s.storing d { ft.shutDown with state } (shutdownOps w d ft)) := by
    rw [modifyFt_done there, State.storing_storing, List.append_nil]
  rw [FileTransfer.stop, bind_done (readFt_done transfer), bind_done (shutdown_done w transfer)]
  unfold State.stopFt JingleFT.stopped JingleFT.report
  by_cases early : ft.transmit < ft.size
  · have before : ft.shutDown.transmit < ft.shutDown.size := early
    rw [if_pos early, bind_done (stopped _), if_pos before, if_pos early]
    rfl
  · have whole : ¬ft.shutDown.transmit < ft.shutDown.size := early
    rw [if_neg early, bind_done (stopped _), if_neg whole, if_neg early]
    cases ft.hash with
    | none => rfl
    | some hash =>
        cases md5 : ft.md5 with
        | null => rfl
        | freed => exact absurd md5 alive
        | running seen =>
            have checked (s : State) : FileTransfer.checkHash env hash (.running seen) s
                = .done (gAsciiStrncaseeq hash (env.md5 seen) 32) s := rfl
            dsimp only
            rw [bind_done (checked _)]
            split
            · rfl
            · rfl

/-- A transfer that `stop` does nothing for but to give it its last state: its checksum was not
freed, and no bytes of it wait for its file.
-/
structure JingleFT.AtRest (ft : JingleFT) : Prop where
  alive : ft.md5 ≠ .freed
  idle : ft.waiting = []

theorem State.stopFt_atRest (rest : ft.AtRest) (env : Env) (w : World)
    : s.stopFt env w d ft
      = { s.withFt d ft.stopped with stopReports := s.stopReports ++ [(d, ft.report env)] } := by
  unfold stopFt JingleFT.shutDown shutdownOps
  rw [rest.idle]
  simp [storing, withFt]

/-- A lookup that finds the session of the content gives it as it is. -/
theorem Conveys.of_find (conveys : Conveys s p js sc d t) {jn : JingleNode}
    {cell : SessionPtr × JingleSession} (hit : sessionFind s jn = some cell) (same : cell.1 = p)
    : cell.2 = js := by
  have member : cell ∈ s.sessions.cells := List.mem_of_find?_eq_some hit
  have listed : s.sessions.get? p = some cell.2 :=
    Pool.get?_eq_some_iff.mpr (same ▸ member)
  exact Option.some.inj (listed.symm.trans conveys.listed)

/-- What `terminateContents` leaves of the only content of a session. -/
structure Stopped (env : Env) (s s' : State) (sender : Option String) (p : SessionPtr)
    (js : JingleSession) (d : FtPtr) (ft : JingleFT)
    : Prop where
  listed : s'.sessions.get? p = some { js with content := [] }
  sessions : s'.sessions.erase p = s.sessions.erase p
  infoList : s'.infoList = if sender = some js.recipient
    then s.infoList.modify d (fun _ => ft.stopped) else s.infoList
  reports : sender = some js.recipient →
    s'.stopReports = s.stopReports ++ [(d, ft.report env)]
  ackHandlers : s'.ackHandlers = s.ackHandlers
  idHandlers : s'.idHandlers = s.idHandlers
  disk : s'.disk = s.disk
  sent : s'.sent = s.sent

/-- Unlinking the only content. -/
theorem removeOnly_eq (listed : s.sessions.get? p = some js) (only : js.content = [sc])
    : sessionRemoveSessioncontent p sc.name s
      = .done 0 (s.withContent p (removeFirst sc.name)) := by
  have content : sessionFindSessioncontent js sc.name = some sc := by
    simp [sessionFindSessioncontent, only]
  have emptied : removeFirst sc.name js.content = [] := by
    simp only [only, removeFirst, if_pos]
  rw [sessionRemoveSessioncontent, bind_done (readSession_done listed), content]
  dsimp only
  rw [bind_done (modifyContent_eq s p (removeFirst sc.name)), emptied]
  rfl

theorem withoutOnly_listed (listed : s.sessions.get? p = some js) (only : js.content = [sc])
    : (s.withContent p (removeFirst sc.name)).sessions.get? p
      = some { js with content := [] } := by
  rw [State.withContent_listed listed, only]
  simp [removeFirst]

/-- The rest of the loop behind the only content: the stale link leads to no further one. -/
def afterOnly (env : Env) (w : World) (p : SessionPtr) (sender : Option String) : Run Unit := do
  if ← readFreedLink w then
    terminateContents env w p sender []

theorem afterOnly_runs {sender : Option String} {w : World} (kept : w.freedLink ≠ .traps)
    : afterOnly env w p sender s = .done () { s with staleReads := s.staleReads + 1 } := by
  unfold afterOnly readFreedLink
  cases link : w.freedLink with
  | traps => exact absurd link kept
  | null => rfl
  | intact => rfl

theorem afterOnly_stops {sender : Option String} {w : World} (traps : w.freedLink = .traps)
    : afterOnly env w p sender s = .fault (.useAfterFree .listNode) s := by
  unfold afterOnly readFreedLink
  rw [traps]
  rfl

/-- The content is stopped and unlinked before the loop goes on. -/
theorem Conveys.terminateContents_eq (conveys : Conveys s p js sc d t)
    (transfer : s.infoList.get? d = some ft) (rest : ft.AtRest) (env : Env) (w : World)
    (sender : Option String)
    : ∃ s', terminateContents env w p sender js.content s = afterOnly env w p sender s'
        ∧ Stopped env s s' sender p js d ft := by
  have erased (s : State)
      : (s.withContent p (removeFirst sc.name)).sessions.erase p = s.sessions.erase p :=
    Pool.erase_modify _ _ _
  rw [conveys.only, terminateContents, bind_done (readSession_done conveys.listed)]
  by_cases same : sender = some js.recipient
  · let s₁ := s.stopFt env w d ft
    have kept := State.stopFt_atRest (s := s) (d := d) rest env w
    have listed₁ : s₁.sessions.get? p = some js := conveys.listed
    rw [if_pos same, bind_done (deref_done conveys.appfuncs),
      bind_done (deref_done conveys.description), bind_done (stop_eq env w transfer rest.alive)]
    refine ⟨_, bind_done (removeOnly_eq listed₁ conveys.only), withoutOnly_listed listed₁
      conveys.only, erased s₁, ?infoList, fun _ => rfl, rfl, rfl, ?disk, rfl⟩
    case infoList =>
      rw [if_pos same]
      exact (congrArg State.infoList kept :)
    case disk => exact (congrArg State.disk kept :)
  · rw [if_neg same]
    refine ⟨_, bind_done (removeOnly_eq conveys.listed conveys.only), withoutOnly_listed
      conveys.listed conveys.only, erased s, ?_, fun asked => absurd asked same, rfl, rfl, rfl,
      rfl⟩
    rw [if_neg same]
    rfl

/-- What a session-terminate leaves: the session is gone, and its transfer was stopped if the
sender is spelled as in the session.
-/
structure Terminated (env : Env) (s s' : State) (message : LmMessage) (p : SessionPtr)
    (js : JingleSession) (d : FtPtr) (ft : JingleFT)
    : Prop where
  sessions : s'.sessions = s.sessions.erase p
  infoList : s'.infoList = if message.getFrom = some js.recipient
    then s.infoList.modify d (fun _ => ft.stopped) else s.infoList
  reports : message.getFrom = some js.recipient →
    s'.stopReports = s.stopReports ++ [(d, ft.report env)]
  ackHandlers : s'.ackHandlers = s.ackHandlers
  idHandlers : s'.idHandlers = s.idHandlers
  disk : s'.disk = s.disk
  sent : ∃ answer, s'.sent = s.sent ++ [.reply message answer]

/-- The transfer stays listed. -/
theorem Terminated.transfer {s' : State} {message : LmMessage}
    (ends : Terminated env s s' message p js d ft) (there : s.infoList.get? d = some ft)
    : s'.infoList.get? d
      = some (if message.getFrom = some js.recipient then ft.stopped else ft) := by
  rw [ends.infoList]
  split
  · rw [Pool.get?_modify_self, there]
    rfl
  · exact there

section Terminate

variable {w : World} {message : LmMessage} {jn : JingleNode}

/-- The handler stops the content and then follows the link of its freed node. -/
theorem Conveys.terminate_eq (conveys : Conveys s p js sc d t)
    (transfer : s.infoList.get? d = some ft) (rest : ft.AtRest) (env : Env) (w : World)
    (found : (sessionFind s jn).map Prod.fst = some p)
    : ∃ s', Stopped env s s' jn.message.getFrom p js d ft
        ∧ handleSessionTerminate env w jn s
          = (do
              afterOnly env w p jn.message.getFrom
              sessionDelete w p
              jingleAckIq jn.message
              Prog.modify (fun s => { s with closedByPeer := s.closedByPeer ++ [p] })
              pure jn : Run JingleNode) s' := by
  obtain ⟨cell, hit, rfl⟩ := Option.map_eq_some_iff.mp found
  have known : cell.2 = js := conveys.of_find hit rfl
  obtain ⟨s', goes, stopped⟩ :=
    conveys.terminateContents_eq transfer rest env w jn.message.getFrom
  refine ⟨s', stopped, ?_⟩
  rw [handleSessionTerminate, bind_get, hit]
  dsimp only
  rw [known]
  exact bind_congr_run goes _

/-- A session-terminate for a session with one content, in surroundings where the freed node can
still be read.
-/
theorem Conveys.terminate_runs (conveys : Conveys s p js sc d t)
    (transfer : s.infoList.get? d = some ft) (rest : ft.AtRest)
    (requested : jingleRequest env message = some jn) (action : jn.action = .sessionTerminate)
    (found : (sessionFind s jn).map Prod.fst = some p) (kept : w.freedLink ≠ .traps)
    : ∃ s', jingleHandleIq env w message s = .done .removeMessage s'
        ∧ Terminated env s s' message p js d ft := by
  have handled : actionHandler env w jn.action = some (handleSessionTerminate env w) := by
    rw [action]
    rfl
  obtain ⟨same, _, notFreed⟩ := jingleRequest_node requested
  obtain ⟨s₂, stopped, goes⟩ := conveys.terminate_eq transfer rest env w found
  let s₃ : State := { s₂ with staleReads := s₂.staleReads + 1 }
  let s₄ : State := { s₃ with sessions := s₃.sessions.erase p }
  have listed : s₃.sessions.get? p = some { js with content := [] } := stopped.listed
  have deleted : sessionDelete w p s₃ = .done () s₄ := by
    rw [sessionDelete, bind_done (readSession_done listed)]
    rfl
  let s₅ := s₄.replied jn.message (jn.message.newIqFromQuery .result)
  let s₆ : State := { s₅ with closedByPeer := s₅.closedByPeer ++ [p] }
  have ends : handleSessionTerminate env w jn s = .done jn s₆ := by
    rw [goes, bind_done (afterOnly_runs kept), bind_done deleted]
    rfl
  refine ⟨s₆, ?_, ?_⟩
  · rw [jingleHandleIq_request requested handled, bind_done ends, jingleFreeJinglenode, notFreed]
    rfl
  · have sent : s₆.sent = s.sent ++ [.reply message (jn.message.newIqFromQuery .result)] := by
      rw [← same, ← stopped.sent]
      rfl
    exact {
      sessions := stopped.sessions
      infoList := same ▸ stopped.infoList
      reports := same ▸ stopped.reports
      ackHandlers := stopped.ackHandlers
      idHandlers := stopped.idHandlers
      disk := stopped.disk
      sent := ⟨_, sent⟩
    }

theorem Conveys.terminate_stops (conveys : Conveys s p js sc d t)
    (transfer : s.infoList.get? d = some ft) (rest : ft.AtRest)
    (requested : jingleRequest env message = some jn) (action : jn.action = .sessionTerminate)
    (found : (sessionFind s jn).map Prod.fst = some p) (traps : w.freedLink = .traps)
    : ∃ s', jingleHandleIq env w message s = .fault (.useAfterFree .listNode) s' := by
  have handled : actionHandler env w jn.action = some (handleSessionTerminate env w) := by
    rw [action]
    rfl
  obtain ⟨s₂, stopped, goes⟩ := conveys.terminate_eq transfer rest env w found
  have stops := goes.trans (bind_fault (afterOnly_stops traps))
  exact ⟨s₂, by rw [jingleHandleIq_request requested handled, bind_fault stops]⟩

/-- The same of a run that came back. -/
theorem Conveys.terminate_ends (conveys : Conveys s p js sc d t)
    (transfer : s.infoList.get? d = some ft) (rest : ft.AtRest)
    (requested : jingleRequest env message = some jn) (action : jn.action = .sessionTerminate)
    (found : (sessionFind s jn).map Prod.fst = some p) {s' : State} {result : LmHandlerResult}
    (run : jingleHandleIq env w message s = .done result s')
    : Terminated env s s' message p js d ft := by
  by_cases traps : w.freedLink = .traps
  · obtain ⟨s₂, stops⟩ := conveys.terminate_stops transfer rest requested action found traps
    cases stops.symm.trans run
  · obtain ⟨s₂, ends, terminated⟩ :=
      conveys.terminate_runs transfer rest requested action found traps
    cases ends.symm.trans run
    exact terminated

end Terminate

end McabberJingle
