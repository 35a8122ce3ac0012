import McabberJingle.Effects.Handlers
import McabberJingle.Program.Following
import McabberJingle.Transfer.Receiver

/-! Which transfers a session-terminate stops, and what it does to the files. -/

namespace McabberJingle

open Program Program.Prog

variable {env : Env} {w : World} {s s' : State}

-----------------------------------------------------------------------------------------
-- Between two transfers
-----------------------------------------------------------------------------------------

/-- Every session `p` is with this peer. -/
def PeerIs (p : SessionPtr) (peer : String) (s : State) : Prop :=
  ∀ js, s.sessions.get? p = some js → js.recipient = peer

/-- The transfers and the disk are as they were, and the session is with the same peer. -/
structure Unlinking (p : SessionPtr) (peer : String) (s s' : State) : Prop where
  infoList : s'.infoList = s.infoList
  disk : s'.disk = s.disk
  peer : PeerIs p peer s → PeerIs p peer s'

instance {p : SessionPtr} {peer : String} : IsPreorder State (Unlinking p peer) where
  refl _ := ⟨rfl, rfl, id⟩
  trans _ _ _ first second :=
    ⟨second.infoList.trans first.infoList, second.disk.trans first.disk, second.peer ∘ first.peer⟩

section Unlinking

variable (p : SessionPtr) (peer : String)

theorem unlinking_aside {f : State → State} (infoList : ∀ s, (f s).infoList = s.infoList)
    (disk : ∀ s, (f s).disk = s.disk) (sessions : ∀ s, (f s).sessions = s.sessions)
    : Obeys (Unlinking p peer) (Prog.modify f : Run Unit) :=
  obeys_modify (fun s => ⟨infoList s, disk s, fun same js listed =>
    same js (sessions s ▸ listed)⟩)

theorem sessionRemoveSessioncontent_unlinks (name : String)
    : Obeys (Unlinking p peer) (sessionRemoveSessioncontent p name) := by
  refine obeys_bind (obeys_readOnly (readSession_readOnly p)) (fun js => ?_)
  split
  · exact obeys_pure _
  · refine obeys_bind (obeys_modify (fun s => ⟨rfl, rfl, fun same js' listed => ?_⟩))
      (fun _ => obeys_pure _)
    rw [Pool.get?_modify_self, Option.map_eq_some_iff] at listed
    obtain ⟨old, there, rfl⟩ := listed
    exact same old there

theorem readFreedLink_unlinks (w : World) : Obeys (Unlinking p peer) (readFreedLink w) := by
  have counted : Obeys (Unlinking p peer)
      (Prog.modify (fun s => { s with staleReads := s.staleReads + 1 }) : Run Unit) :=
    unlinking_aside p peer (fun _ => rfl) (fun _ => rfl) (fun _ => rfl)
  unfold readFreedLink
  split
  · exact obeys_fail _
  · exact obeys_bind counted (fun _ => obeys_pure _)
  · exact obeys_bind counted (fun _ => obeys_pure _)

theorem sessionDelete_unlinks (w : World) : Obeys (Unlinking p peer) (sessionDelete w p) := by
  have freed (content : List SessionContent)
      : Obeys (Unlinking p peer) (sessionFreeContents w content) := by
    induction content with
    | nil => exact obeys_pure _
    | cons sc rest ih =>
        exact obeys_bind (readFreedLink_unlinks p peer w) (fun _ => obeys_ite ih (obeys_pure _))
  refine obeys_bind (obeys_readOnly (readSession_readOnly p)) (fun js => ?_)
  refine obeys_bind (obeys_modify (fun s => ⟨rfl, rfl, fun _ js' listed => ?_⟩))
    (fun _ => freed js.content)
  rw [Pool.get?_erase_self] at listed
  cases listed

end Unlinking

-----------------------------------------------------------------------------------------
-- One transfer
-----------------------------------------------------------------------------------------

/-- The channel is shut down and the transfer gets its last state; the report is made aside. -/
theorem FileTransfer.stop_ends (p : SessionPtr) (peer : String) {d : FtPtr}
    (ends : FileTransfer.stop env w d s = .done () s')
    : ∃ ft, s.infoList.get? d = some ft
        ∧ Unlinking p peer (s.storing d ft.shutDown.stopped (shutdownOps w d ft)) s' := by
  obtain ⟨ft, s, read, stops⟩ := of_bind_done ends
  obtain ⟨rfl, there⟩ := wp_done (readFt_known d) read
  refine ⟨ft, there, ?_⟩
  have reported (report : StopReport) : Obeys (Unlinking p peer) (stopReport d report) :=
    unlinking_aside p peer (fun _ => rfl) (fun _ => rfl) (fun _ => rfl)
  have there₁ := State.storing_get? there ft.shutDown (shutdownOps w d ft)
  have given (state : JingleFTState)
      : modifyFt d (fun jft => { jft with state })
            (s.storing d ft.shutDown (shutdownOps w d ft))
          = .done () (s.storing d { ft.shutDown with state } (shutdownOps w d ft)) := by
    rw [modifyFt_done there₁, State.storing_storing, List.append_nil]
  rw [bind_done (shutdown_done w there)] at stops
  split at stops
  · rename_i early
    have last : ft.shutDown.stopped = { ft.shutDown with state := .error } := by
      unfold JingleFT.stopped
      rw [if_pos (show ft.shutDown.transmit < ft.shutDown.size from early)]
    rw [bind_done (given _), ← last] at stops
    exact (reported _ _).done stops
  · rename_i whole
    have last : ft.shutDown.stopped = { ft.shutDown with state := .ending } := by
      unfold JingleFT.stopped
      rw [if_neg (show ¬ft.shutDown.transmit < ft.shutDown.size from whole)]
    rw [bind_done (given _), ← last] at stops
    refine Follows.done ?_ stops
    split
    · exact reported _ _
    · refine obeys_bind (obeys_readOnly (checkHash_readOnly env _ _)) (fun same => ?_) _
      exact obeys_ite (reported _) (reported _)
    · exact reported _ _

-----------------------------------------------------------------------------------------
-- One walk
-----------------------------------------------------------------------------------------

/-- These transfers are stopped in turn, and nothing else happens to transfers or the disk. -/
inductive StopsInTurn (w : World) : List FtPtr → State → State → Prop where
  | done {s s' : State} (infoList : s'.infoList = s.infoList) (disk : s'.disk = s.disk)
      : StopsInTurn w [] s s'
  | stop {d : FtPtr} {ft : JingleFT} {rest : List FtPtr} {s s₁ s' : State}
      (there : s.infoList.get? d = some ft)
      (infoList : s₁.infoList = s.infoList.modify d (fun _ => ft.shutDown.stopped))
      (disk : s₁.disk = s.disk ++ shutdownOps w d ft) (more : StopsInTurn w rest s₁ s')
      : StopsInTurn w (d :: rest) s s'

theorem StopsInTurn.before {ds : List FtPtr} {s₁ : State} (stops : StopsInTurn w ds s₁ s')
    (infoList : s₁.infoList = s.infoList) (disk : s₁.disk = s.disk)
    : StopsInTurn w ds s s' := by
  cases stops with
  | done sameList sameDisk => exact .done (sameList.trans infoList) (sameDisk.trans disk)
  | stop there sameList sameDisk more =>
      rw [infoList] at there sameList
      rw [disk] at sameDisk
      exact .stop there sameList sameDisk more

theorem StopsInTurn.after {ds : List FtPtr} {s₁ : State} (stops : StopsInTurn w ds s s₁)
    (infoList : s'.infoList = s₁.infoList) (disk : s'.disk = s₁.disk)
    : StopsInTurn w ds s s' := by
  induction stops with
  | done sameList sameDisk => exact .done (infoList.trans sameList) (disk.trans sameDisk)
  | stop there sameList sameDisk _ ih => exact .stop there sameList sameDisk (ih infoList disk)

/-- A transfer that was stopped and whose channel was shut down. -/
theorem JingleFT.waiting_stopped (ft : JingleFT) : ft.shutDown.stopped.waiting = [] := by
  rcases ft with ⟨_, _, _, _, _, _ | _ | _ | _, _, _, _, _, _⟩ <;> rfl

/-- Stopping a transfer again makes no difference to it. -/
theorem JingleFT.stopped_again (ft : JingleFT)
    : ft.shutDown.stopped.shutDown.stopped = ft.shutDown.stopped := by
  have idle : ft.shutDown.stopped.shutDown = ft.shutDown.stopped := by
    conv_lhs => rw [JingleFT.shutDown, if_pos ft.waiting_stopped]
  rw [idle]
  rfl

/-- Each transfer counts once. -/
theorem StopsInTurn.infoList {ds : List FtPtr} (stops : StopsInTurn w ds s s')
    : s'.infoList = s.infoList.modifyAll (fun ft => ft.shutDown.stopped) ds := by
  induction stops with
  | done infoList disk => exact infoList
  | @stop d ft rest s s₁ s' there infoList disk _ ih =>
      have first : s₁.infoList = s.infoList.modify d (fun ft => ft.shutDown.stopped) := by
        rw [infoList]
        refine Pool.modify_congr (fun ft' there' => ?_)
        cases there.symm.trans there'
        rfl
      rw [ih, first]
      rfl

/-- What the stops write is what waited in the channels. -/
theorem StopsInTurn.disk {ds : List FtPtr} (stops : StopsInTurn w ds s s')
    : ∃ ops, s'.disk = s.disk ++ ops
        ∧ ∀ d, (∃ op ∈ ops, op.ft = d) ↔ d ∈ ds ∧ Unflushed s d := by
  induction stops with
  | done infoList disk => exact ⟨[], by rw [disk, List.append_nil], by simp⟩
  | @stop d ft rest s s₁ s' there infoList disk _ ih =>
      obtain ⟨ops, appended, exactly⟩ := ih
      refine ⟨shutdownOps w d ft ++ ops, by rw [appended, disk, List.append_assoc], fun d' => ?_⟩
      have ours : (∃ op ∈ shutdownOps w d ft, op.ft = d') ↔ d' = d ∧ ft.waiting ≠ [] := by
        unfold shutdownOps
        cases ft.waiting with
        | nil => simp
        | cons byte rest => simp [DiskOp.ft, eq_comm]
      have later : Unflushed s₁ d' ↔ d' ≠ d ∧ Unflushed s d' := by
        unfold Unflushed
        rw [infoList]
        by_cases here : d' = d
        · subst here
          simp [there, JingleFT.waiting_stopped]
        · rw [Pool.get?_modify_of_ne _ here]
          simp [here]
      have here : Unflushed s d ↔ ft.waiting ≠ [] := by
        simp [Unflushed, there]
      simp only [List.mem_append, or_and_right, exists_or, ours, exactly, later, List.mem_cons]
      by_cases same : d' = d
      · subst same
        simp [here]
      · simp [same]

/-- The contents that the walk of a session-terminate gets to: it reads on from a freed cell. -/
def visited (w : World) (contents : List SessionContent) : List SessionContent :=
  match w.freedLink with
  | .intact => contents
  | _ => contents.take 1

theorem readFreedLink_goes {going : Bool} (reads : readFreedLink w s = .done going s')
    (contents : List SessionContent) (sc : SessionContent)
    : visited w (sc :: contents) = sc :: if going then visited w contents else [] := by
  unfold readFreedLink at reads
  unfold visited
  cases link : w.freedLink <;> rw [link] at reads <;> cases reads <;> rfl

/-- The transfers that are stopped if `sender` ends a session with `peer`. -/
def stopsOf (w : World) (sender : Option String) (peer : String) (contents : List SessionContent)
    : List FtPtr :=
  if sender = some peer then (visited w contents).filterMap SessionContent.description else []

/-- By induction on the contents. -/
theorem terminateContents_stops {p : SessionPtr} {sender : Option String} {peer : String}
    {contents : List SessionContent} (same : PeerIs p peer s)
    (ends : terminateContents env w p sender contents s = .done () s')
    : StopsInTurn w (stopsOf w sender peer contents) s s' := by
  induction contents generalizing s with
  | nil =>
      cases ends
      have nothing : visited w [] = [] := by unfold visited; split <;> rfl
      rw [stopsOf, nothing, List.filterMap_nil, ite_self]
      exact .done rfl rfl
  | cons sc rest ih =>
      obtain ⟨js, s, read, walks⟩ := of_bind_done ends
      obtain ⟨rfl, listed⟩ := wp_done (readSession_known p) read
      have recipient : js.recipient = peer := same js listed
      -- what the rest of the walk does, from where this content is to be unlinked
      have unlink {s : State} (same : PeerIs p peer s)
          (walks : (do
            let _ ← sessionRemoveSessioncontent p sc.name
            if ← readFreedLink w then
              terminateContents env w p sender rest : Run Unit) s = .done () s')
          : ∃ more, visited w (sc :: rest) = sc :: more
              ∧ StopsInTurn w (if sender = some peer then
                  more.filterMap SessionContent.description else []) s s' := by
        obtain ⟨_, s₁, removed, walks⟩ := of_bind_done walks
        obtain ⟨going, s₂, reads, walks⟩ := of_bind_done walks
        have aside : Unlinking p peer s s₂ := trans_of (Unlinking p peer)
          ((sessionRemoveSessioncontent_unlinks p peer sc.name s).done removed)
          ((readFreedLink_unlinks p peer w s₁).done reads)
        refine ⟨_, readFreedLink_goes reads rest sc, ?_⟩
        cases going with
        | true => exact (ih (aside.peer same) walks).before aside.infoList aside.disk
        | false =>
            cases walks
            rw [if_neg Bool.false_ne_true, List.filterMap_nil, ite_self]
            exact .done aside.infoList aside.disk
      rw [recipient] at walks
      by_cases sent : sender = some peer
      · rw [if_pos sent] at walks
        obtain ⟨_, s₁, app, describes⟩ := of_bind_done walks
        obtain ⟨same₁, _⟩ := wp_done (deref_known .appfuncs _) app
        obtain ⟨d, s₂, description, stops⟩ := of_bind_done describes
        obtain ⟨same₂, described⟩ := wp_done (deref_known .description _) description
        obtain ⟨_, s₃, stopped, onward⟩ := of_bind_done stops
        cases same₁
        cases same₂
        obtain ⟨ft, there, stored⟩ := FileTransfer.stop_ends p peer stopped
        obtain ⟨more, walked, later⟩ := unlink (stored.peer same) onward
        rw [stopsOf, walked, if_pos sent, List.filterMap_cons_some described]
        rw [if_pos sent] at later
        exact .stop there stored.infoList stored.disk later
      · rw [if_neg sent] at walks
        obtain ⟨more, _, later⟩ := unlink same walks
        rw [if_neg sent] at later
        rw [stopsOf, if_neg sent]
        exact later

-----------------------------------------------------------------------------------------
-- One session-terminate
-----------------------------------------------------------------------------------------

/-- The transfers that a session-terminate stops. -/
def stopped (env : Env) (w : World) (s : State) (message : LmMessage) : List FtPtr :=
  match (jingleRequest env message).filter (fun jn => jn.action = .sessionTerminate) with
  | none => []
  | some jn =>
      match sessionFind s jn with
      | none => []
      | some (_, js) => stopsOf w jn.message.getFrom js.recipient js.content

/-- The transfers of the session that it names are stopped, if it names one. -/
theorem handleSessionTerminate_stops {jn jn' : JingleNode}
    (ends : handleSessionTerminate env w jn s = .done jn' s')
    : StopsInTurn w (match sessionFind s jn with
        | none => []
        | some (_, js) => stopsOf w jn.message.getFrom js.recipient js.content) s s' := by
  unfold handleSessionTerminate at ends
  rw [bind_get] at ends
  cases found : sessionFind s jn with
  | none =>
      rw [found] at ends
      cases ends
      exact .done rfl rfl
  | some cell =>
      obtain ⟨p, js⟩ := cell
      rw [found] at ends
      have same : PeerIs p js.recipient s := by
        intro js' listed
        rw [sessionFindBySid_listed found] at listed
        cases listed
        rfl
      obtain ⟨_, s₁, walked, ends⟩ := of_bind_done ends
      obtain ⟨_, s₂, deleted, ends⟩ := of_bind_done ends
      cases ends
      have aside := (sessionDelete_unlinks p js.recipient w s₁).done deleted
      exact (terminateContents_stops same walked).after aside.infoList aside.disk

/-- What a session-terminate that was handled to its end stopped. -/
theorem terminate_stops {message : LmMessage} {jn : JingleNode} {result : LmHandlerResult}
    (valid : jingleRequest env message = some jn) (action : jn.action = .sessionTerminate)
    (ends : jingleHandleIq env w message s = .done result s')
    : StopsInTurn w (stopped env w s message) s s' := by
  have handled : actionHandler env w jn.action = some (handleSessionTerminate env w) := by
    rw [action]
    rfl
  obtain ⟨jn', walked⟩ := jingleHandleIq_ends valid handled ends
  have stops := handleSessionTerminate_stops walked
  rw [stopped, valid, Option.filter_some, if_pos (by simp [action])]
  dsimp only
  cases found : sessionFind s jn with
  | none =>
      rw [found] at stops
      exact stops
  | some cell =>
      rw [found] at stops
      exact stops

end McabberJingle
