import McabberJingle.Effects.Sessions

/-! Changes made by the sending side of a transfer. -/

namespace McabberJingle

open Program Program.Prog

variable {r : Rights} {inv : State → Prop} {s : State}

/-- Who a session is stays as it is for as long as it is listed. -/
def Identified (ident : SessionIdent) (s : State) : Prop :=
  ident.ptr < s.sessions.next
  ∧ ∀ js, s.sessions.get? ident.ptr = some js → js.ident ident.ptr = ident

theorem identified_of_listed {p : SessionPtr} {js : JingleSession}
    (listed : s.sessions.get? p = some js)
    : Identified (js.ident p) s :=
  ⟨Pool.lt_next listed, fun js' same => by cases listed.symm.trans same; rfl⟩

/-- Addresses are not reused and no change touches who a session is. -/
theorem identified_effect {ident : SessionIdent} {s' : State} (known : Identified ident s)
    (effect : Effect r s s')
    : Identified ident s' := by
  obtain ⟨old, same⟩ := known
  have erased (q : SessionPtr) (js : JingleSession)
      (listed : (s.sessions.erase q).get? ident.ptr = some js)
      : js.ident ident.ptr = ident := by
    by_cases here : ident.ptr = q
    · rw [here, Pool.get?_erase_self] at listed
      cases listed
    · rw [Pool.get?_erase_of_ne here] at listed
      exact same js listed
  cases effect with
  | content q js g listed change =>
      refine ⟨old, fun js' listed' => ?_⟩
      by_cases here : ident.ptr = q
      · subst here
        simp only [Pool.get?_modify_self, listed, Option.map_some, Option.some.injEq]
          at listed'
        subst listed'
        exact same js listed
      · simp only [Pool.get?_modify_of_ne _ here] at listed'
        exact same js' listed'
  | openSession js empty allowed absent =>
      refine ⟨Nat.lt_succ_of_lt old, fun js' listed' => ?_⟩
      simp only [Pool.get?_alloc_of_ne _ (Nat.ne_of_lt old)] at listed'
      exact same js' listed'
  | close q allowed => exact ⟨old, erased q⟩
  | finish q js reason listed allowed outward => exact ⟨old, erased q⟩
  | _ => exact ⟨old, same⟩

theorem Stable.identified (stable : Stable r inv) (ident : SessionIdent)
    : Stable r (fun s => inv s ∧ Identified ident s) :=
  fun _ _ holds effect => ⟨stable _ _ holds.1 effect, identified_effect holds.2 effect⟩

/-- What the sending side needs: it ends whatever transfer it reaches, and the sessions with
something to send may be written to at their `to`.
-/
structure MaySend (r : Rights) (inv : State → Prop) : Prop where
  ft : ∀ d, r.ft d
  transport : ∀ t, r.transport t
  change : ∀ p, r.change p
  drop : ∀ p name, r.drop p name
  close : ∀ p, r.close p
  await : ∀ sc, r.await (.ibbSend sc)
  outward : ∀ s, inv s → ∀ p js, s.sessions.get? p = some js → Sends s js →
    r.outward (js.ident p)

-----------------------------------------------------------------------------------------
-- ibb.c
-----------------------------------------------------------------------------------------

section Packets

variable (stable : Stable r inv) (env : Env)

include stable

/-- A packet and the next number are one change. -/
theorem ibbSendInternal_holds {p : SessionPtr} {js : JingleSession} {t : TransportPtr}
    (sc : SessionContentRef) (buf : List UInt8) (holds : inv s)
    (listed : s.sessions.get? p = some js) (carries : Carries s p t)
    (outward : r.outward (js.ident p)) (await : r.await (.ibbSend sc)) (allowed : r.transport t)
    : (ibbSendInternal env sc p js t buf).wp (fun _ => inv)
        (fun error _ => NotAckHandle error) s := by
  refine wp_seq (readIbb_known t) ?_
  rintro jibb s' ⟨rfl, found⟩
  exact stable _ _ holds
    (.packet p js t jibb sc env buf listed carries found allowed outward await)

theorem ibbSendBlock_holds {p : SessionPtr} {js : JingleSession} {t : TransportPtr}
    (sc : SessionContentRef) (holds : inv s) (listed : s.sessions.get? p = some js)
    (carries : Carries s p t) (outward : r.outward (js.ident p)) (await : r.await (.ibbSend sc))
    (allowed : r.transport t)
    : (ibbSendBlock env sc p js t).wp (fun _ => inv) (fun error _ => NotAckHandle error) s := by
  refine wp_seq (readIbb_known t) ?_
  rintro jibb s' ⟨rfl, found⟩
  refine wp_cut (fun _ s'' => inv s'' ∧ s''.sessions = s'.sessions) ?_ ?_
  · refine ⟨stable _ _ holds (.transport t _ allowed ?_ ?_), rfl⟩
    · intro transport same empty full
      cases found.symm.trans same
      have nothing : jibb.buf = [] := empty
      exact (full (by simp [Transport.buffered, nothing])).elim
    · intro transport same
      cases found.symm.trans same
      exact streamsKept_ibb ⟨rfl, rfl, Or.inl rfl⟩
  · rintro _ s'' ⟨holds', sameSessions⟩
    refine ibbSendInternal_holds stable env sc _ holds' (sameSessions ▸ listed) ?_ outward await
      allowed
    exact carries.congr sameSessions

/-- `send` of the IBB table, on a transport that carries an outgoing file. -/
theorem ibbSend_holds {next : SessionContentRef → Run Unit} {sc : SessionContentRef}
    {t : TransportPtr} (buf : List UInt8) (asks : Keeps inv NotAckHandle (next sc))
    (holds : inv s) (allowed : r.transport t) (feeding : Feeding s t)
    (await : r.await (.ibbSend sc))
    (sends : ∀ p js, FindsRef s sc (some (p, js)) → Carries s p t ∧ r.outward (js.ident p))
    : (ibbSend env next sc t buf).wp (fun _ => inv) (fun error _ => NotAckHandle error) s := by
  refine wp_seq (readIbb_known t) ?_
  rintro jibb s' ⟨rfl, found⟩
  rw [wp_ite]
  refine ⟨fun _ => fail_known (by decide), fun _ => ?_⟩
  refine wp_cut (fun _ s'' => inv s'' ∧ s''.sessions = s'.sessions) ?_ ?_
  · refine ⟨stable _ _ holds (.transport t _ allowed (fun _ _ _ _ => feeding) ?_), rfl⟩
    intro transport same
    cases found.symm.trans same
    exact streamsKept_ibb ⟨rfl, rfl, Or.inl rfl⟩
  · rintro _ s'' ⟨holds', sameSessions⟩
    rw [wp_ite]
    refine ⟨fun _ => asks s'' holds', fun _ => ?_⟩
    refine wp_seq (sessionFindByRef_known sc) ?_
    rintro sess s ⟨rfl, finds⟩
    refine wp_seq (deref_known .session sess) ?_
    rintro ⟨p, js⟩ s ⟨rfl, rfl⟩
    have finds' : FindsRef s' sc (some (p, js)) := by
      simpa only [FindsRef, sessionFindBySid, sameSessions] using finds
    obtain ⟨carries, outward⟩ := sends p js finds'
    exact ibbSendBlock_holds stable env sc holds' finds.listed (carries.congr sameSessions) outward
      await allowed

/-- `end` of the IBB table. -/
theorem ibbEnd_holds {sc : SessionContentRef} {t : TransportPtr} (holds : inv s)
    (allowed : r.transport t) (await : r.await (.ibbSend sc))
    (sends : ∀ p js, FindsRef s sc (some (p, js)) → Carries s p t ∧ r.outward (js.ident p))
    : (ibbEnd env sc t).wp (fun _ => inv) (fun error _ => NotAckHandle error) s := by
  have flush : Keeps inv NotAckHandle (modifyTransport t Transport.freeBuf) := by
    intro s holds
    refine modifyTransport_holds stable holds allowed ?_ ?_
    · intro transport _ empty full
      cases transport <;> exact (full empty).elim
    · intro transport _
      cases transport with
      | ibb jibb => exact streamsKept_ibb ⟨rfl, rfl, Or.inl rfl⟩
      | s5b js5b => exact streamsKept_s5b _ _
  refine wp_seq (sessionFindByRef_known sc) ?_
  rintro sess s ⟨rfl, finds⟩
  refine wp_seq (readIbb_known t) ?_
  rintro jibb s ⟨rfl, found⟩
  rw [wp_ite]
  refine ⟨fun _ => fail_known (by decide), fun _ => ?_⟩
  refine wp_cut (fun _ => inv) ?_ (fun _ s' holds' => flush s' holds')
  unfold ibbSendRest
  rw [wp_ite]
  refine ⟨fun _ => ?_, fun _ => holds⟩
  refine wp_seq (deref_known .session sess) ?_
  rintro ⟨p, js⟩ s ⟨rfl, rfl⟩
  obtain ⟨carries, outward⟩ := sends p js finds
  exact ibbSendInternal_holds stable env sc _ holds finds.listed carries outward await allowed

end Packets

-----------------------------------------------------------------------------------------
-- sessions.c, jingle.c and filetransfer.c
-----------------------------------------------------------------------------------------

section Circle

variable (stable : Stable r inv) (env : Env) (w : World) (send : MaySend r inv)

include stable send

/-- The end of the file reaches the transport; nothing is read any more. -/
theorem handleAppData_end_holds (next : SessionContentRef → Run Unit)
    {ref : SessionContentRef} (holds : inv s)
    (outward : ∀ p js, FindsRef s ref (some (p, js)) → r.outward (js.ident p))
    : (handleAppData env next ref []).wp (fun _ => inv) (fun error _ => NotAckHandle error) s := by
  refine wp_seq (sessionFindByRef_known ref) ?_
  rintro found s ⟨rfl, finds⟩
  cases found with
  | none => exact holds
  | some cell =>
      obtain ⟨p, js⟩ := cell
      refine wp_seq (deref_known .content _) ?_
      rintro sc s ⟨rfl, named⟩
      refine wp_seq (deref_known .transfuncs _) ?_
      rintro transfuncs s ⟨rfl, _⟩
      cases transfuncs with
      | s5b => exact holds
      | ibb =>
          refine wp_seq (deref_known .transport _) ?_
          rintro t s ⟨rfl, carried⟩
          refine ibbEnd_holds stable env holds (send.transport t) (send.await _) ?_
          intro q js' finds'
          cases finds.again.unique finds'
          exact ⟨⟨js, finds.listed, sc, (sessionFindSessioncontent_mem named).1, carried⟩,
            outward p js finds⟩

/-- Bytes of an outgoing file reach the transport of the content they were read for. -/
theorem handleAppData_holds {next : SessionContentRef → Run Unit}
    (asks : ∀ sc, Keeps inv NotAckHandle (next sc)) {ref : SessionContentRef}
    (data : List UInt8) (holds : inv s)
    (feeding : ∀ p js sc t, FindsRef s ref (some (p, js)) →
      sessionFindSessioncontent js ref.name = some sc → sc.transport = some t → Feeding s t)
    (outward : ∀ p js, FindsRef s ref (some (p, js)) → r.outward (js.ident p))
    : (handleAppData env next ref data).wp (fun _ => inv)
        (fun error _ => NotAckHandle error) s := by
  refine wp_seq (sessionFindByRef_known ref) ?_
  rintro found s ⟨rfl, finds⟩
  cases found with
  | none => exact holds
  | some cell =>
      obtain ⟨p, js⟩ := cell
      refine wp_seq (deref_known .content _) ?_
      rintro sc s ⟨rfl, named⟩
      refine wp_seq (deref_known .transfuncs _) ?_
      rintro transfuncs s ⟨rfl, _⟩
      have sends (name : String) (t : TransportPtr) (carried : sc.transport = some t)
          (q : SessionPtr) (js' : JingleSession)
          (finds' : FindsRef s { owner := p, name } (some (q, js')))
          : Carries s q t ∧ r.outward (js'.ident q) := by
        cases finds.again.unique finds'
        exact ⟨⟨js, finds.listed, sc, (sessionFindSessioncontent_mem named).1, carried⟩,
          outward p js finds⟩
      cases transfuncs with
      | s5b => exact holds
      | ibb =>
          refine wp_seq (deref_known .transport _) ?_
          rintro t s ⟨rfl, carried⟩
          rw [wp_ite]
          constructor
          · intro _
            exact ibbEnd_holds stable env holds (send.transport t) (send.await _)
              (sends _ t carried)
          · intro _
            exact ibbSend_holds stable env data (asks _) holds (send.transport t)
              (feeding p js sc t finds named carried) (send.await _) (sends _ t carried)

omit stable send in
theorem handleTransNext_keeps {appSend : SessionContentRef → Run Unit}
    (sends : ∀ sc, Keeps inv NotAckHandle (appSend sc)) (sc : SessionContentRef)
    : Keeps inv NotAckHandle (handleTransNext appSend sc) := by
  intro s holds
  refine wp_seq (sessionFindByRef_known sc) ?_
  rintro found s ⟨rfl, _⟩
  cases found with
  | none => exact holds
  | some cell =>
      refine keeps_bind (deref_readOnly _ _).keeps (fun _ => ?_) _ holds
      exact keeps_bind (deref_readOnly _ _).keeps (fun _ => sends sc)

/-- The EOF branch writes to the session it was found in, which keeps its identity. -/
theorem ftSendEof_holds (next : SessionContentRef → Run Unit) {sc : SessionContentRef}
    {p : SessionPtr} {sess : JingleSession} (sc2 : SessionContent) (jft : FtPtr)
    (holds : inv s) (finds : FindsRef s sc (some (p, sess)))
    (outward : r.outward (sess.ident p))
    : (ftSendEof env w next sc p sc2 jft).wp (fun _ => inv)
        (fun error _ => NotAckHandle error) s := by
  have stable' := stable.identified (sess.ident p)
  have holds' : inv s ∧ Identified (sess.ident p) s :=
    ⟨holds, identified_of_listed finds.listed⟩
  have send' : MaySend r (fun s => inv s ∧ Identified (sess.ident p) s) :=
    { send with outward := fun s holds => send.outward s holds.1 }
  have outward' (s : State) (holds : inv s ∧ Identified (sess.ident p) s) (js : JingleSession)
      (listed : s.sessions.get? p = some js)
      : r.outward (js.ident p) := by
    have same : js.ident p = sess.ident p := holds.2.2 js listed
    rw [same]
    exact outward
  suffices kept : (ftSendEof env w next sc p sc2 jft).wp
      (fun _ s => inv s ∧ Identified (sess.ident p) s) (fun error _ => NotAckHandle error) s from
    wp_post kept (fun _ _ holds => holds.1)
  refine wp_seq (handleAppData_end_holds stable' env send' next holds' ?_) ?_
  · intro q js finds'
    cases finds.unique finds'
    exact outward
  intro _ s' holds'
  refine keeps_bind (readFt_readOnly jft).keeps (fun ft => ?_) s' holds'
  refine keeps_bind (FileTransfer.checksumGetString_readOnly env _).keeps (fun hash => ?_)
  refine keeps_bind (modifyFt_keeps stable' (send.ft jft) (.kept (fun _ => ⟨rfl, rfl⟩)))
    (fun _ => ?_)
  refine keeps_bind (sessionChangestateSessioncontent_keeps stable' _ _ (send.change p)
    (fun h => by cases h) (by decide)) (fun _ => ?_)
  intro s holds
  refine wp_seq (readSession_known p) ?_
  rintro js s ⟨rfl, listed⟩
  refine wp_seq (sendRequest_holds stable' true holds listed
    (.outward (by simp) (outward' _ holds js listed) (by simp) (fun _ h => by cases h))
    (fun untimed => absurd rfl untimed) (by simp)) ?_
  intro _ s' holds'
  refine keeps_bind (modifyFt_keeps stable' (send.ft jft) ?_) (fun _ => ?_) s' holds'
  · exact .kept (fun _ => ⟨rfl, rfl⟩)
  refine keeps_bind (sessionRemoveSessioncontent_keeps stable' _ (send.change p)
    (send.drop p _)) (fun left => ?_)
  exact keeps_ite (terminateAndDelete_keeps stable' w "success" (send.close p) outward')
    (keeps_pure _)

/-- `send` of the application table, given that the rest of the circle keeps the invariant. -/
theorem ftSendBody_keeps {next : SessionContentRef → Run Unit}
    (asks : ∀ sc, Keeps inv NotAckHandle (next sc)) (sc : SessionContentRef)
    : Keeps inv NotAckHandle (ftSendBody env w next sc) := by
  intro s holds
  refine wp_seq (sessionFindByRef_known sc) ?_
  rintro found s ⟨rfl, finds⟩
  rcases found with _ | ⟨p, sess⟩
  · exact holds
  refine wp_seq (deref_known .content _) ?_
  rintro sc2 s ⟨rfl, named⟩
  refine wp_seq (deref_known .description _) ?_
  rintro jft s ⟨rfl, described⟩
  refine wp_seq (readFt_known jft) ?_
  rintro ft s ⟨rfl, found⟩
  rw [wp_ite]
  refine ⟨fun _ => holds, fun outgoing => ?_⟩
  have member := (sessionFindSessioncontent_mem named).1
  have direction : ft.dir = .outgoing := Decidable.not_not.mp outgoing
  have outward : r.outward (sess.ident p) :=
    send.outward s holds p sess finds.listed
      ⟨sc2, member, Or.inl ⟨jft, ft, described, found, direction⟩⟩
  split
  · rename_i reads _
    cases readChars 9 reads with
    | mk status rest =>
    -- from here on only transfers differ from the state the lookups were made in
    refine wp_cut
      (fun _ s' => inv s' ∧ s'.sessions = s.sessions
        ∧ ∃ ft', s'.infoList.get? jft = some ft' ∧ ft'.dir = .outgoing) ?_ ?_
    · refine ⟨stable _ _ holds (.ft jft _ (send.ft jft) (.emptied (fun _ => ⟨rfl, rfl⟩))), rfl,
        { ft with outfile := some (.reading rest) }, ?_, direction⟩
      simp only [Pool.get?_modify_self, found, Option.map_some]
    rintro _ s' ⟨holds', sameSessions, ft', found', direction'⟩
    have finds' : FindsRef s' sc (some (p, sess)) := by
      simpa only [FindsRef, sessionFindBySid, sameSessions] using finds
    cases status with
    | again => exact holds'
    | error =>
        refine modifyFt_keeps stable (send.ft jft) ?_ s' holds'
        exact .kept (fun _ => ⟨rfl, rfl⟩)
    | eof => exact ftSendEof_holds stable env w send next sc2 jft holds' finds' outward
    | normal data =>
        refine wp_seq (FileTransfer.checksumUpdate_readOnly ft.md5 data s') ?_
        rintro md5 _ rfl
        refine wp_cut
          (fun _ s' => inv s' ∧ s'.sessions = s.sessions
            ∧ ∃ ft', s'.infoList.get? jft = some ft' ∧ ft'.dir = .outgoing) ?_ ?_
        · refine ⟨stable _ _ holds' (.ft jft _ (send.ft jft) (.kept (fun _ => ⟨rfl, rfl⟩))),
            sameSessions, { ft' with transmit := ft'.transmit + data.length, md5 }, ?_, direction'⟩
          simp only [Pool.get?_modify_self, found', Option.map_some]
        rintro _ s'' ⟨holds'', sameSessions', ft'', found'', direction''⟩
        have finds'' : FindsRef s'' sc (some (p, sess)) := by
          simpa only [FindsRef, sessionFindBySid, sameSessions'] using finds
        refine handleAppData_holds stable env send asks data holds'' ?_ ?_
        · intro q js content t hit hitContent carried
          cases finds''.unique hit
          cases named.symm.trans hitContent
          exact ⟨p, sess, sc2, jft, ft'', finds''.listed, member, carried, described, found'',
            direction''⟩
        · intro q js hit
          cases finds''.unique hit
          exact outward
  · exact fail_known (by decide)

/-- By induction on the fuel, which bounds the rounds of the circle. -/
theorem ftSend_keeps (fuel : Nat) (sc : SessionContentRef)
    : Keeps inv NotAckHandle (ftSend env w fuel sc) := by
  induction fuel generalizing sc with
  | zero => exact keeps_fail (fun h => by cases h)
  | succ fuel ih =>
      exact ftSendBody_keeps stable env w send (handleTransNext_keeps ih) sc

theorem ftSendAll_keeps (sc : SessionContentRef)
    : Keeps inv NotAckHandle (ftSendAll env w sc) :=
  keeps_bind readOnly_get.keeps (fun _ => ftSend_keeps stable env w send _ sc)

theorem ftStart_keeps (sc : SessionContentRef)
    : Keeps inv NotAckHandle (ftStart env w sc) := by
  intro s holds
  refine wp_seq (sessionFindByRef_known sc) ?_
  rintro found s ⟨rfl, _⟩
  rcases found with _ | ⟨p, sess⟩
  · exact holds
  refine keeps_bind (deref_readOnly _ _).keeps (fun sc2 => ?_) _ holds
  refine keeps_bind (deref_readOnly _ _).keeps (fun jft => ?_)
  refine keeps_bind (readFt_readOnly jft).keeps (fun _ => ?_)
  refine keeps_bind (modifyFt_keeps stable (send.ft jft) (.kept (fun _ => ⟨rfl, rfl⟩)))
    (fun _ => ?_)
  refine keeps_bind (deref_readOnly _ _).keeps (fun _ => ?_)
  exact ftSendAll_keeps stable env w send sc

theorem jingleIbbHandleAckIqSend_keeps (sc : SessionContentRef)
    : Keeps inv NotAckHandle (jingleIbbHandleAckIqSend env w sc) := by
  intro s holds
  refine wp_seq (sessionFindByRef_known sc) ?_
  rintro found s ⟨rfl, finds⟩
  rcases found with _ | ⟨p, sess⟩
  · exact holds
  refine wp_seq (deref_known .content _) ?_
  rintro sc2 s ⟨rfl, named⟩
  refine wp_seq (deref_known .transport _) ?_
  rintro t s ⟨rfl, carried⟩
  refine wp_seq (readIbb_known t) ?_
  rintro jibb s ⟨rfl, found⟩
  rw [wp_ite]
  constructor
  · intro left
    rw [wp_ite]
    refine ⟨fun _ => fail_known (by decide), fun _ => ?_⟩
    have buffered : (Transport.ibb jibb).buffered ≠ [] := by
      intro empty
      have nothing : jibb.buf = [] := empty
      simp only [JingleIBB.dataleft, nothing, List.length_nil] at left
      omega
    have sends : Sends s sess :=
      ⟨sc2, (sessionFindSessioncontent_mem named).1,
        Or.inr ⟨t, .ibb jibb, carried, found, buffered⟩⟩
    have carries : Carries s p t :=
      ⟨sess, finds.listed, sc2, (sessionFindSessioncontent_mem named).1, carried⟩
    exact ibbSendBlock_holds stable env sc holds finds.listed carries
      (send.outward s holds p sess finds.listed sends) (send.await sc) (send.transport t)
  · intro _
    exact handleTransNext_keeps (ftSendAll_keeps stable env w send) sc s holds

end Circle

end McabberJingle
