import McabberJingle.Effects.Layout

/-! Changes made by the lower modules: file transfers, transports, and reads through the
pointers of the code.
-/

namespace McabberJingle

open Program Program.Prog

variable {r : Rights} {inv : State → Prop} {s : State}

-----------------------------------------------------------------------------------------
-- Reads
-----------------------------------------------------------------------------------------

theorem deref_known {α : Type} (what : Object) (pointer : Option α)
    : (deref what pointer).wp (fun value s' => s' = s ∧ pointer = some value)
        (fun error _ => NotAckHandle error) s := by
  cases pointer with
  | none => exact fun h => by cases h
  | some value => exact ⟨rfl, rfl⟩

theorem alive_known {α : Type} {what : Object} (other : what ≠ .ackHandle)
    (pointer : Option α)
    : (alive what pointer).wp (fun value s' => s' = s ∧ pointer = some value)
        (fun error _ => NotAckHandle error) s := by
  cases pointer with
  | none => exact fun h => other (by injection h)
  | some value => exact ⟨rfl, rfl⟩

theorem fail_known {α : Type} {post : α → State → Prop} {error : Fault}
    (other : error ≠ .useAfterFree .ackHandle)
    : (Prog.fail error : Run α).wp post (fun error _ => NotAckHandle error) s :=
  other

theorem deref_readOnly {α : Type} (what : Object) (pointer : Option α)
    : ReadOnly NotAckHandle (deref what pointer) :=
  fun _ => wp_post (deref_known what pointer) (fun _ _ known => known.1)

theorem readSession_known (p : SessionPtr)
    : (readSession p).wp (fun js s' => s' = s ∧ s.sessions.get? p = some js)
        (fun error _ => NotAckHandle error) s :=
  alive_known (by decide) _

theorem readFt_known (d : FtPtr)
    : (readFt d).wp (fun jft s' => s' = s ∧ s.infoList.get? d = some jft)
        (fun error _ => NotAckHandle error) s :=
  alive_known (by decide) _

theorem readTransport_known (t : TransportPtr)
    : (readTransport t).wp (fun transport s' => s' = s ∧ s.transports.get? t = some transport)
        (fun error _ => NotAckHandle error) s :=
  alive_known (by decide) _

theorem readIbb_known (t : TransportPtr)
    : (readIbb t).wp (fun jibb s' => s' = s ∧ s.transports.get? t = some (.ibb jibb))
        (fun error _ => NotAckHandle error) s := by
  refine wp_seq (readTransport_known t) ?_
  rintro transport s' ⟨rfl, found⟩
  cases transport with
  | ibb jibb => exact ⟨rfl, found⟩
  | s5b js5b => exact fun h => by cases h

theorem readS5b_known (t : TransportPtr)
    : (readS5b t).wp (fun js5b s' => s' = s ∧ s.transports.get? t = some (.s5b js5b))
        (fun error _ => NotAckHandle error) s := by
  refine wp_seq (readTransport_known t) ?_
  rintro transport s' ⟨rfl, found⟩
  cases transport with
  | ibb jibb => exact fun h => by cases h
  | s5b js5b => exact ⟨rfl, found⟩

theorem readSession_readOnly (p : SessionPtr) : ReadOnly NotAckHandle (readSession p) :=
  fun _ => wp_post (readSession_known p) (fun _ _ known => known.1)

theorem readFt_readOnly (d : FtPtr) : ReadOnly NotAckHandle (readFt d) :=
  fun _ => wp_post (readFt_known d) (fun _ _ known => known.1)

theorem readIbb_readOnly (t : TransportPtr) : ReadOnly NotAckHandle (readIbb t) :=
  fun _ => wp_post (readIbb_known t) (fun _ _ known => known.1)

theorem readS5b_readOnly (t : TransportPtr) : ReadOnly NotAckHandle (readS5b t) :=
  fun _ => wp_post (readS5b_known t) (fun _ _ known => known.1)

theorem readFreedLink_known (w : World)
    : (readFreedLink w).wp
        (fun link s' => s' = { s with staleReads := s.staleReads + 1 }
          ∧ (link = true ↔ w.freedLink = .intact))
        (fun error _ => NotAckHandle error) s := by
  unfold readFreedLink
  cases w.freedLink with
  | traps => exact fail_known (by decide)
  | null => exact ⟨rfl, by simp⟩
  | intact => exact ⟨rfl, by simp⟩

theorem readFreedLink_keeps (stable : Stable r inv) (w : World)
    : Keeps inv NotAckHandle (readFreedLink w) := by
  intro s holds
  refine wp_post (readFreedLink_known w) ?_
  rintro link _ ⟨rfl, _⟩
  exact stable _ _ holds .staleRead

theorem modifyFt_keeps (stable : Stable r inv) {d : FtPtr} {f : JingleFT → JingleFT}
    (allowed : r.ft d) (change : FtChange r d f)
    : Keeps inv NotAckHandle (modifyFt d f) :=
  keeps_modify (fun _ holds => stable _ _ holds (.ft d f allowed change))

-----------------------------------------------------------------------------------------
-- File transfers
-----------------------------------------------------------------------------------------

/-- Whether the application takes the child of a session-info. -/
def takesHash (child : LmMessageNode) : Bool :=
  child.getAttribute "xmlns" == some NS_JINGLE_APP_FT_INFO && child.name == "hash"

namespace FileTransfer

theorem checksumUpdate_readOnly (md5 : GChecksum) (data : List UInt8)
    : ReadOnly NotAckHandle (checksumUpdate md5 data) := by
  cases md5 with
  | null => exact readOnly_pure _
  | running seen => exact readOnly_pure _
  | freed => exact readOnly_fail (fun h => by cases h)

theorem checksumGetString_readOnly (env : Env) (md5 : GChecksum)
    : ReadOnly NotAckHandle (checksumGetString env md5) := by
  cases md5 with
  | null => exact readOnly_pure _
  | running seen => exact readOnly_pure _
  | freed => exact readOnly_fail (fun h => by cases h)

theorem checkHash_readOnly (env : Env) (hash : String) (md5 : GChecksum)
    : ReadOnly NotAckHandle (checkHash env hash md5) :=
  readOnly_bind (checksumGetString_readOnly env md5) (fun _ => readOnly_pure _)

/-- What is parsed is not open. -/
theorem parseOffer_closed (env : Env) (w : World) {cn : JingleContent} {jft : JingleFT}
    (parsed : parseOffer env w cn = .ok jft)
    : jft.outfile = none := by
  unfold parseOffer at parsed
  repeat' split at parsed
  all_goals first | cases parsed | skip
  all_goals
    dsimp only at parsed
    repeat' split at parsed
    all_goals first | (cases parsed; rfl) | cases parsed

/-- A listed transfer gets the number that was next; it is the only change. -/
theorem listTransfer_done (jft : JingleFT)
    : (listTransfer jft).wp
        (fun d s' => d = s.infoList.next ∧ s' = { s with infoList := s.infoList.alloc jft })
        (fun error _ => NotAckHandle error) s :=
  ⟨rfl, rfl⟩

/-- Only a hash is taken. -/
theorem handle_keeps (stable : Stable r inv) (action : JingleAction) {d : FtPtr}
    (node : LmMessageNode) (allowed : takesHash node = true → r.ft d)
    : Keeps inv NotAckHandle (handle action d node) := by
  unfold handle
  split
  · rename_i takes
    have mine : r.ft d := allowed (by simp [takesHash, takes.2.1, takes.2.2])
    refine keeps_bind (readFt_readOnly d).keeps (fun _ => ?_)
    exact keeps_bind (modifyFt_keeps stable mine (.kept (fun _ => ⟨rfl, rfl⟩)))
      (fun _ => keeps_pure _)
  · exact keeps_pure _

theorem tomessage_readOnly (env : Env) (d : FtPtr) (node : LmMessageNode)
    : ReadOnly NotAckHandle (tomessage env d node) := by
  refine readOnly_bind (readFt_readOnly d) (fun _ => ?_)
  split <;> exact readOnly_pure _

theorem info_readOnly (d : FtPtr) : ReadOnly NotAckHandle (info d) :=
  readOnly_bind (readFt_readOnly d) (fun _ => readOnly_pure _)

theorem diskOp_keeps (stable : Stable r inv) {op : DiskOp} (allowed : r.disk op.ft)
    : Keeps inv NotAckHandle (diskOp op) :=
  keeps_modify (fun _ holds => stable _ _ holds (.disk op allowed))

theorem writeData_keeps (stable : Stable r inv) (w : World) {d : FtPtr} (data : List UInt8)
    (allowed : r.ft d) (disk : r.disk d)
    : Keeps inv NotAckHandle (writeData w d data) := by
  refine keeps_bind (modifyFt_keeps stable allowed (.kept (fun _ => ⟨rfl, rfl⟩))) (fun _ => ?_)
  refine keeps_bind (readFt_readOnly d).keeps (fun jft => ?_)
  refine keeps_bind (modifyFt_keeps stable allowed (.filled (fun _ => rfl) disk)) (fun _ => ?_)
  refine keeps_bind (diskOp_keeps stable disk) (fun _ => ?_)
  refine keeps_ite ?_ (keeps_pure _)
  exact keeps_bind (modifyFt_keeps stable allowed (.kept (fun _ => ⟨rfl, rfl⟩)))
    (fun _ => keeps_pure _)

theorem handleData_holds (stable : Stable r inv) (w : World) {d : FtPtr} (data : List UInt8)
    (holds : inv s) (allowed : r.ft d) (disk : writesFile w s d = true → r.disk d)
    : (handleData w d data).wp (fun _ => inv) (fun error _ => NotAckHandle error) s := by
  refine wp_seq (readFt_known d) ?_
  rintro jft s ⟨rfl, listed⟩
  rw [wp_ite]
  refine ⟨fun _ => holds, fun direction => ?_⟩
  simp only [ne_eq, Decidable.not_not] at direction
  refine keeps_bind (checksumUpdate_readOnly _ data).keeps (fun md5 => ?_) s holds
  refine keeps_bind (modifyFt_keeps stable allowed (.kept (fun _ => ⟨rfl, rfl⟩))) (fun _ => ?_)
  cases outfile : jft.outfile with
  | some _ =>
      have disk' : r.disk d := disk (by simp [writesFile, listed, direction, outfile])
      exact writeData_keeps stable w data allowed disk'
  | none =>
      dsimp only
      split
      · rename_i opened
        have disk' : r.disk d := disk (by simp [writesFile, listed, direction, opened])
        refine keeps_bind (modifyFt_keeps stable allowed (.emptied (fun _ => ⟨rfl, rfl⟩)))
          (fun _ => ?_)
        refine keeps_bind (diskOp_keeps stable disk') (fun _ => ?_)
        exact keeps_ite (writeData_keeps stable w data allowed disk') (keeps_pure _)
      · exact keeps_pure _

theorem stopReport_keeps (stable : Stable r inv) (d : FtPtr) (report : StopReport)
    : Keeps inv NotAckHandle (stopReport d report) :=
  keeps_modify (fun _ holds => stable _ _ holds (.stopReport d report))

/-- Bytes that wait for the file may get there. -/
theorem shutdown_holds (stable : Stable r inv) (w : World) {d : FtPtr} {jft : JingleFT}
    (holds : inv s) (allowed : r.ft d) (disk : jft.waiting ≠ [] → r.disk d)
    : (shutdown w d jft).wp (fun _ => inv) (fun error _ => NotAckHandle error) s := by
  unfold shutdown
  split
  · exact holds
  · rename_i byte rest waiting
    have disk' : r.disk d := disk (by simp [waiting])
    have wrote : Keeps inv NotAckHandle
        (diskOp (.wrote d ((byte :: rest).take (w.shutdown d)))) :=
      diskOp_keeps stable disk'
    refine keeps_bind (modifyFt_keeps stable allowed ?_) (fun _ => wrote) s holds
    exact .emptied (fun _ => ⟨rfl, rfl⟩)

/-- What the end of a transfer needs: bytes that wait for its file get there. -/
structure MayStop (r : Rights) (inv : State → Prop) (d : FtPtr) : Prop where
  ft : r.ft d
  disk : ∀ s, inv s → Unflushed s d → r.disk d

theorem stop_keeps (stable : Stable r inv) (env : Env) (w : World) {d : FtPtr}
    (may : MayStop r inv d)
    : Keeps inv NotAckHandle (stop env w d) := by
  have allowed := may.ft
  have report := stopReport_keeps stable d
  intro s holds
  refine wp_seq (readFt_known d) ?_
  rintro jft s ⟨rfl, listed⟩
  have disk (some_ : jft.waiting ≠ []) : r.disk d :=
    may.disk s holds ⟨jft, listed, some_⟩
  refine wp_seq (shutdown_holds stable w holds allowed disk) ?_
  refine fun _ s' holds' => keeps_ite ?_ ?_ s' holds'
  · exact keeps_bind (modifyFt_keeps stable allowed (.kept (fun _ => ⟨rfl, rfl⟩)))
      (fun _ => report _)
  · refine keeps_bind (modifyFt_keeps stable allowed (.kept (fun _ => ⟨rfl, rfl⟩))) (fun _ => ?_)
    split
    · exact report _
    · exact keeps_bind (checkHash_readOnly env _ _).keeps (fun _ =>
        keeps_ite (report _) (report _))
    · exact report _

/-- A new transfer is numbered `infoList.next`, and only it is touched afterwards. -/
theorem new_keeps (stable : Stable r inv) (env : Env) (w : World) (name : String)
    (fresh : ∀ s, inv s → r.ft s.infoList.next) (allowed : r.newFt .outgoing) (holds : inv s)
    : (new env w name).wp
        (fun result s' => inv s' ∧ ∀ d, result = some d →
          d = s.infoList.next ∧ d < s'.infoList.next)
        (fun error _ => NotAckHandle error) s := by
  refine wp_cut (fun d s' => d = s.infoList.next ∧ inv s' ∧ d < s'.infoList.next) ?_ ?_
  · refine wp_post (listTransfer_done _) ?_
    rintro d s' ⟨rfl, rfl⟩
    exact ⟨rfl, stable _ _ holds (.newFt _ allowed rfl), Nat.lt_succ_self _⟩
  rintro d s₁ ⟨rfl, holds₁, known⟩
  have mayTouch := fresh s holds
  have touch (f : JingleFT → JingleFT) (change : FtChange r s.infoList.next f)
      : Keeps (fun s' => inv s' ∧ Since s₁ s') NotAckHandle (modifyFt s.infoList.next f) :=
    modifyFt_keeps (stable.since s₁) mayTouch change
  have failed (s' : State) (holds' : inv s' ∧ Since s₁ s')
      : (do modifyFt s.infoList.next (fun jft => { jft with state := .error }); pure none
          : Run (Option FtPtr)).wp
          (fun result s' => inv s' ∧ ∀ d, result = some d →
            d = s.infoList.next ∧ d < s'.infoList.next)
          (fun error _ => NotAckHandle error) s' := by
    refine wp_seq (touch _ ?_ s' holds') ?_
    · exact .kept (fun _ => ⟨rfl, rfl⟩)
    · exact fun _ s'' holds'' => ⟨holds''.1, fun _ same => by cases same⟩
  have start : inv s₁ ∧ Since s₁ s₁ := ⟨holds₁, .refl s₁⟩
  split
  · exact failed s₁ start
  rw [wp_ite]
  refine ⟨fun _ => ?_, fun _ => failed s₁ start⟩
  refine wp_seq (touch _ ?_ s₁ start) ?_
  · exact .kept (fun _ => ⟨rfl, rfl⟩)
  intro _ s₂ holds₂
  split
  · exact failed s₂ holds₂
  refine wp_seq (touch _ ?_ s₂ holds₂) ?_
  · exact .emptied (fun _ => ⟨rfl, rfl⟩)
  intro _ s₃ holds₃
  rw [wp_ite]
  refine ⟨fun _ => ⟨holds₃.1, fun d same => ?_⟩, fun _ => failed s₃ holds₃⟩
  cases same
  exact ⟨rfl, Nat.lt_of_lt_of_le known holds₃.2.infoList⟩

end FileTransfer

-----------------------------------------------------------------------------------------
-- Transports
-----------------------------------------------------------------------------------------

/-- A stream written back with the same name and number. -/
theorem streamsKept_ibb {jibb jibb' : JingleIBB} (same : SameStream r jibb jibb')
    : StreamsKept r (.ibb jibb) (.ibb jibb') := by
  rintro jibb'' ⟨⟩
  exact ⟨jibb, rfl, same⟩

theorem streamsKept_s5b (old : Transport) (js5b : JingleS5B) : StreamsKept r old (.s5b js5b) := by
  intro jibb' same
  cases same

/-- The right to rewrite a transport whose waiting bytes do not appear from nowhere. -/
theorem modifyTransport_holds (stable : Stable r inv) {t : TransportPtr}
    {f : Transport → Transport} (holds : inv s) (allowed : r.transport t)
    (buffered : ∀ transport, s.transports.get? t = some transport →
      transport.buffered = [] → (f transport).buffered ≠ [] → Feeding s t)
    (kept : ∀ transport, s.transports.get? t = some transport →
      StreamsKept r transport (f transport))
    : (modifyTransport t f).wp (fun _ => inv) (fun error _ => NotAckHandle error) s :=
  stable _ _ holds (.transport t f allowed buffered kept)

namespace Ibb

/-- A new transport is allocated empty and keeps the invariant. -/
theorem newTransport_keeps (stable : Stable r inv) (transport : Transport)
    (empty : transport.buffered = [])
    (fresh : ∀ jibb, transport = .ibb jibb → jibb.seq = 0
      ∧ jibb.blocksize ≤ IBB_BLOCK_SIZE_MAX ∧ r.blockSize jibb.blocksize)
    (holds : inv s)
    : (newTransport transport).wp
        (fun t s' => inv s' ∧ t = s.transports.next ∧ t < s'.transports.next)
        (fun error _ => NotAckHandle error) s :=
  ⟨stable _ _ holds (.newTransport transport empty fresh), rfl, Nat.lt_succ_self _⟩

/-- A stream of the peer is new and takes no more than the largest block size. -/
theorem parseTransport_fresh {node : LmMessageNode} {jibb : JingleIBB}
    (parsed : parseTransport node = .ok jibb)
    : jibb.buf = [] ∧ jibb.seq = 0 ∧ jibb.blocksize ≤ IBB_BLOCK_SIZE_MAX := by
  unfold parseTransport at parsed
  split at parsed
  · cases parsed
    exact ⟨rfl, rfl, Nat.min_le_right _ _⟩
  · cases parsed

/-- An incoming stream: a new transport, entered into the table under its sid. -/
theorem newFromMessage_keeps (stable : Stable r inv) (cn : JingleContent) (holds : inv s)
    (allowed : ∀ jibb, parseTransport cn.transport = .ok jibb →
      r.stream jibb.sid ∧ r.blockSize jibb.blocksize
      ∧ ∀ old, lookup s jibb.sid = some old → r.transport old)
    : (newFromMessage cn).wp
        (fun result s' => inv s' ∧ ∀ t, result = .ok t →
          t = s.transports.next ∧ t < s'.transports.next)
        (fun error _ => NotAckHandle error) s := by
  unfold newFromMessage
  cases parsed : parseTransport cn.transport with
  | error err => exact ⟨holds, fun t same => by cases same⟩
  | ok jibb =>
      obtain ⟨empty, unsent, small⟩ := parseTransport_fresh parsed
      obtain ⟨mayBind, mayHave, mayReplace⟩ := allowed jibb parsed
      refine wp_cut (fun t s' => inv s' ∧ t = s.transports.next ∧ t < s'.transports.next
        ∧ s'.jingleIBBs = s.jingleIBBs) ?_ ?_
      · refine ⟨stable _ _ holds (.newTransport (.ibb jibb) empty ?_), rfl, Nat.lt_succ_self _, rfl⟩
        rintro jibb' ⟨⟩
        exact ⟨unsent, small, mayHave⟩
      rintro t s' ⟨holds', rfl, known, sameTable⟩
      refine wp_cut (fun _ s'' => inv s'' ∧ Since s' s'') ?_ ?_
      · refine stable.since s' _ _ ⟨holds', .refl s'⟩ (.stream _ _ mayBind known ?_)
        simpa only [lookup, sameTable] using mayReplace
      · rintro _ s'' ⟨holds'', since⟩
        refine ⟨holds'', fun t same => ?_⟩
        cases same
        exact ⟨rfl, Nat.lt_of_lt_of_le known since.transports⟩

/-- The block size that a session-accept asks for. -/
def acceptedBlockSize (node : LmMessageNode) : Nat :=
  toGuint64 (gAsciiStrtoll (node.getAttribute "block-size"))

/-- What the block size in a transport element of a session-accept may be. -/
def MaySize (r : Rights) (node : LmMessageNode) : Prop :=
  node.getAttribute "xmlns" = some NS_JINGLE_TRANSPORT_IBB → r.blockSize (acceptedBlockSize node)

/-- A session-accept lowers the block size or leaves it. -/
theorem handle_keeps (stable : Stable r inv) (action : JingleAction) {t : TransportPtr}
    (node : LmMessageNode) (allowed : r.transport t)
    (size : action = .sessionAccept → MaySize r node)
    : Keeps inv NotAckHandle (handle action t node) := by
  unfold handle
  split
  · rename_i accepts
    intro s holds
    refine wp_seq (readIbb_known t) ?_
    rintro jibb s' ⟨rfl, found⟩
    refine wp_seq (modifyTransport_holds stable holds allowed ?_ ?_) (fun _ _ holds' => holds')
    · intro transport same empty full
      cases found.symm.trans same
      exact (full empty).elim
    · intro transport same
      cases found.symm.trans same
      refine streamsKept_ibb ⟨rfl, rfl, ?_⟩
      dsimp only
      split
      · rename_i lower
        exact Or.inr ⟨lower, size accepts.1 accepts.2⟩
      · exact Or.inl rfl
  · exact keeps_pure _

theorem tomessage_readOnly (t : TransportPtr) (node : LmMessageNode)
    : ReadOnly NotAckHandle (tomessage t node) := by
  refine readOnly_bind (readIbb_readOnly t) (fun _ => ?_)
  split <;> exact readOnly_pure _

end Ibb

namespace S5b

theorem newFromMessage_keeps (stable : Stable r inv) (env : Env) (w : World)
    (cn : JingleContent) (holds : inv s)
    : (newFromMessage env w cn).wp
        (fun result s' => inv s' ∧ ∀ t, result = .ok t →
          t = s.transports.next ∧ t < s'.transports.next)
        (fun error _ => NotAckHandle error) s := by
  unfold newFromMessage
  split
  · exact ⟨holds, fun t same => by cases same⟩
  · refine wp_seq (readOnly_get s) ?_
    rintro s' _ rfl
    refine wp_seq (Ibb.newTransport_keeps stable _ rfl (fun _ same => by cases same) holds) ?_
    rintro t s'' ⟨holds'', rfl, known⟩
    exact ⟨holds'', fun t same => by cases same; exact ⟨rfl, known⟩⟩

theorem handle_keeps (stable : Stable r inv) (env : Env) (action : JingleAction)
    {t : TransportPtr} (node : LmMessageNode) (allowed : r.transport t)
    : Keeps inv NotAckHandle (handle env action t node) := by
  refine keeps_ite ?_ (keeps_ite ?_ (keeps_pure _))
  · refine keeps_bind (readS5b_readOnly t).keeps (fun js5b => ?_)
    intro s holds
    refine wp_seq (modifyTransport_holds stable holds allowed ?_ ?_) (fun _ _ holds' => holds')
    · exact fun _ _ _ full => (full rfl).elim
    · exact fun transport _ => streamsKept_s5b transport _
  · exact keeps_bind (readS5b_readOnly t).keeps (fun _ => keeps_pure _)

theorem tomessage_readOnly (t : TransportPtr) (node : LmMessageNode)
    : ReadOnly NotAckHandle (tomessage t node) := by
  refine readOnly_bind (readS5b_readOnly t) (fun js5b => ?_)
  split
  · exact readOnly_pure _
  · refine readOnly_bind ?_ (fun _ => readOnly_pure _)
    cases js5b.mode with
    | none => exact readOnly_fail (fun h => by cases h)
    | some mode => cases mode <;> exact readOnly_pure _

end S5b

end McabberJingle
