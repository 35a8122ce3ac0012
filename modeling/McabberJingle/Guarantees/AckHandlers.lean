import McabberJingle.Effects.Machine
import McabberJingle.System.Execution

/-! An ack handle completes once: its callback runs for the reply or for the timeout, and
the handle is freed. The reply path and the timeout path meet in two places where a freed
handle is used: a reply after the timeout, and two timeouts at the head of the list.
-/

namespace McabberJingle

open Program Program.Prog

-----------------------------------------------------------------------------------------
-- The invariant
-----------------------------------------------------------------------------------------

/-- Only session-initiate and session-accept have a timeout. -/
def Timed (s : State) : Prop :=
  ∀ ah handle, s.ackHandlers.get? ah = some handle → handle.timeout ≠ 0 →
    ∃ sess, handle.callback = some (.sessionInitiate sess)
      ∨ handle.callback = some (.sessionAccept sess)

theorem Timed.requested {s : State} (timed : Timed s) (ident : SessionIdent) (iq : LmMessage)
    {callback : Option AckCallback} {timeout : Nat} (sendOk : Bool)
    (known : timeout ≠ 0 → ∃ q, callback = some (.sessionInitiate q)
      ∨ callback = some (.sessionAccept q))
    : Timed (s.requested ident iq callback timeout sendOk) := by
  intro ah handle found waits
  rcases Pool.get?_alloc_eq_some.mp found with ⟨_, rfl⟩ | old
  · exact known waits
  · exact timed ah handle old waits

/-- Freeing a handle leaves the others as they were. -/
theorem Timed.free {s s' : State} (timed : Timed s) {ah : AckPtr}
    (freed : s'.ackHandlers = s.ackHandlers.erase ah)
    : Timed s' := by
  intro other handle found waits
  rw [freed] at found
  exact timed other handle (Pool.get?_erase_eq_some.mp found).2 waits

theorem timed_stable {r : Rights} : Stable r Timed := by
  intro s s' timed effect
  cases effect with
  | finish q js reason listed allowed outward =>
      exact timed.requested (js.ident q) (sessionTerminateIq js reason) true
        (fun untimed => absurd rfl untimed)
  | request q js iq callback timeout sendOk listed request known =>
      exact timed.requested (js.ident q) iq sendOk known
  | packet q js t jibb sc env buf =>
      exact timed.requested (js.ident q) (ibbDataIq env js.toJid buf jibb.sid jibb.seq) true
        (fun untimed => absurd rfl untimed)
  | free ah allowed => exact timed.free rfl
  | _ => exact timed

theorem timed_reached {env : Env} {s : State} {allowed : State → StepInput → Prop}
    (run : ReachableBy env allowed s)
    : Timed s := by
  refine stable_reached timed_stable ?_ run
  intro s initial ah handle found
  rw [initial.ackHandlers] at found
  cases found

/-- Callbacks ran at most once, and their handles are gone, except perhaps the one whose
callback is running. Only session-initiate and session-accept have a timeout.
-/
structure SettledBut (running : Option AckPtr) (s : State) : Prop where
  once : (s.fired.map Prod.fst).Nodup
  freed : ∀ ah ∈ s.fired.map Prod.fst,
    (running = some ah ∨ s.ackHandlers.get? ah = none) ∧ ah < s.ackHandlers.next
  timed : ∀ ah handle, s.ackHandlers.get? ah = some handle → handle.timeout ≠ 0 →
    ∃ sess, handle.callback = some (.sessionInitiate sess)
      ∨ handle.callback = some (.sessionAccept sess)

/-- No callback is running. -/
abbrev Settled : State → Prop := SettledBut none

/-- Everything is allowed but to fire and free handles. -/
def Rights.noAcks : Rights :=
  { Rights.all with fire := fun _ => False, free := fun _ => False }

theorem noAcks_generous : Generous .noAcks := by
  constructor <;> intros <;> trivial

/-- New handles get new addresses, so they do not meet the handles that fired. -/
theorem SettledBut.requested {running : Option AckPtr} {s : State}
    (settled : SettledBut running s) (ident : SessionIdent) (iq : LmMessage)
    {callback : Option AckCallback} {timeout : Nat} (sendOk : Bool)
    (timed : timeout ≠ 0 → ∃ q, callback = some (.sessionInitiate q)
      ∨ callback = some (.sessionAccept q))
    : SettledBut running (s.requested ident iq callback timeout sendOk) where
  once := settled.once
  freed := by
    intro ah member
    obtain ⟨gone, known⟩ := settled.freed ah member
    refine ⟨gone.imp_right (fun absent => ?_), Nat.lt_succ_of_lt known⟩
    exact (Pool.get?_alloc_of_lt _ known).trans absent
  timed := Timed.requested settled.timed ident iq sendOk timed

theorem settledBut_stable (running : Option AckPtr) : Stable .noAcks (SettledBut running) := by
  intro s s' settled effect
  cases effect with
  | finish p js reason listed allowed outward =>
      exact { settled.requested (js.ident p) (sessionTerminateIq js reason) true
        (fun untimed => absurd rfl untimed) with }
  | request p js iq callback timeout sendOk listed request timed =>
      exact settled.requested (js.ident p) iq sendOk timed
  | packet p js t jibb sc env buf =>
      exact { settled.requested (js.ident p) (ibbDataIq env js.toJid buf jibb.sid jibb.seq) true
        (fun untimed => absurd rfl untimed) with }
  | fire ah type allowed => exact allowed.elim
  | free ah allowed => exact allowed.elim
  | _ => exact ⟨settled.once, settled.freed, settled.timed⟩

/-- A live handle has not fired; once its callback is recorded it is the running one. -/
theorem Settled.fire {s : State} (settled : Settled s) {ah : AckPtr} {handle : JingleAckHandle}
    (live : s.ackHandlers.get? ah = some handle) (type : JingleAckType)
    : SettledBut (some ah) { s with fired := s.fired ++ [(ah, type)] } := by
  have known : ah < s.ackHandlers.next := Pool.lt_next live
  refine ⟨?once, ?freed, settled.timed⟩
  case once =>
    rw [List.map_append, List.nodup_append]
    refine ⟨settled.once, by simp, ?_⟩
    intro old member new newMember
    have same : new = ah := by simpa using newMember
    rintro rfl
    have gone := (settled.freed old member).1
    simp only [same, live, reduceCtorEq, or_self] at gone
  case freed =>
    intro other member
    rw [List.map_append, List.mem_append] at member
    rcases member with old | new
    · obtain ⟨gone, below⟩ := settled.freed other old
      exact ⟨Or.inr (gone.resolve_left (fun h => by cases h)), below⟩
    · have same : other = ah := by simpa using new
      exact ⟨Or.inl (same ▸ rfl), same ▸ known⟩

/-- Freeing the running handle settles it. -/
theorem SettledBut.free {s : State} {ah : AckPtr} (settled : SettledBut (some ah) s)
    : Settled { s with ackHandlers := s.ackHandlers.erase ah } where
  once := settled.once
  freed := by
    intro other member
    obtain ⟨gone, known⟩ := settled.freed other member
    refine ⟨Or.inr ?_, known⟩
    by_cases here : other = ah
    · rw [here]
      exact Pool.get?_erase_self _ _
    · rw [Pool.get?_erase_of_ne here]
      exact gone.resolve_left (fun h => here (Option.some.inj h).symm)
  timed := Timed.free settled.timed rfl

/-- A handle without a callback is freed without having fired. -/
theorem Settled.free {s : State} (settled : Settled s) (ah : AckPtr)
    : Settled { s with ackHandlers := s.ackHandlers.erase ah } :=
  SettledBut.free ⟨settled.once, fun other member =>
    ⟨Or.inr ((settled.freed other member).1.resolve_left (fun h => by cases h)),
      (settled.freed other member).2⟩, settled.timed⟩

-----------------------------------------------------------------------------------------
-- Replies
-----------------------------------------------------------------------------------------

theorem readAck_done {s : State} {ah : AckPtr} {handle : JingleAckHandle}
    (live : s.ackHandlers.get? ah = some handle)
    : readAck ah s = .done handle s := by
  change alive .ackHandle (s.ackHandlers.get? ah) s = _
  rw [live]
  rfl

/-- The reply to a request whose handle is live. -/
theorem jingleHandleAckIq_settled (env : Env) (w : World) {s : State} {ah : AckPtr}
    {handle : JingleAckHandle} (message : LmMessage) (settled : Settled s)
    (live : s.ackHandlers.get? ah = some handle)
    : (jingleHandleAckIq env w ah message).wp (fun _ => Settled)
        (fun error _ => NotAckHandle error) s := by
  refine wp_known (readAck_done live) ?_
  refine wp_cut (fun _ s' => Settled { s' with ackHandlers := s'.ackHandlers.erase ah }) ?_ ?_
  · cases callback : handle.callback with
    | none => exact settled.free ah
    | some callback =>
        refine wp_cut (fun _ => SettledBut (some ah)) (settled.fire live .response) ?_
        intro _ s₁ running
        refine wp_post (AckCallback.run_keeps (settledBut_stable (some ah)) env w _
          (noAcks_generous.maySend.mayCall _ _) s₁ running) ?_
        exact fun _ s₂ running => running.free
  · intro _ s' freed
    exact ⟨freed.once, freed.freed, freed.timed⟩

-----------------------------------------------------------------------------------------
-- Timeouts
-----------------------------------------------------------------------------------------

/-- An expired handle fires and is freed, and no handle is added meanwhile. -/
theorem expireHandle_settled (env : Env) (w : World) {s : State} {ah : AckPtr}
    {handle : JingleAckHandle} {now : Nat} (settled : Settled s)
    (live : s.ackHandlers.get? ah = some handle) (expired : handle.expired now = true)
    : (expireHandle env w ah handle).wp
        (fun _ s' => Settled s' ∧ s'.ackHandlers = s.ackHandlers.erase ah)
        (fun error _ => NotAckHandle error) s := by
  have waits : handle.timeout ≠ 0 := by
    simp only [JingleAckHandle.expired, Bool.and_eq_true, bne_iff_ne] at expired
    exact expired.1
  obtain ⟨sess, timed⟩ := settled.timed ah handle live waits
  have deleted : Keeps (fun s' => SettledBut (some ah) s' ∧ s'.ackHandlers = s.ackHandlers)
      NotAckHandle (sessionDelete w sess) := by
    refine sessionDelete_frame w sess ?_ ?_
    · exact fun s' holds => ⟨⟨holds.1.once, holds.1.freed, holds.1.timed⟩, holds.2⟩
    · exact fun s' holds => ⟨⟨holds.1.once, holds.1.freed, holds.1.timed⟩, holds.2⟩
  have fired := settled.fire live .timeout
  refine wp_cut (fun _ s' => SettledBut (some ah) s' ∧ s'.ackHandlers = s.ackHandlers) ?_ ?_
  · have recorded (callback : AckCallback)
        (run : callback.run env w none = sessionDelete w sess)
        : (runCallback env w ah .timeout none (some callback)).wp
            (fun _ s' => SettledBut (some ah) s' ∧ s'.ackHandlers = s.ackHandlers)
            (fun error _ => NotAckHandle error) s := by
      refine wp_cut (fun _ s' => SettledBut (some ah) s' ∧ s'.ackHandlers = s.ackHandlers)
        ⟨fired, rfl⟩ ?_
      rw [run]
      exact fun _ s' holds => deleted s' holds
    rcases timed with initiate | accept
    · rw [initiate]
      exact recorded _ rfl
    · rw [accept]
      exact recorded _ rfl
  · rintro _ s' ⟨running, same⟩
    exact ⟨running.free, by rw [← same]⟩

/-- The handles in `cells` are live, as they were listed. -/
def StillListed (cells : List (AckPtr × JingleAckHandle)) (s : State) : Prop :=
  ∀ cell ∈ cells, s.ackHandlers.get? cell.1 = some cell.2

/-- Freeing one handle leaves the others of a list without repetitions. -/
theorem StillListed.tail {s s' : State} {ah : AckPtr} {handle : JingleAckHandle}
    {rest : List (AckPtr × JingleAckHandle)} (listed : StillListed ((ah, handle) :: rest) s)
    (distinct : (((ah, handle) :: rest).map Prod.fst).Nodup)
    (freed : s'.ackHandlers = s.ackHandlers.erase ah)
    : StillListed rest s' := by
  intro cell member
  have apart : cell.1 ≠ ah := by
    intro here
    have again : cell.1 ∈ rest.map Prod.fst := List.mem_map_of_mem member
    exact (List.nodup_cons.mp distinct).1 (here ▸ again)
  rw [freed, Pool.get?_erase_of_ne apart]
  exact listed cell (List.mem_cons_of_mem _ member)

/-- By induction on the handles still to visit, while the trailing node is linked: each is
read before it is freed.
-/
theorem timeoutLoop_live (env : Env) (w : World) (now : Nat)
    (cells : List (AckPtr × JingleAckHandle)) {s : State} (settled : Settled s)
    (listed : StillListed cells s) (distinct : (cells.map Prod.fst).Nodup)
    : (timeoutLoop env w now .live (cells.map Prod.fst)).wp (fun _ => Settled)
        (fun error _ => NotAckHandle error) s := by
  induction cells generalizing s with
  | nil => exact settled
  | cons cell rest ih =>
      obtain ⟨ah, handle⟩ := cell
      have live := listed (ah, handle) List.mem_cons_self
      have distinct' := (List.nodup_cons.mp distinct).2
      refine wp_known (readAck_done live) ?_
      rw [wp_ite]
      constructor
      · intro expired
        refine wp_seq (expireHandle_settled env w settled live expired) ?_
        rintro _ s₁ ⟨settled₁, freed⟩
        refine wp_known rfl ?_
        rw [wp_ite]
        exact ⟨fun _ => settled₁, fun _ => ih settled₁ (listed.tail distinct freed) distinct'⟩
      · intro _
        exact ih settled (fun cell member => listed cell (List.mem_cons_of_mem _ member)) distinct'

/-- The freed head of the list leads to a second handle that expires with others behind it. -/
def doubleTimeout (w : World) (s : State) : Bool :=
  match w.freedLink, s.ackHandlers.cells with
  | .intact, first :: second :: _ :: _ =>
      first.2.expired s.clock && second.2.expired s.clock
  | _, _ => false

/-- From the freed head the second handle is visited; had it expired, too, it must have been
the last one.
-/
theorem timeoutLoop_freed (env : Env) (w : World) {s s' : State} {ah : AckPtr}
    {handle : JingleAckHandle} {rest : List (AckPtr × JingleAckHandle)} (settled : Settled s')
    (intact : w.freedLink = .intact) (handles : s.ackHandlers.cells = (ah, handle) :: rest)
    (expired : handle.expired s.clock = true) (single : doubleTimeout w s = false)
    (freed : s'.ackHandlers = s.ackHandlers.erase ah) (listed : StillListed rest s')
    (distinct : (rest.map Prod.fst).Nodup)
    : (timeoutLoop env w s.clock .freed (rest.map Prod.fst)).wp (fun _ => Settled)
        (fun error _ => NotAckHandle error) s' := by
  match rest with
  | [] => exact settled
  | (second, handle₂) :: more =>
  have live := listed (second, handle₂) List.mem_cons_self
  refine wp_known (readAck_done live) ?_
  rw [wp_ite]
  constructor
  · intro expired₂
    have last : more = [] := by
      cases more with
      | nil => rfl
      | cons third others =>
          simp only [doubleTimeout, intact, handles, expired, expired₂, Bool.and_self] at single
          cases single
    refine wp_seq (expireHandle_settled env w settled live expired₂) ?_
    rintro _ s₂ ⟨settled₂, freed₂⟩
    have empty : s₂.ackHandlers.cells.isEmpty = true := by
      rw [freed₂, freed]
      simp [Pool.erase, handles, last]
    refine wp_known rfl ?_
    rw [wp_ite]
    exact ⟨fun _ => settled₂, fun more => absurd empty more⟩
  · intro _
    exact timeoutLoop_live env w s.clock more settled
      (fun cell member => listed cell (List.mem_cons_of_mem _ member))
      (List.nodup_cons.mp distinct).2

/-- A tick after which no freed handle is reached. -/
theorem jingleAckTimeoutChecker_settled (env : Env) (w : World) {s : State}
    (settled : Settled s) (single : doubleTimeout w s = false)
    : (jingleAckTimeoutChecker env w).wp (fun _ => Settled)
        (fun error _ => NotAckHandle error) s := by
  have listed : StillListed s.ackHandlers.cells s :=
    fun cell member => Pool.get?_eq_some_iff.mpr member
  have distinct := s.ackHandlers.distinct
  refine wp_known rfl ?_
  generalize handles : s.ackHandlers.cells = cells at listed distinct
  match cells with
  | [] => exact settled
  | (ah, handle) :: rest =>
  have live := listed (ah, handle) List.mem_cons_self
  refine wp_known (readAck_done live) ?_
  rw [wp_ite]
  constructor
  · intro expired
    refine wp_seq (expireHandle_settled env w settled live expired) ?_
    rintro _ s₁ ⟨settled₁, freed⟩
    have listed₁ := listed.tail distinct freed
    have distinct₁ := (List.nodup_cons.mp distinct).2
    refine wp_known rfl ?_
    rw [wp_ite]
    refine ⟨fun _ => settled₁, fun _ => ?_⟩
    refine wp_seq (readFreedLink_known w) ?_
    rintro link _ ⟨rfl, intact⟩
    rw [wp_ite]
    refine ⟨fun follow => ?_, fun _ => ⟨settled₁.once, settled₁.freed, settled₁.timed⟩⟩
    exact timeoutLoop_freed env w ⟨settled₁.once, settled₁.freed, settled₁.timed⟩
      (intact.mp follow) handles expired single freed listed₁ distinct₁
  · intro _
    exact timeoutLoop_live env w s.clock rest settled
      (fun cell member => listed cell (List.mem_cons_of_mem _ member))
      (List.nodup_cons.mp distinct).2

-----------------------------------------------------------------------------------------
-- Runs
-----------------------------------------------------------------------------------------

/-- A reply arrives while its handle waits, and no tick finds its two oldest handles expired
with others behind them and the freed head still linked to the rest.
-/
def AckTimely (s : State) (input : StepInput) : Prop :=
  match input.2 with
  | .reply ah _ => (s.ackHandlers.get? ah).isSome = true
  | .tick => doubleTimeout input.1 s = false
  | _ => True

instance (s : State) (input : StepInput) : Decidable (AckTimely s input) := by
  unfold AckTimely
  split <;> infer_instance

/-- Every input handled in time keeps handles settled and goes through no freed one. -/
theorem handleInput_settled (env : Env) (w : World) {s : State} (layout : Layout s)
    (settled : Settled s) {input : Input} (timely : AckTimely s (w, input))
    : (handleInput env w input).wp (fun _ => Settled) (fun error _ => NotAckHandle error) s := by
  have other (direct : input.direct)
      : (handleInput env w input).wp (fun _ => Settled) (fun error _ => NotAckHandle error) s := by
    have may : MayHandle .noAcks (fun s => Settled s ∧ Layout s) env w s input :=
      noAcks_generous.mayHandle (fun _ => And.right) env (fun _ _ _ _ => trivial)
        (fun _ _ _ _ _ _ _ _ => trivial) (fun _ _ _ _ _ _ => trivial) (Or.inl direct)
    exact wp_post (handleInput_keeps (settledBut_stable none).layout env w direct
      ⟨settled, layout⟩ may) (fun _ _ holds => holds.1)
  cases input with
  | reply ah message =>
      obtain ⟨handle, live⟩ := Option.isSome_iff_exists.mp timely
      exact jingleHandleAckIq_settled env w message settled live
  | tick => exact jingleAckTimeoutChecker_settled env w settled timely
  | _ => exact other trivial

theorem settled_reached {env : Env} {s : State} (run : ReachableBy env AckTimely s)
    : Settled s := by
  induction run with
  | start initial =>
      refine ⟨?_, ?_, ?_⟩
      · simp [initial.fired]
      · simp [initial.fired]
      · intro ah handle found
        rw [initial.ackHandlers] at found
        cases found
  | @step s s' input run timely next settled =>
      obtain ⟨w, input⟩ := input
      have handled := handleInput_settled env w (layout_reached run) settled timely
      exact wp_done (m := handleInput env w input) handled next.2

/-- In every run whose replies and ticks are timely each callback runs at most once, and no
step that is timely uses a freed handle.
-/
theorem ack_handlers_complete_once (env : Env) (s : State) (run : ReachableBy env AckTimely s)
    : (s.fired.map Prod.fst).Nodup
      ∧ ∀ input : StepInput, AckTimely s input → ∀ error s',
          handleInput env input.1 input.2 s = .fault error s' →
          error ≠ .useAfterFree .ackHandle := by
  have settled := settled_reached run
  refine ⟨settled.once, ?_⟩
  rintro ⟨w, input⟩ timely error s' ends
  have handled := handleInput_settled env w (layout_reached run) settled timely
  exact wp_fault (m := handleInput env w input) handled ends

/-- A file is offered and the peer does not answer for a minute. -/
def unanswered : List StepInput := [
  (offeringWorld [], .jftSend (some "notes")),
  (plainWorld, .wait 60),
  (plainWorld, .tick)
]

theorem ack_handlers_complete_once_unanswered
    : ∃ s, ReachableBy plainEnv AckTimely s ∧ s.fired.length = 1
        ∧ (s.fired.map Prod.fst).Nodup
        ∧ ∀ input : StepInput, AckTimely s input → ∀ error s',
            handleInput plainEnv input.1 input.2 s = .fault error s' →
            error ≠ .useAfterFree .ackHandle := by
  have passed : (execute plainEnv AckTimely loaded unanswered).any
      (fun s => s.fired.length == 1) = true := by decide +kernel
  obtain ⟨s, run, one⟩ := execute_any _ (loaded_reached plainEnv AckTimely) passed
  exact ⟨s, run, by simpa using one, ack_handlers_complete_once plainEnv s run⟩

/-- The peer's answer after that minute goes through the freed handle. -/
theorem late_reply_uses_freed_handle
    : ¬∀ env s, Reachable env s →
        (s.fired.map Prod.fst).Nodup
        ∧ ∀ input : StepInput, Enabled s input.2 → ∀ error s',
            handleInput env input.1 input.2 s = .fault error s' →
            error ≠ .useAfterFree .ackHandle := by
  intro claimed
  have passed : (execute plainEnv (fun _ _ => True) loaded unanswered).any
      (stopsAt plainEnv (plainWorld, .reply 0 (replyOf .result)) (.useAfterFree .ackHandle))
      = true := by decide +kernel
  obtain ⟨s, run, stops⟩ := execute_any _ (loaded_reached plainEnv _) passed
  obtain ⟨enabled, s', ends⟩ := fault_of_stopsAt stops
  exact (claimed plainEnv s run).2 _ enabled _ s' ends rfl

end McabberJingle
