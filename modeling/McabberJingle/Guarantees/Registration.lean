import McabberJingle.Guarantees.WellFormed
import McabberJingle.System.Modules

/-! The contents of the listed sessions keep the tables of their modules, and code calls a
module through these. Unloading a module looks at no session.
-/

namespace McabberJingle

open Program Program.Prog

variable {env : Env} {w : World} {s₀ s s' : State}

-----------------------------------------------------------------------------------------
-- The invariant
-----------------------------------------------------------------------------------------

/-- Both tables of the content are registered. -/
structure Backed (s : State) (sc : SessionContent) : Prop where
  app : ∃ appfuncs, sc.appfuncs = some appfuncs ∧ AppRegistered s appfuncs
  trans : ∃ transfuncs, sc.transfuncs = some transfuncs ∧ TransportRegistered s transfuncs

/-- The tables of all listed contents are registered in `s₀`. -/
def AllBacked (s₀ s : State) : Prop :=
  ∀ p js, s.sessions.get? p = some js → ∀ sc ∈ js.content, Backed s₀ sc

/-- A content with the same tables. -/
theorem Backed.of_tables {sc sc' : SessionContent} (backed : Backed s sc)
    (app : sc'.appfuncs = sc.appfuncs) (trans : sc'.transfuncs = sc.transfuncs)
    : Backed s sc' :=
  ⟨app ▸ backed.app, trans ▸ backed.trans⟩

theorem Backed.sameModules {sc : SessionContent} (backed : Backed s sc)
    (modules : SameModules s s')
    : Backed s' sc := by
  obtain ⟨⟨appfuncs, app, registeredApp⟩, transfuncs, trans, registered⟩ := backed
  refine ⟨⟨appfuncs, app, ?_⟩, transfuncs, trans, ?_⟩
  · rwa [AppRegistered, modules.1]
  · rwa [TransportRegistered, modules.2]

/-- The same tables are registered in a state with the same modules. -/
theorem AllBacked.rebase {s₁ : State} (backed : AllBacked s₀ s) (modules : SameModules s₀ s₁)
    : AllBacked s₁ s :=
  fun p js listed sc member => (backed p js listed sc member).sameModules modules

theorem AllBacked.congr (backed : AllBacked s₀ s) (same : s'.sessions = s.sessions)
    : AllBacked s₀ s' := by
  intro p js listed
  rw [same] at listed
  exact backed p js listed

/-- A session with registered tables may be added. -/
theorem AllBacked.opening (backed : AllBacked s₀ s) {js : JingleSession}
    (new : ∀ sc ∈ js.content, Backed s₀ sc)
    : AllBacked s₀ (s.opening js) := by
  intro p js' listed
  rcases Pool.get?_alloc_eq_some.mp listed with ⟨_, rfl⟩ | old
  · exact new
  · exact backed p js' old

/-- Contents that are not being built keep their tables. -/
theorem allBacked_stable (s₀ : State) : Stable .settled (AllBacked s₀) := by
  intro s s' backed effect p js listed
  rcases listed_effect effect listed with same | ⟨_, _, opened⟩ | ⟨old, there, _, change, _⟩
  · exact backed p js same
  · exact opened.elim
  · intro sc member
    have before := backed p old there
    generalize js.content = new at change member
    cases change with
    | changeState name state allowed active =>
        rcases mem_updateFirst member with kept | ⟨sc', there, _, rfl⟩
        · exact before sc kept
        · exact (before sc' there).of_tables rfl rfl
    | remove name allowed drop =>
        exact before sc ((removeFirst_sublist name old.content).subset member)
    | append name allowed => exact allowed.elim
    | dropLast allowed => exact allowed.elim
    | supplyApp supplied allowed => exact allowed.elim
    | supplyTrans supplied allowed => exact allowed.elim
    | supplyTransFor app supplied allowed => exact allowed.elim
    | fillApp name xmlns appfuncs d allowed => exact allowed.elim
    | fillTrans name xmlns transfuncs t allowed => exact allowed.elim

-----------------------------------------------------------------------------------------
-- Sessions that are made
-----------------------------------------------------------------------------------------

theorem appRegistered_of_get {xmlns : Option String} {appfuncs : JingleAppFuncs}
    (known : jingleGetAppfuncs s xmlns = some appfuncs)
    : AppRegistered s appfuncs := by
  obtain ⟨entry, found, same⟩ := Option.map_eq_some_iff.mp known
  exact ⟨entry, List.mem_of_find?_eq_some found, same⟩

theorem transportRegistered_of_get {xmlns : Option String} {transfuncs : JingleTransportFuncs}
    (known : jingleGetTransportfuncs s xmlns = some transfuncs)
    : TransportRegistered s transfuncs := by
  obtain ⟨entry, found, same⟩ := Option.map_eq_some_iff.mp known
  exact ⟨entry, List.mem_of_find?_eq_some found, same⟩

/-- The contents made for the kept elements have tables that are registered. -/
theorem Fills.backed {cn : JingleContent} {sc : SessionContent} (fills : Fills s₀ s cn sc)
    (kept : contentKept env w s₀ cn = true)
    : Backed s₀ sc := by
  simp only [contentKept, Bool.and_eq_true, Option.isSome_iff_exists] at kept
  obtain ⟨⟨⟨appfuncs, app⟩, _⟩, _⟩ := kept
  obtain ⟨appfuncs', app'⟩ := Option.isSome_iff_exists.mp fills.app
  obtain ⟨transfuncs, t, trans, _⟩ := fills.trans
  have same : appfuncs' = appfuncs := by
    cases appfuncs
    cases appfuncs'
    rfl
  refine ⟨⟨appfuncs', app', same ▸ appRegistered_of_get app⟩, transfuncs, trans, ?_⟩
  exact transportRegistered_of_get (fills.known.symm.trans trans)

theorem AllBacked.filled (backed : AllBacked s₀ s₀) {p : SessionPtr} {js : JingleSession}
    {contents : List JingleContent} {content : List SessionContent}
    (filled : Filled env w s₀ s p js (contents.filter (contentKept env w s₀)) content)
    : AllBacked s₀ s := by
  intro q js' listed sc member
  by_cases here : q = p
  · subst here
    have some_content : content ≠ [] := by
      intro empty
      rw [filled.deleted empty] at listed
      cases listed
    cases (filled.listed some_content).symm.trans listed
    obtain ⟨cn, there, fills⟩ := forall₂_mem_right filled.complete.fills member
    exact fills.backed (List.mem_filter.mp there).2
  · exact backed q js' ((filled.around.others q here).symm.trans listed) sc member

/-- Offering a transfer that is in no session, while a transport is there for it. -/
theorem jftSendTransfer_backed {d : FtPtr} (backed : AllBacked s₀ s)
    (modules : SameModules s₀ s)
    (whole : (offerRecipient w).isSome = true →
      (offerTransport s).isSome = true ∧ Undescribed s d)
    : (jftSendTransfer env w d).wp (fun _ => AllBacked s₀) (fun error _ => AnyFault error) s := by
  cases recipient : offerRecipient w with
  | none =>
      have failed : Keeps (AllBacked s₀) NotAckHandle
          (modifyFt d (fun ft => { ft with state := .error })) :=
        modifyFt_keeps (allBacked_stable s₀) trivial (.kept (fun _ => ⟨rfl, rfl⟩))
      unfold jftSendTransfer
      cases jid : w.currentJid with
      | none => exact anyFault (failed s backed)
      | some currentJid =>
          cases resource : w.compatibleRes with
          | none => exact anyFault (failed s backed)
          | some ressource => simp [offerRecipient, jid, resource] at recipient
  | some recipientjid =>
      obtain ⟨transport, undescribed⟩ := whole (by rw [recipient]; rfl)
      obtain ⟨transfuncs, offered⟩ := Option.isSome_iff_exists.mp transport
      obtain ⟨appfuncs, xmlns, knownApp, chosen, known⟩ := offerTransport_known offered
      rw [wp, jftSendTransfer_eq env recipient knownApp chosen known undescribed]
      refine anyFault (jingleSendSessionInitiate_keeps (allBacked_stable s₀) env w trivial
        (fun _ => trivial) _ ?_)
      refine (backed.congr rfl).opening (fun sc member => ?_)
      rw [List.mem_singleton.mp member]
      have ready : Backed s (readyContent appfuncs
          { name := "file", data := d, ns := NS_JINGLE_APP_FT } xmlns transfuncs
          s.transports.next) :=
        ⟨⟨appfuncs, rfl, appRegistered_of_get knownApp⟩, transfuncs, rfl,
          transportRegistered_of_get known⟩
      exact ready.sameModules ⟨modules.1.symm, modules.2.symm⟩

/-- Whether the file of `/jft send` can be offered. -/
def World.usableFile (w : World) : Bool :=
  w.file.any (fun info => info.regular && info.opened.isSome && info.encoded)

/-- The transfer that a command offers. -/
def Input.offered (w : World) (s : State) : Input → Option FtPtr
  | .jftSend (some _) => if w.usableFile then some s.infoList.next else none
  | input => input.retried s

/-- A file that goes to a buddy is in no session yet, and some transport takes it. -/
def OfferedWhole (s : State) (input : StepInput) : Prop :=
  (offerRecipient input.1).isSome = true → ∀ d ∈ input.2.offered input.1 s,
    (offerTransport s).isSome = true ∧ Undescribed s d

instance (s : State) (input : StepInput) : Decidable (OfferedWhole s input) := by
  unfold OfferedWhole
  infer_instance

/-- `_new` returns a transfer for a usable file only. -/
theorem FileTransfer.new_usable (env : Env) (w : World) (name : String) (s : State)
    : (FileTransfer.new env w name).wp (fun d _ => d.isSome = true → w.usableFile = true)
        (fun error _ => AnyFault error) s := by
  unfold FileTransfer.new World.usableFile
  refine wp_cut (fun _ _ => True) trivial (fun p s _ => ?_)
  cases w.file with
  | none => exact fun h => by cases h
  | some info =>
      dsimp only
      rw [wp_ite]
      refine ⟨fun regular => ?_, fun _ h => by cases h⟩
      refine wp_cut (fun _ _ => True) trivial (fun _ s _ => ?_)
      cases opened : info.opened with
      | none => exact fun h => by cases h
      | some reads =>
          refine wp_cut (fun _ _ => True) trivial (fun _ s _ => ?_)
          rw [wp_ite]
          exact ⟨fun encoded _ => by simp [regular, opened, encoded], fun _ h => by cases h⟩

theorem jftSend_backed (arg : Option String) (backed : AllBacked s s)
    (whole : OfferedWhole s (w, .jftSend arg))
    : (jftSend env w arg).wp (fun _ => AllBacked s) (fun error _ => AnyFault error) s := by
  cases arg with
  | none => exact backed
  | some name =>
      have made := FileTransfer.new_keeps ((storage_sessions s.sessions).sameModules s) env w name
        (fun _ _ => trivial) trivial ⟨rfl, rfl, rfl⟩
      refine wp_seq (wp_mono (wp_and made (FileTransfer.new_usable env w name s))
        (fun _ _ both => both) (fun error _ _ => trivial)) ?_
      rintro (_ | d) s' ⟨⟨⟨sameSessions, modules⟩, known⟩, usable⟩
      · exact backed.congr sameSessions
      · obtain ⟨rfl, _⟩ := known d rfl
        refine jftSendTransfer_backed (backed.congr sameSessions) modules (fun recipient => ?_)
        have offered : s.infoList.next ∈ (Input.jftSend (some name)).offered w s := by
          simp [Input.offered, usable rfl]
        obtain ⟨transport, undescribed⟩ := whole recipient _ offered
        refine ⟨by rwa [modules.offerTransport], ?_⟩
        simpa only [Undescribed, sameSessions] using undescribed

theorem jftRetry_backed (arg : Option String) (backed : AllBacked s s)
    (whole : OfferedWhole s (w, .jftRetry arg))
    : (jftRetry env w arg).wp (fun _ => AllBacked s) (fun error _ => AnyFault error) s := by
  refine wp_known rfl ?_
  split
  · rename_i name d ft rest listed
    refine wp_cut (fun _ s' => s'.sessions = s.sessions ∧ SameModules s s') ⟨rfl, rfl, rfl⟩ ?_
    rintro _ s' ⟨sameSessions, modules⟩
    refine jftSendTransfer_backed (backed.congr sameSessions) modules (fun recipient => ?_)
    have offered : d ∈ (Input.jftRetry (some name)).offered w s := by
      simp [Input.offered, Input.retried, listed]
    obtain ⟨transport, undescribed⟩ := whole recipient d offered
    refine ⟨by rwa [modules.offerTransport], ?_⟩
    simpa only [Undescribed, sameSessions] using undescribed
  · exact backed

-----------------------------------------------------------------------------------------
-- One step
-----------------------------------------------------------------------------------------

/-- A turn of the main loop registers nothing, and makes contents with registered tables. -/
theorem backed_turn {input : Input} (backed : AllBacked s s) (layout : Layout s)
    (whole : OfferedWhole s (w, input)) (step : Step env s (w, input) s')
    : AllBacked s' s' := by
  have modules := (step.frame layout).2
  have built : AllBacked s s' := by
    cases opens : input.invitation env w s with
    | some jn =>
        obtain ⟨sender, toJid, content, _, _, filled⟩ := invitation_filled layout opens step
        have opened : AllBacked s (s.inviting (checkContents jn).jn sender toJid) :=
          (backed.opening (fun _ member => by cases member)).congr rfl
        have unchanged : SameModules s (s.inviting (checkContents jn).jn sender toJid) := ⟨rfl, rfl⟩
        exact ((opened.rebase unchanged).filled filled).rebase ⟨rfl, rfl⟩
    | none =>
        cases offers : input.offers with
        | false =>
            exact step.keeps (allBacked_stable s) backed (settled_mayHandle opens offers)
        | true =>
            cases input with
            | jftSend arg =>
                exact wp_done (m := jftSend env w arg) (jftSend_backed arg backed whole) step.2
            | jftRetry arg =>
                exact wp_done (m := jftRetry env w arg) (jftRetry_backed arg backed whole) step.2
            | _ => cases offers
  exact built.rebase modules

/-- The content has the module's table. -/
def JingleModule.Serves (sc : SessionContent) : JingleModule → Prop
  | .fileTransfer => sc.appfuncs = some .fileTransfer
  | .ibb => sc.transfuncs = some .ibb
  | .socks5 => sc.transfuncs = some .s5b

/-- No listed content has the module's table. -/
def JingleModule.Unused (s : State) (m : JingleModule) : Prop :=
  ∀ cell ∈ s.sessions.cells, ∀ sc ∈ cell.2.content, ¬m.Serves sc

/-- Offers are whole, and no module is unloaded while a listed content has its table. -/
def TablesKept (s : State) : ModuleInput → Prop
  | .load _ _ => True
  | .unload m => m.Unused s
  | .handle input => OfferedWhole s input

/-- Each registered table is under the namespace of its module. -/
structure OwnNames (s : State) : Prop where
  app : ∀ entry ∈ s.appHandlers, entry.xmlns = NS_JINGLE_APP_FT
  transport : ∀ entry ∈ s.transportHandlers,
    entry.xmlns = NS_JINGLE_TRANSPORT_IBB ∧ entry.funcs = .ibb
    ∨ entry.xmlns = NS_JINGLE_TRANSPORT_SOCKS5 ∧ entry.funcs = .s5b

/-- A table stays registered when an entry of another table is unlinked. -/
theorem TransportRegistered.unregister {xmlns : String} {transfuncs : JingleTransportFuncs}
    (registered : TransportRegistered s transfuncs)
    (other : ∀ entry ∈ s.transportHandlers, entry.funcs = transfuncs → entry.xmlns ≠ xmlns)
    : TransportRegistered (jingleUnregisterTransport xmlns s) transfuncs := by
  obtain ⟨entry, member, same⟩ := registered
  refine ⟨entry, ?_, same⟩
  exact (List.mem_eraseP_of_neg (by simpa using other entry member same)).mpr member

/-- The tables of other modules stay registered. -/
theorem Backed.uninit {sc : SessionContent} (backed : Backed s sc) (own : OwnNames s)
    {m : JingleModule} (unused : ¬m.Serves sc)
    : Backed (m.uninit s) sc := by
  obtain ⟨⟨appfuncs, app, registeredApp⟩, transfuncs, trans, registered⟩ := backed
  cases m with
  | fileTransfer =>
      cases appfuncs
      exact absurd app unused
  | ibb =>
      refine ⟨⟨appfuncs, app, registeredApp⟩, transfuncs, trans, registered.unregister ?_⟩
      intro entry member same
      rcases own.transport entry member with ⟨_, isIbb⟩ | ⟨name, _⟩
      · exact absurd (trans.trans (congrArg some (same.symm.trans isIbb))) unused
      · rw [name]
        decide
  | socks5 =>
      refine ⟨⟨appfuncs, app, registeredApp⟩, transfuncs, trans, registered.unregister ?_⟩
      intro entry member same
      rcases own.transport entry member with ⟨name, _⟩ | ⟨_, isS5b⟩
      · rw [name]
        decide
      · exact absurd (trans.trans (congrArg some (same.symm.trans isS5b))) unused

/-- Loading a module takes no table away. -/
theorem Backed.init {sc : SessionContent} (backed : Backed s sc) (m : JingleModule)
    (localIps : List LocalIP)
    : Backed (m.init localIps s) sc := by
  obtain ⟨⟨appfuncs, app, entry, member, same⟩, transfuncs, trans, entry', member', same'⟩ := backed
  refine ⟨⟨appfuncs, app, entry, ?_, same⟩, transfuncs, trans, entry', ?_, same'⟩
  · cases m <;> simp only [JingleModule.init, jingleRegisterApp, jingleRegisterTransport] <;>
      split <;> simp [member]
  · cases m <;> simp only [JingleModule.init, jingleRegisterApp, jingleRegisterTransport] <;>
      split <;> simp [member']

theorem OwnNames.init (own : OwnNames s) (m : JingleModule) (localIps : List LocalIP)
    : OwnNames (m.init localIps s) := by
  obtain ⟨app, transport⟩ := own
  cases m <;> simp only [JingleModule.init, jingleRegisterApp, jingleRegisterTransport]
  case fileTransfer =>
    split
    · refine ⟨fun entry member => ?_, transport⟩
      rcases List.mem_append.mp member with old | new
      · exact app entry old
      · rw [List.mem_singleton.mp new]
    · exact ⟨app, transport⟩
  case ibb =>
    split
    · refine ⟨app, fun entry member => ?_⟩
      rcases List.mem_append.mp member with old | new
      · exact transport entry old
      · rw [List.mem_singleton.mp new]
        exact Or.inl ⟨rfl, rfl⟩
    · exact ⟨app, transport⟩
  case socks5 =>
    split
    · refine ⟨app, fun entry member => ?_⟩
      rcases List.mem_append.mp member with old | new
      · exact transport entry old
      · rw [List.mem_singleton.mp new]
        exact Or.inr ⟨rfl, rfl⟩
    · exact ⟨app, transport⟩

theorem OwnNames.uninit (own : OwnNames s) (m : JingleModule) : OwnNames (m.uninit s) := by
  cases m with
  | fileTransfer =>
      exact ⟨fun entry member => own.app entry (List.mem_of_mem_eraseP member), own.transport⟩
  | ibb =>
      exact ⟨own.app, fun entry member => own.transport entry (List.mem_of_mem_eraseP member)⟩
  | socks5 =>
      exact ⟨own.app, fun entry member => own.transport entry (List.mem_of_mem_eraseP member)⟩

theorem Layout.init (layout : Layout s) (m : JingleModule) (localIps : List LocalIP)
    : Layout (m.init localIps s) := by
  obtain ⟨described, carried, apart, within, streams⟩ := layout
  cases m <;> simp only [JingleModule.init, jingleRegisterApp, jingleRegisterTransport] <;> split
  case ibb.isTrue => exact ⟨described, carried, apart, within, fun _ member => by cases member⟩
  case ibb.isFalse => exact ⟨described, carried, apart, within, fun _ member => by cases member⟩
  all_goals exact ⟨described, carried, apart, within, streams⟩

/-- What every step keeps. -/
structure Supported (s : State) : Prop where
  backed : AllBacked s s
  layout : Layout s
  own : OwnNames s

theorem supported_step {input : ModuleInput} (supported : Supported s) (kept : TablesKept s input)
    (step : ModuleStep env s input s')
    : Supported s' := by
  obtain ⟨backed, layout, own⟩ := supported
  cases step with
  | load m localIps absent =>
      have still : AllBacked (m.init localIps s) s := fun p js listed sc member =>
        (backed p js listed sc member).init m localIps
      exact ⟨still.congr (by simp), layout.init m localIps, own.init m localIps⟩
  | unload m loaded =>
      have still : AllBacked (m.uninit s) s := fun p js listed sc member =>
        (backed p js listed sc member).uninit own
          (kept (p, js) (Pool.get?_eq_some_iff.mp listed) sc member)
      refine ⟨still.congr (by simp), ?_, own.uninit m⟩
      cases m <;> exact
        ⟨layout.described, layout.carried, layout.apart, layout.within, layout.streams⟩
  | @handle input s' step =>
      obtain ⟨layout', modules⟩ := step.frame layout
      refine ⟨backed_turn backed layout kept step, layout', ?_⟩
      exact ⟨modules.1 ▸ own.app, modules.2 ▸ own.transport⟩

-----------------------------------------------------------------------------------------
-- Runs
-----------------------------------------------------------------------------------------

/-- When no module is unloaded while a listed content has its table, and offers are whole,
both tables of every listed content are registered.
-/
theorem tables_outlive_contents (env : Env) (s : State)
    (run : ReachableWithModules env TablesKept s)
    : ∀ p js, s.sessions.get? p = some js → ∀ sc ∈ js.content,
        (∃ appfuncs, sc.appfuncs = some appfuncs ∧ AppRegistered s appfuncs)
        ∧ ∃ transfuncs, sc.transfuncs = some transfuncs ∧ TransportRegistered s transfuncs := by
  have supported : Supported s := by
    induction run with
    | start unloaded =>
        have reached : Reachable env _ := .start unloaded.toInitial
        refine ⟨fun p js listed => ?_, layout_reached reached,
          ⟨fun _ member => ?_, fun _ member => ?_⟩⟩
        · rw [unloaded.sessions] at listed
          cases listed
        · rw [unloaded.appHandlers] at member
          cases member
        · rw [unloaded.transportHandlers] at member
          cases member
    | step run kept step ih => exact supported_step ih kept step
  intro p js listed sc member
  have backed := supported.backed p js listed sc member
  exact ⟨backed.app, backed.trans⟩

instance (sc : SessionContent) (m : JingleModule) : Decidable (m.Serves sc) := by
  cases m <;> (unfold JingleModule.Serves; infer_instance)

instance (s : State) (m : JingleModule) : Decidable (m.Unused s) := by
  unfold JingleModule.Unused
  infer_instance

instance (s : State) (input : StepInput) : Decidable (TablesKept s (.handle input)) :=
  inferInstanceAs (Decidable (OfferedWhole s input))

/-- A peer offers us a file, and we offer one; neither uses SOCKS5. -/
def offersBothWays : List StepInput := [
  (plainWorld, .jingleIq
    (jingleSet "romeo@verona/a" "session-initiate" "s1" [offeredContent "file" "b1"])),
  (offeringWorld [], .jftSend (some "notes"))
]

/-- SOCKS5 comes and goes while two sessions over in-band streams are there. -/
theorem tables_outlive_contents_offersBothWays
    : ∃ s, ReachableWithModules plainEnv TablesKept s ∧ s.sessions.cells.length = 2
        ∧ ∀ p js, s.sessions.get? p = some js → ∀ sc ∈ js.content,
          (∃ appfuncs, sc.appfuncs = some appfuncs ∧ AppRegistered s appfuncs)
          ∧ ∃ transfuncs, sc.transfuncs = some transfuncs ∧ TransportRegistered s transfuncs := by
  have passed : (execute plainEnv (fun s input => TablesKept s (.handle input)) loaded
      offersBothWays).any (fun s => decide (s.sessions.cells.length = 2
        ∧ ¬JingleModule.socks5.Loaded s
        ∧ JingleModule.socks5.Loaded (JingleModule.socks5.init [] s)
        ∧ JingleModule.socks5.Unused (JingleModule.socks5.init [] s))) = true := by decide +kernel
  obtain ⟨s, ends, passes⟩ := (Option.any_eq_true _ _).mp passed
  obtain ⟨two, absent, present, unused⟩ := of_decide_eq_true passes
  have run := execute_withModules (loaded_reached_withModules plainEnv (fun _ _ _ => trivial)) ends
  have free : TablesKept s (.load .socks5 []) := trivial
  have run₁ : ReachableWithModules plainEnv TablesKept (JingleModule.socks5.init [] s) :=
    .step run free (.load .socks5 [] absent)
  have run₂ : ReachableWithModules plainEnv TablesKept
      (JingleModule.socks5.uninit (JingleModule.socks5.init [] s)) := by
    refine .step run₁ (?_ : TablesKept _ (.unload .socks5)) (.unload .socks5 present)
    exact unused
  exact ⟨_, run₂, by simpa using two, tables_outlive_contents plainEnv _ run₂⟩

/-- The module of an open stream is unloaded. -/
theorem unloaded_table_stays_in_use
    : ¬∀ env s, ReachableWithModules env (fun _ _ => True) s →
        ∀ p js, s.sessions.get? p = some js → ∀ sc ∈ js.content,
          (∃ appfuncs, sc.appfuncs = some appfuncs ∧ AppRegistered s appfuncs)
          ∧ ∃ transfuncs, sc.transfuncs = some transfuncs ∧ TransportRegistered s transfuncs := by
  intro claimed
  have passed : (execute plainEnv (fun _ _ => True) loaded offersBothWays).any (fun s =>
      decide (JingleModule.ibb.Loaded s
        ∧ ¬JingleModule.ibb.Loaded (JingleModule.ibb.uninit s)
        ∧ (s.sessions.get? 0).any (fun js =>
          js.content.any (fun sc => sc.transfuncs == some .ibb)) = true)) = true := by
    decide +kernel
  obtain ⟨s, ends, passes⟩ := (Option.any_eq_true _ _).mp passed
  obtain ⟨present, absent, uses⟩ := of_decide_eq_true passes
  have run : ReachableWithModules plainEnv (fun _ _ => True) s :=
    execute_withModules (loaded_reached_withModules plainEnv (fun _ _ _ => trivial)) ends
  have run₁ : ReachableWithModules plainEnv (fun _ _ => True) (JingleModule.ibb.uninit s) :=
    .step run trivial (.unload .ibb present)
  obtain ⟨js, listed, uses⟩ := (Option.any_eq_true _ _).mp uses
  obtain ⟨sc, member, isIbb⟩ := List.any_eq_true.mp uses
  have listed₁ : (JingleModule.ibb.uninit s).sessions.get? 0 = some js := by simpa using listed
  obtain ⟨_, transfuncs, trans, registered⟩ := claimed plainEnv _ run₁ 0 js listed₁ sc member
  cases (eq_of_beq isIbb).symm.trans trans
  exact absent registered

end McabberJingle
