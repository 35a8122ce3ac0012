import McabberJingle.Effects.Wiring
import McabberJingle.Guarantees.Registration
import McabberJingle.Program.Lists

/-! IQs reach the modules that are there to hear them, and each of these at most once, however
mcabber loads and unloads modules, connects and disconnects. No handler is used after it was freed.
-/

namespace McabberJingle

open Program Program.Prog

-----------------------------------------------------------------------------------------
-- Who listens
-----------------------------------------------------------------------------------------

/-- Whether there is a connection, and which modules are loaded and listen. -/
structure Audience where
  connected : Bool
  loaded : IqModule → Bool
  listening : IqModule → Bool

/-- Nobody, before mcabber connects and loads something. -/
def Audience.start : Audience where
  connected := false
  loaded _ := false
  listening _ := false

/-- A loaded module listens from `HOOK_POST_CONNECT` on, or from when it is loaded into a
connection, until `HOOK_PRE_DISCONNECT`, the end of the connection or the end of the module.
-/
def Audience.next (a : Audience) : ClientInput → Audience
  | .connect => { a with connected := true }
  | .disconnect => { a with connected := false, listening := fun _ => false }
  | .hook .postConnect => { a with listening := fun m => a.connected && a.loaded m }
  | .hook .preDisconnect => { a with listening := fun _ => false }
  | .load m _ =>
      match m.iqModule with
      | none => a
      | some i => { a with
          loaded := Function.update a.loaded i true
          listening := Function.update a.listening i a.connected }
  | .unload m =>
      match m.iqModule with
      | none => a
      | some i => { a with
          loaded := Function.update a.loaded i false
          listening := Function.update a.listening i false }
  | .receive _ _ => a
  | .handle _ => a

variable {lm : Loudmouth} {mc : Mcabber}

/-- Who listens after a run. -/
def audience (history : List (Client lm mc × ClientInput)) : Audience :=
  history.foldl (fun a turn => a.next turn.2) .start

theorem audience_append (history : List (Client lm mc × ClientInput)) (c : Client lm mc)
    (input : ClientInput)
    : audience (history ++ [(c, input)]) = (audience history).next input := by
  simp [audience]

/-- The module of a handler. -/
def IqModule.module : IqModule → McabberModule
  | .jingle => .jingle
  | .ibb => .user .ibb

variable {env : Env} {c c' : Client lm mc} {a : Audience} {input : ClientInput}

/-- The handlers and hooks of a client are as its audience has it. -/
structure Wired (c : Client lm mc) (a : Audience) : Prop where
  handled : Held c.wiring a.loaded a.listening
  hooked : Hooked c.wiring a.loaded
  connected : c.wiring.lconnection.isSome = a.connected
  loads : ∀ m, a.loaded m = true ↔ m.module ∈ c.loaded
  nodup : c.loaded.Nodup

/-- Handlers and hooks that are left as they are. -/
theorem Wired.congr (wired : Wired c a) (wiring : c'.wiring = c.wiring)
    (loads : ∀ m : IqModule, m.module ∈ c'.loaded ↔ m.module ∈ c.loaded) (nodup : c'.loaded.Nodup)
    : Wired c' a where
  handled := wiring ▸ wired.handled
  hooked := wiring ▸ wired.hooked
  connected := wiring ▸ wired.connected
  loads m := (wired.loads m).trans (loads m).symm
  nodup := nodup

/-- Each handler of a hook runs, so each loaded module hears of it. -/
theorem Wired.hook (doc : lm.Documented) (wired : Wired c a) (name : HookName)
    : ∃ wiring, hkRunHandlers name c.wiring = .done () wiring ∧ SameHooks c.wiring wiring
        ∧ Held wiring a.loaded (fun m => name.hears a.connected && a.loaded m) := by
  have all : ∀ cell ∈ mc.handlers c.wiring.hooks name, a.loaded cell.2 = true :=
    fun cell member => ((wired.hooked.handlers name cell.1 cell.2).mp member).1
  obtain ⟨wiring, listening, ran, frame, handled, heard, others⟩ :=
    callHandlers_done doc name wired.handled all
  rw [wired.connected] at heard others
  have same : listening = fun m => name.hears a.connected && a.loaded m := by
    funext m
    cases known : a.loaded m with
    | true =>
        have member := (wired.hooked.handlers name _ m).mpr ⟨known, rfl⟩
        rw [heard _ member, Bool.and_true]
    | false =>
        cases loud : listening m with
        | false => simp
        | true => exact absurd (handled.silent m loud) (by simp [known])
  exact ⟨wiring, ran, frame, same ▸ handled⟩

/-- A module with a handler is loaded. -/
theorem Wired.load (doc : lm.Documented) (mdoc : mc.Documented) (wired : Wired c a) (i : IqModule)
    (absent : i.module ∉ c.loaded)
    : ∃ wiring, initHandlers i c.wiring = .done () wiring
        ∧ ∀ c' : Client lm mc, c'.wiring = wiring → c'.loaded = c.loaded ++ [i.module] →
          Wired c' { a with
            loaded := Function.update a.loaded i true
            listening := Function.update a.listening i a.connected } := by
  have unloaded : a.loaded i = false := by
    cases known : a.loaded i with
    | false => rfl
    | true => exact absurd ((wired.loads i).mp known) absent
  obtain ⟨wiring, ran, frame, handled⟩ := registerLmHandlers_done doc
    (wired.handled.equipped doc unloaded) (Function.update_self i true a.loaded)
  have still := congrArg Option.isSome (c.wiring.connected_equipped doc i)
  refine ⟨wiring, ran, ?_⟩
  rintro c' rfl loaded
  have connected : c'.wiring.lconnection.isSome = a.connected :=
    (frame.connected.trans still).trans wired.connected
  refine ⟨?_, (wired.hooked.equipped mdoc unloaded).frame frame, connected, fun m => ?_, ?_⟩
  · rw [← wired.connected, ← still]
    exact handled
  · rw [loaded]
    dsimp only
    by_cases same : m = i
    · simp [same]
    · have apart : m.module ≠ i.module := by cases m <;> cases i <;> simp_all [IqModule.module]
      rw [Function.update_of_ne same, wired.loads m]
      simp [apart]
  · rw [loaded]
    exact List.nodup_append_comm.mp (List.nodup_cons.mpr ⟨absent, wired.nodup⟩)

/-- A module without one is loaded. -/
theorem Wired.loadOther (wired : Wired c a) {m : McabberModule}
    (foreign : ∀ i : IqModule, i.module ≠ m) (absent : m ∉ c.loaded)
    (wiring : c'.wiring = c.wiring) (loaded : c'.loaded = c.loaded ++ [m])
    : Wired c' a := by
  refine wired.congr wiring (fun i => ?_) ?_
  · simp [loaded, foreign i]
  · rw [loaded]
    exact List.nodup_append_comm.mp (List.nodup_cons.mpr ⟨absent, wired.nodup⟩)

/-- What is left when a module with a handler is unloaded. -/
theorem Wired.unload (wired : Wired c a) (i : IqModule)
    (handled : Held c'.wiring (Function.update a.loaded i false)
      (Function.update a.listening i false))
    (hooked : Hooked c'.wiring (Function.update a.loaded i false))
    (connected : c'.wiring.lconnection.isSome = c.wiring.lconnection.isSome)
    (loaded : c'.loaded = c.loaded.erase i.module)
    : Wired c' { a with
        loaded := Function.update a.loaded i false
        listening := Function.update a.listening i false } := by
  refine ⟨handled, hooked, connected.trans wired.connected, fun m => ?_,
    loaded ▸ wired.nodup.erase _⟩
  rw [loaded, wired.nodup.mem_erase_iff]
  dsimp only
  by_cases same : m = i
  · simp [same]
  · have apart : m.module ≠ i.module := by cases m <;> cases i <;> simp_all [IqModule.module]
    rw [Function.update_of_ne same, wired.loads m]
    simp [apart]

theorem Wired.unloadOther (wired : Wired c a) {m : McabberModule}
    (foreign : ∀ i : IqModule, i.module ≠ m) (wiring : c'.wiring = c.wiring)
    (loaded : c'.loaded = c.loaded.erase m)
    : Wired c' a := by
  refine wired.congr wiring (fun i => ?_) (loaded ▸ wired.nodup.erase _)
  rw [loaded, wired.nodup.mem_erase_iff]
  simp [foreign i]

/-- No turn of mcabber uses a freed handler, and each keeps the account. -/
theorem Wired.wire (doc : lm.Documented) (mdoc : mc.Documented) (wired : Wired c a)
    (possible : input.Possible c)
    : ∃ wiring, input.wire c.wiring = .done () wiring
        ∧ ∀ c' : Client lm mc, c'.wiring = wiring → c'.loaded = input.modules c.loaded →
          Wired c' (a.next input) := by
  cases input with
  | connect =>
      refine ⟨_, rfl, ?_⟩
      rintro c' wiring loaded
      obtain ⟨handled, connection⟩ := wired.handled.connect doc possible
      refine ⟨wiring ▸ handled, wiring ▸ wired.hooked.congr rfl rfl rfl, ?_, loaded ▸ wired.loads,
        loaded ▸ wired.nodup⟩
      rw [wiring]
      exact congrArg Option.isSome connection
  | disconnect =>
      refine ⟨_, rfl, ?_⟩
      rintro c' wiring loaded
      refine ⟨wiring ▸ wired.handled.hangUp doc, wiring ▸ wired.hooked.congr rfl rfl rfl, ?_,
        loaded ▸ wired.loads, loaded ▸ wired.nodup⟩
      rw [wiring]
      exact congrArg Option.isSome (doc.connectionUnref c.wiring.lm).connection
  | hook name =>
      obtain ⟨wiring, ran, frame, handled⟩ := wired.hook doc name
      refine ⟨wiring, ran, ?_⟩
      rintro c' rfl loaded
      have connected := frame.connected.trans wired.connected
      have hooked := wired.hooked.frame frame
      cases name with
      | postConnect =>
          exact ⟨handled, hooked, connected, loaded ▸ wired.loads, loaded ▸ wired.nodup⟩
      | preDisconnect =>
          exact ⟨handled, hooked, connected, loaded ▸ wired.loads, loaded ▸ wired.nodup⟩
  | load m localIps =>
      have other {m : McabberModule} (foreign : ∀ i : IqModule, i.module ≠ m)
          (absent : m ∉ c.loaded) {c' : Client lm mc} (wiring : c'.wiring = c.wiring)
          (loaded : c'.loaded = c.loaded ++ [m])
          : Wired c' a :=
        wired.loadOther foreign absent wiring loaded
      cases m with
      | jingle => exact wired.load doc mdoc .jingle possible.1
      | user m =>
          cases m with
          | ibb => exact wired.load doc mdoc .ibb possible.1
          | fileTransfer =>
              exact ⟨_, rfl, fun _ => other (by rintro ⟨_⟩ <;> simp [IqModule.module]) possible.1⟩
          | socks5 =>
              exact ⟨_, rfl, fun _ => other (by rintro ⟨_⟩ <;> simp [IqModule.module]) possible.1⟩
  | unload m =>
      cases m with
      | jingle =>
          obtain ⟨wiring, ran, connected, handled, hooked⟩ :=
            jingleUninit_done doc mdoc wired.handled wired.hooked
              ((wired.loads .jingle).mpr possible.1)
          refine ⟨wiring, ran, ?_⟩
          rintro c' rfl loaded
          exact wired.unload .jingle handled hooked connected loaded
      | user m =>
          cases m with
          | ibb =>
              obtain ⟨wiring, ran, connected, handled, hooked⟩ :=
                jingleIbbUninit_done doc mdoc wired.handled wired.hooked
                  ((wired.loads .ibb).mpr possible.1)
              refine ⟨wiring, ran, ?_⟩
              rintro c' rfl loaded
              exact wired.unload .ibb handled hooked connected loaded
          | fileTransfer =>
              exact ⟨_, rfl, fun _ =>
                wired.unloadOther (by rintro ⟨_⟩ <;> simp [IqModule.module])⟩
          | socks5 =>
              exact ⟨_, rfl, fun _ =>
                wired.unloadOther (by rintro ⟨_⟩ <;> simp [IqModule.module])⟩
  | receive w message =>
      exact ⟨_, rfl, fun c' wiring loaded => wired.congr wiring (fun _ => by rw [loaded]; rfl)
        (loaded ▸ wired.nodup)⟩
  | handle input =>
      exact ⟨_, rfl, fun c' wiring loaded => wired.congr wiring (fun _ => by rw [loaded]; rfl)
        (loaded ▸ wired.nodup)⟩

-----------------------------------------------------------------------------------------
-- What is said to them
-----------------------------------------------------------------------------------------

/-- A request with a `<jingle/>` child. -/
def LmMessage.isJingle (message : LmMessage) : Bool :=
  message.subType == .set && (message.node.getChild "jingle").isSome

/-- A request with a `<data/>` child of an in-band bytestream. -/
def LmMessage.isIbbData (message : LmMessage) : Bool :=
  message.subType == .set && (message.node.getChild "data").any (fun dnode =>
    dnode.getAttribute "xmlns" == some NS_TRANSPORT_IBB)

/-- What becomes of an IQ that is not for both modules: it goes to the one it is for. -/
def respond (env : Env) (w : World) (message : LmMessage) (listening : IqModule → Bool)
    : Run LmHandlerResult :=
  if message.isJingle && listening .jingle then
    jingleHandleIq env w message
  else if message.isIbbData && listening .ibb then
    jingleIbbHandleIq env w message
  else
    pure .allowMoreHandlers

section Asking

variable {w : World} {message : LmMessage} {m : IqModule} {asked : List IqModule}

/-- An IQ that is not for a module leaves it alone. -/
theorem jingle_passes (foreign : message.isJingle = false)
    : IqModule.jingle.handleIq env w message = pure .allowMoreHandlers := by
  unfold IqModule.handleIq jingleHandleIq
  by_cases isSet : message.subType = .set
  · have none_ : message.node.getChild "jingle" = none := by
      simpa [LmMessage.isJingle, isSet] using foreign
    rw [if_neg (by simp [isSet]), none_]
  · rw [if_pos isSet]

theorem ibb_passes (foreign : message.isIbbData = false)
    : IqModule.ibb.handleIq env w message = pure .allowMoreHandlers := by
  unfold IqModule.handleIq jingleIbbHandleIq
  by_cases isSet : message.subType = .set
  · rw [if_neg (by simp [isSet])]
    cases child : message.node.getChild "data" with
    | none => rfl
    | some dnode =>
        have other : dnode.getAttribute "xmlns" ≠ some NS_TRANSPORT_IBB := by
          simpa [LmMessage.isIbbData, isSet, child] using foreign
        dsimp only
        rw [if_pos other]
  · rw [if_pos isSet]

theorem askAll_passed {rest : List IqModule}
    (passes : m.handleIq env w message = pure .allowMoreHandlers)
    : askAll env w message (m :: rest) = askAll env w message rest := by
  rw [askAll, passes]
  rfl

theorem askAll_none (pass : ∀ n ∈ asked, n.handleIq env w message = pure .allowMoreHandlers)
    : askAll env w message asked = pure .allowMoreHandlers := by
  induction asked with
  | nil => rfl
  | cons n rest ih =>
      rw [askAll_passed (pass n List.mem_cons_self)]
      exact ih (fun n member => pass n (List.mem_cons_of_mem _ member))

/-- The order in which the others are asked does not matter. -/
theorem askAll_one (member : m ∈ asked) (nodup : asked.Nodup)
    (pass : ∀ n ∈ asked, n ≠ m → n.handleIq env w message = pure .allowMoreHandlers)
    : askAll env w message asked = m.handleIq env w message := by
  induction asked with
  | nil => cases member
  | cons n rest ih =>
      obtain ⟨fresh, nodup⟩ := List.nodup_cons.mp nodup
      by_cases here : n = m
      · subst here
        have others : askAll env w message rest = pure .allowMoreHandlers :=
          askAll_none (fun n' member => pass n' (List.mem_cons_of_mem _ member)
            (fun same => fresh (same ▸ member)))
        funext s
        rw [askAll, others]
        cases ends : n.handleIq env w message s with
        | fault error s' => exact bind_fault ends
        | done result s' =>
            refine (bind_done ends).trans ?_
            cases result <;> rfl
      · rw [askAll_passed (pass n List.mem_cons_self here)]
        refine ih ((List.mem_cons.mp member).resolve_left (fun same => here same.symm)) nodup ?_
        exact fun n' member => pass n' (List.mem_cons_of_mem _ member)

/-- Those who listen make of an IQ what they should. -/
theorem askAll_eq_respond {listening : IqModule → Bool} (nodup : asked.Nodup)
    (listeners : ∀ m, m ∈ asked ↔ listening m = true)
    (one : ¬(message.isJingle = true ∧ message.isIbbData = true))
    : askAll env w message asked = respond env w message listening := by
  have jingle (foreign : message.isJingle = false) (n : IqModule) (other : n ≠ .ibb)
      : n.handleIq env w message = pure .allowMoreHandlers := by
    cases n with
    | jingle => exact jingle_passes foreign
    | ibb => exact absurd rfl other
  have ibb (foreign : message.isIbbData = false) (n : IqModule) (other : n ≠ .jingle)
      : n.handleIq env w message = pure .allowMoreHandlers := by
    cases n with
    | jingle => exact absurd rfl other
    | ibb => exact ibb_passes foreign
  unfold respond
  cases forJingle : message.isJingle with
  | true =>
      have foreign : message.isIbbData = false := by simpa [forJingle] using one
      cases heard : listening .jingle with
      | true => exact askAll_one ((listeners .jingle).mpr heard) nodup (fun n _ => ibb foreign n)
      | false =>
          simp only [foreign, Bool.and_false, Bool.false_and, Bool.false_eq_true, if_false]
          refine askAll_none (fun n member => ibb foreign n ?_)
          rintro rfl
          rw [(listeners .jingle).mp member] at heard
          cases heard
  | false =>
      simp only [Bool.false_and, Bool.false_eq_true, if_false]
      cases forIbb : message.isIbbData with
      | false =>
          simp only [Bool.false_and, Bool.false_eq_true, if_false]
          refine askAll_none (fun n _ => ?_)
          cases n
          · exact jingle_passes forJingle
          · exact ibb_passes forIbb
      | true =>
          cases heard : listening .ibb with
          | true =>
              exact askAll_one ((listeners .ibb).mpr heard) nodup (fun n _ => jingle forJingle n)
          | false =>
              simp only [Bool.and_false, Bool.false_eq_true, if_false]
              refine askAll_none (fun n member => jingle forJingle n ?_)
              rintro rfl
              rw [(listeners .ibb).mp member] at heard
              cases heard

end Asking

-----------------------------------------------------------------------------------------
-- The registry
-----------------------------------------------------------------------------------------

/-- The application that a module registers. -/
def McabberModule.appEntry : McabberModule → Option AppHandlerEntry
  | .user .fileTransfer =>
      some { xmlns := NS_JINGLE_APP_FT, funcs := .fileTransfer, transtype := .streaming }
  | _ => none

/-- The transport that a module registers. -/
def McabberModule.transportEntry : McabberModule → Option TransportHandlerEntry
  | .user .ibb => some {
      xmlns := NS_JINGLE_TRANSPORT_IBB, funcs := .ibb, transtype := .streaming
      priority := JINGLE_TRANSPORT_PRIO_LOW }
  | .user .socks5 => some {
      xmlns := NS_JINGLE_TRANSPORT_SOCKS5, funcs := .s5b, transtype := .streaming
      priority := JINGLE_TRANSPORT_PRIO_HIGH }
  | _ => none

/-- The registry has one entry for each loaded module, in the order of loading. -/
structure Registered (s : State) (loaded : List McabberModule) : Prop where
  app : s.appHandlers = loaded.filterMap McabberModule.appEntry
  transport : s.transportHandlers = loaded.filterMap McabberModule.transportEntry

section Registry

variable {s s' : State} {loaded : List McabberModule}

theorem Registered.sameModules (registered : Registered s loaded) (same : SameModules s s')
    : Registered s' loaded :=
  ⟨same.1.trans registered.app, same.2.trans registered.transport⟩

theorem Registered.init (registered : Registered s loaded) (m : JingleModule)
    (localIps : List LocalIP)
    : Registered (m.init localIps s) (loaded ++ [.user m]) := by
  have app : NS_JINGLE_APP_FT.startsWith NS_JINGLE_APP_PREFIX = true := by decide +kernel
  have ibb : NS_JINGLE_TRANSPORT_IBB.startsWith NS_JINGLE_TRANSPORT_PREFIX = true := by
    decide +kernel
  have socks5 : NS_JINGLE_TRANSPORT_SOCKS5.startsWith NS_JINGLE_TRANSPORT_PREFIX = true := by
    decide +kernel
  constructor
  · rw [List.filterMap_append, ← registered.app]
    cases m <;> simp only [JingleModule.init, jingleRegisterApp, jingleRegisterTransport, app, ibb,
      socks5, if_true] <;> simp [McabberModule.appEntry]
  · rw [List.filterMap_append, ← registered.transport]
    cases m <;> simp only [JingleModule.init, jingleRegisterApp, jingleRegisterTransport, app, ibb,
      socks5, if_true] <;> simp [McabberModule.transportEntry]

theorem Registered.uninit (registered : Registered s loaded) (m : JingleModule)
    : Registered (m.uninit s) (loaded.erase (.user m)) := by
  cases m with
  | fileTransfer =>
      constructor
      · change s.appHandlers.eraseP _ = _
        rw [registered.app]
        refine (filterMap_erase (fun n => ?_)).symm
        cases n with
        | jingle => simp [McabberModule.appEntry]
        | user m => cases m <;> simp [McabberModule.appEntry]
      · rw [filterMap_erase_of_none rfl]
        exact registered.transport
  | ibb =>
      constructor
      · rw [filterMap_erase_of_none rfl]
        exact registered.app
      · change s.transportHandlers.eraseP _ = _
        rw [registered.transport]
        refine (filterMap_erase (fun n => ?_)).symm
        have apart : NS_JINGLE_TRANSPORT_SOCKS5 ≠ NS_JINGLE_TRANSPORT_IBB := by decide +kernel
        cases n with
        | jingle => simp [McabberModule.transportEntry]
        | user m => cases m <;> simp [McabberModule.transportEntry, apart]
  | socks5 =>
      constructor
      · rw [filterMap_erase_of_none rfl]
        exact registered.app
      · change s.transportHandlers.eraseP _ = _
        rw [registered.transport]
        refine (filterMap_erase (fun n => ?_)).symm
        have apart : NS_JINGLE_TRANSPORT_IBB ≠ NS_JINGLE_TRANSPORT_SOCKS5 := by decide +kernel
        cases n with
        | jingle => simp [McabberModule.transportEntry]
        | user m => cases m <;> simp [McabberModule.transportEntry, apart]

/-- A module's tables are registered while it is loaded. -/
theorem Registered.loaded_iff (registered : Registered s loaded) (m : JingleModule)
    : m.Loaded s ↔ .user m ∈ loaded := by
  cases m with
  | fileTransfer =>
      unfold JingleModule.Loaded AppRegistered
      rw [registered.app]
      constructor
      · rintro ⟨entry, member, _⟩
        obtain ⟨n, there, mapped⟩ := List.mem_filterMap.mp member
        cases n with
        | jingle => cases mapped
        | user m => cases m <;> first | exact there | cases mapped
      · exact fun there => ⟨_, List.mem_filterMap.mpr ⟨_, there, rfl⟩, rfl⟩
  | ibb =>
      unfold JingleModule.Loaded TransportRegistered
      rw [registered.transport]
      constructor
      · rintro ⟨entry, member, funcs⟩
        obtain ⟨n, there, mapped⟩ := List.mem_filterMap.mp member
        cases n with
        | jingle => cases mapped
        | user m => cases m <;> cases mapped <;> first | exact there | cases funcs
      · exact fun there => ⟨_, List.mem_filterMap.mpr ⟨_, there, rfl⟩, rfl⟩
  | socks5 =>
      unfold JingleModule.Loaded TransportRegistered
      rw [registered.transport]
      constructor
      · rintro ⟨entry, member, funcs⟩
        obtain ⟨n, there, mapped⟩ := List.mem_filterMap.mp member
        cases n with
        | jingle => cases mapped
        | user m => cases m <;> cases mapped <;> first | exact there | cases funcs
      · exact fun there => ⟨_, List.mem_filterMap.mpr ⟨_, there, rfl⟩, rfl⟩

end Registry

-----------------------------------------------------------------------------------------
-- Runs
-----------------------------------------------------------------------------------------

/-- Modules that come and go, and handle anything. -/
abbrev ModulesReach (env : Env) : State → Prop := ReachableWithModules env (fun _ _ => True)

theorem layout_withModules {s : State} (run : ModulesReach env s) : Layout s := by
  induction run with
  | start unloaded =>
      have reached : Reachable env _ := .start unloaded.toInitial
      exact layout_reached reached
  | step _ _ next ih =>
      cases next with
      | load m localIps absent => exact ih.init m localIps
      | unload m loaded =>
          cases m <;> exact ⟨ih.described, ih.carried, ih.apart, ih.within, ih.streams⟩
      | handle step => exact (step.frame ih).1

/-- What the handlers make of an IQ are turns of the modules. -/
theorem askAll_run {s s' : State} {w : World} {message : LmMessage} {asked : List IqModule}
    {result : LmHandlerResult} (run : ModulesReach env s)
    (ends : askAll env w message asked s = .done result s')
    : ModulesReach env s' ∧ SameModules s s' := by
  induction asked generalizing s with
  | nil =>
      cases ends
      exact ⟨run, rfl, rfl⟩
  | cons m rest ih =>
      obtain ⟨answer, s₁, handled, ends⟩ := of_bind_done ends
      have turn : ∃ input, Step env s (w, input) s₁ := by
        cases m with
        | jingle => exact ⟨.jingleIq message, trivial, (bind_done handled).trans rfl⟩
        | ibb => exact ⟨.ibbIq message, trivial, (bind_done handled).trans rfl⟩
      obtain ⟨input, turn⟩ := turn
      have run₁ : ModulesReach env s₁ := .step run trivial (.handle turn)
      have same := (turn.frame (layout_withModules run)).2
      cases answer with
      | removeMessage =>
          cases ends
          exact ⟨run₁, same⟩
      | allowMoreHandlers =>
          obtain ⟨run', same'⟩ := ih run₁ ends
          exact ⟨run', same'.1.trans same.1, same'.2.trans same.2⟩

/-- Every turn of mcabber is one that the modules can take, or several. -/
theorem ClientStep.acts (step : ClientStep env c input c') (run : ModulesReach env c.state)
    (registered : Registered c.state c.loaded)
    : ModulesReach env c'.state ∧ Registered c'.state c'.loaded := by
  obtain ⟨possible, _, loaded, acted⟩ := step
  rw [loaded]
  cases input with
  | connect => exact ⟨acted ▸ run, acted ▸ registered⟩
  | disconnect => exact ⟨acted ▸ run, acted ▸ registered⟩
  | hook name => exact ⟨acted ▸ run, acted ▸ registered⟩
  | load m localIps =>
      cases m with
      | jingle =>
          refine ⟨acted ▸ run, acted ▸ ⟨?_, ?_⟩⟩
          · simp [ClientInput.modules, registered.app, McabberModule.appEntry]
          · simp [ClientInput.modules, registered.transport, McabberModule.transportEntry]
      | user m =>
          have absent : ¬m.Loaded c.state :=
            fun there => possible.1 ((registered.loaded_iff m).mp there)
          refine ⟨acted ▸ .step run trivial (.load m localIps absent), ?_⟩
          exact acted ▸ registered.init m localIps
  | unload m =>
      cases m with
      | jingle =>
          refine ⟨acted ▸ run, acted ▸ ⟨?_, ?_⟩⟩
          · exact registered.app.trans (filterMap_erase_of_none rfl).symm
          · exact registered.transport.trans (filterMap_erase_of_none rfl).symm
      | user m =>
          have there : m.Loaded c.state := (registered.loaded_iff m).mpr possible.1
          exact ⟨acted ▸ .step run trivial (.unload m there), acted ▸ registered.uninit m⟩
  | receive w message =>
      obtain ⟨asked, result, _, ends⟩ := acted
      obtain ⟨run', same⟩ := askAll_run run ends
      exact ⟨run', registered.sameModules same⟩
  | handle input =>
      obtain ⟨_, turn⟩ := acted
      refine ⟨.step run trivial (.handle turn), ?_⟩
      exact registered.sameModules (turn.frame (layout_withModules run)).2

theorem Started.wired (started : Started c) : Wired c .start := by
  have registered : c.wiring.registered = [] := by rw [Wiring.registered, started.lconnection]; rfl
  refine ⟨⟨?_, ?_, ?_, ?_, ?_⟩, ⟨?_, ?_⟩, ?_, ?_, ?_⟩
  · rw [registered]
    exact started.refs
  · exact fun m known => by cases known
  · exact fun m p known => by cases known
  · intro p member
    rw [registered] at member
    cases member
  · exact fun m heard => by cases heard
  · intro name hid m
    rw [started.hooks]
    exact ⟨fun hook => (by cases hook), fun known => (by cases known.1)⟩
  · exact fun name m n known => by cases known
  · rw [started.lconnection]
    rfl
  · intro m
    rw [started.loaded]
    exact ⟨fun known => (by cases known), fun member => (by cases member)⟩
  · rw [started.loaded]
    exact List.nodup_nil

/-- What a run that got to this client promises about the next turn. -/
structure Heard (env : Env) (history : List (Client lm mc × ClientInput)) (c : Client lm mc)
    : Prop where
  /-- no handler is used that was freed -/
  safe : ∀ input : ClientInput, input.Possible c → ∃ wiring, input.wire c.wiring = .done () wiring
  /-- the references to a handler are those of the loaded modules and of the connection -/
  counted : Balanced (lm.refs c.wiring.lm)
    (c.wiring.owners (audience history).loaded ++ c.wiring.registered)
  /-- loudmouth asks the modules that listen, each once and no other, until one takes the IQ, and
  unless the IQ is for both modules it does not matter in which order -/
  asked : ∃ asked, c.wiring.asked = some asked ∧ asked.Nodup
    ∧ (∀ m, m ∈ asked ↔ (audience history).listening m = true)
    ∧ ∀ w message, ¬(message.isJingle = true ∧ message.isIbbData = true) →
      askAll env w message asked = respond env w message (audience history).listening
  /-- the registry has the loaded modules -/
  registered : Registered c.state c.loaded
  /-- nothing happened to the modules that they cannot do by themselves -/
  reached : ReachableWithModules env (fun _ _ => True) c.state

/-- Whatever mcabber does, and in whatever order, as long as loudmouth and mcabber's hooks do what
they document.
-/
theorem iqs_reach_listeners (env : Env) (doc : lm.Documented) (mdoc : mc.Documented)
    {history : List (Client lm mc × ClientInput)} {c : Client lm mc}
    (run : Trace Started (ClientStep env) history c)
    : Heard env history c := by
  have kept : Wired c (audience history) ∧ Registered c.state c.loaded
      ∧ ModulesReach env c.state := by
    induction run with
    | @start c started =>
        refine ⟨started.wired, ⟨?_, ?_⟩, .start started.state⟩
        · rw [started.loaded, started.state.appHandlers]
          rfl
        · rw [started.loaded, started.state.transportHandlers]
          rfl
    | @step history c c' input run next ih =>
        obtain ⟨wired, registered, reached⟩ := ih
        obtain ⟨wiring, ran, kept⟩ := wired.wire doc mdoc next.possible
        have same : c'.wiring = wiring := by
          have both := next.wired.symm.trans ran
          cases both
          rfl
        obtain ⟨reached, registered⟩ := next.acts reached registered
        rw [audience_append]
        exact ⟨kept c' same next.loaded, registered, reached⟩
  obtain ⟨wired, registered, reached⟩ := kept
  obtain ⟨asked, known, nodup, listeners⟩ := wired.handled.asked
  refine ⟨fun input possible => ?_, wired.handled.balanced, ⟨asked, known, nodup, listeners, ?_⟩,
    registered, reached⟩
  · obtain ⟨wiring, ran, _⟩ := wired.wire doc mdoc possible
    exact ⟨wiring, ran⟩
  · exact fun w message one => askAll_eq_respond nodup listeners one

-----------------------------------------------------------------------------------------
-- A loudmouth and an mcabber that do what they document
-----------------------------------------------------------------------------------------

/-- The handlers, and those that the connection has registered. -/
structure PlainLm where
  heap : Pool (Counted LmMessageHandler)
  connection : Option (List HandlerPtr)

/-- The first entry for the handler goes, and its reference. -/
def PlainLm.unregister (p : HandlerPtr) (s : PlainLm) : PlainLm :=
  if p ∈ s.connection.getD [] then
    { heap := s.heap.unref p, connection := s.connection.map (fun all => all.erase p) }
  else
    s

/-- The newest handler first. -/
def plainLoudmouth : Loudmouth where
  Lm := PlainLm
  refs s := s.heap.refsOf
  handler s := s.heap.valueAt
  connection := PlainLm.connection
  messageHandlerNew m s :=
    (s.heap.next, { s with heap := s.heap.make { function := m, valid := true } })
  messageHandlerInvalidate p s :=
    { s with heap := s.heap.update p (fun h => { h with valid := false }) }
  messageHandlerUnref p s := { s with heap := s.heap.unref p }
  connectionNew s := { s with connection := some [] }
  connectionUnref s :=
    { heap := (s.connection.getD []).foldl Pool.unref s.heap, connection := none }
  registerMessageHandler p s :=
    { heap := s.heap.ref p, connection := s.connection.map (fun all => p :: all) }
  unregisterMessageHandler := PlainLm.unregister

theorem plainLm_unregister {p : HandlerPtr} {s : PlainLm} {all : List HandlerPtr}
    (connected : s.connection = some all)
    : plainLoudmouth.Leaves (s.unregister p)
        (fun q => s.heap.refsOf q - if p ∈ all ∧ q = p then 1 else 0) s.heap.valueAt
        (some (all.erase p)) := by
  unfold PlainLm.unregister
  rw [connected, Option.getD_some]
  by_cases member : p ∈ all
  · rw [if_pos member]
    refine ⟨fun q => (Pool.refsOf_unref s.heap p q).trans ?_, fun _ => Pool.valueAt_unref, rfl⟩
    simp [member]
  · rw [if_neg member, List.erase_of_not_mem member]
    exact ⟨fun q => by simp [member]; rfl, fun _ _ => rfl, connected⟩

theorem plainLoudmouth_documented : plainLoudmouth.Documented where
  messageHandlerNew m s := by
    refine ⟨Pool.refsOf_next s.heap, Pool.refsOf_make s.heap _, fun q _ => ?_, rfl⟩
    change (s.heap.make { function := m, valid := true }).valueAt q
      = Function.update s.heap.valueAt s.heap.next _ q
    by_cases here : q = s.heap.next
    · rw [here, Function.update_self, Pool.valueAt_make_self]
    · rw [Function.update_of_ne here, Pool.valueAt_make_of_ne _ here]
  messageHandlerInvalidate p s _ := by
    refine ⟨fun q => Pool.refsOf_update s.heap p q _, fun q _ => ?_, rfl⟩
    change (s.heap.update p _).valueAt q = Function.update s.heap.valueAt p _ q
    by_cases here : q = p
    · rw [here, Function.update_self, Pool.valueAt_update_self]
      rfl
    · rw [Function.update_of_ne here, Pool.valueAt_update_of_ne _ here]
  messageHandlerUnref p s _ :=
    ⟨Pool.refsOf_unref s.heap p, fun _ => Pool.valueAt_unref, rfl⟩
  connectionNew s _ := ⟨fun _ => rfl, fun _ _ => rfl, rfl⟩
  connectionUnref s := ⟨Pool.refsOf_unrefAll s.heap _, fun _ => Pool.valueAt_unrefAll, rfl⟩
  registerMessageHandler p s all there connected := by
    have live : s.heap.Live p := by
      unfold Pool.Live
      cases found : s.heap.get? p with
      | some object => rfl
      | none =>
          have none_ : s.heap.refsOf p = 0 := by simp [Pool.refsOf, found]
          exact absurd there (Nat.not_lt.mpr (Nat.le_of_eq none_))
    refine ⟨p :: all, .rfl, Pool.refsOf_ref live, fun q _ => Pool.valueAt_ref s.heap p q, ?_⟩
    exact congrArg (Option.map (fun all => p :: all)) connected
  unregisterMessageHandler p s all connected := plainLm_unregister connected

/-- The oldest handler first, with ids of its own for each hook. -/
def plainMcabber : Mcabber where
  Hooks := HookName → Pool IqModule
  handlers s name := (s name).cells
  hkAddHandler m name s := ((s name).next, Function.update s name ((s name).alloc m))
  hkDelHandler name hid s := Function.update s name ((s name).erase hid)

theorem cells_update (hooks : HookName → Pool IqModule) (name : HookName) (pool : Pool IqModule)
    : (Function.update hooks name pool name).cells = pool.cells :=
  congrArg Pool.cells (Function.update_self name pool hooks)

theorem plainMcabber_documented : plainMcabber.Documented where
  hkAddHandler m name s := by
    refine ⟨fun cell member => Nat.ne_of_lt ((s name).below cell member), ?_, fun other apart => ?_⟩
    · exact (List.Perm.of_eq (cells_update s name _)).trans (List.perm_append_singleton _ _)
    · exact congrArg Pool.cells (Function.update_of_ne apart _ _)
  hkDelHandler name hid s := by
    refine ⟨?_, fun other apart => congrArg Pool.cells (Function.update_of_ne apart _ _)⟩
    exact (cells_update s name _).trans
      (List.filter_congr (fun cell _ => Bool.eq_iff_iff.mpr (by simp)))

/-- mcabber when it starts. -/
def newClient : Client plainLoudmouth plainMcabber where
  wiring := {
    lm := { heap := .empty 0, connection := none }
    hooks := fun _ => .empty 0
    iqHandler := fun _ => none
    connectHid := fun _ => 0
    disconnHid := fun _ => 0
  }
  loaded := []
  state := blank

/-- The client after an input, with this state of the modules. -/
def Client.after (c : Client lm mc) (input : ClientInput) (state : State) : Client lm mc where
  wiring := (input.wire c.wiring).state
  loaded := input.modules c.loaded
  state := state

theorem Wired.after (doc : lm.Documented) (mdoc : mc.Documented) (env : Env) (wired : Wired c a)
    (input : ClientInput) (s' : State) (possible : input.Possible c) (acted : input.Acts env c s')
    : ClientStep env c input (c.after input s') ∧ Wired (c.after input s') (a.next input) := by
  obtain ⟨wiring, ran, kept⟩ := wired.wire doc mdoc possible
  have same : (c.after input s').wiring = wiring := by rw [Client.after, ran]; rfl
  exact ⟨⟨possible, ran.trans (by rw [same]), rfl, acted⟩, kept _ same rfl⟩

/-- mcabber connects before it loads the modules, and unloads one while it is connected. -/
theorem iqs_reach_listeners_ibbUnloaded
    : ∃ (history : List (Client plainLoudmouth plainMcabber × ClientInput)) (c : _),
        Trace Started (ClientStep plainEnv) history c
        ∧ (audience history).listening .jingle = true ∧ c.wiring.registered.length = 2
        ∧ Heard plainEnv history c := by
  have doc := plainLoudmouth_documented
  have mdoc := plainMcabber_documented
  let s₃ := JingleModule.ibb.init [] blank
  have unloaded : Unloaded blank :=
    { loaded_initial with appHandlers := rfl, transportHandlers := rfl }
  have started : Started newClient := ⟨fun _ => rfl, rfl, fun _ => rfl, rfl, unloaded⟩
  obtain ⟨connect, wired₁⟩ := started.wired.after doc mdoc plainEnv .connect blank rfl rfl
  obtain ⟨jingle, wired₂⟩ := wired₁.after doc mdoc plainEnv (.load .jingle []) blank
    (And.intro (by decide) (by decide)) rfl
  obtain ⟨ibb, wired₃⟩ := wired₂.after doc mdoc plainEnv (.load (.user .ibb) []) s₃
    (And.intro (by decide) (by decide)) rfl
  obtain ⟨hook, wired₄⟩ := wired₃.after doc mdoc plainEnv (.hook .postConnect) s₃ trivial rfl
  obtain ⟨unload, _⟩ := wired₄.after doc mdoc plainEnv (.unload (.user .ibb))
    (JingleModule.ibb.uninit s₃) (And.intro (by decide) (by decide)) rfl
  have run := (((((Trace.start started).step connect).step jingle).step ibb).step hook).step unload
  exact ⟨_, _, run, rfl, by decide +kernel, iqs_reach_listeners plainEnv doc mdoc run⟩

end McabberJingle
