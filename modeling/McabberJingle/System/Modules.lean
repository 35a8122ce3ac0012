import McabberJingle.System.Execution

/-! Loading and unloading the modules between the turns of the main loop. -/

namespace McabberJingle

open Program

-----------------------------------------------------------------------------------------
-- The modules
-----------------------------------------------------------------------------------------

/-- The modules that register a function table. -/
inductive JingleModule where
  | fileTransfer | ibb | socks5
  deriving DecidableEq

/-- `jingle_ft_init`, `jingle_ibb_init` and `jingle_socks5_init`; `localIps` is what
`get_all_local_ips` finds.
-/
def JingleModule.init (localIps : List LocalIP) : JingleModule → State → State
  | .fileTransfer, s => jingleRegisterApp NS_JINGLE_APP_FT .fileTransfer .streaming s
  | .ibb, s =>
      { jingleRegisterTransport NS_JINGLE_TRANSPORT_IBB .ibb .streaming
          JINGLE_TRANSPORT_PRIO_LOW s with
        jingleIBBs := [] }
  | .socks5, s =>
      { jingleRegisterTransport NS_JINGLE_TRANSPORT_SOCKS5 .s5b .streaming
          JINGLE_TRANSPORT_PRIO_HIGH s with
        localIps }

@[simp]
theorem JingleModule.init_sessions (localIps : List LocalIP) (m : JingleModule) (s : State)
    : (m.init localIps s).sessions = s.sessions := by
  cases m <;> simp only [init, jingleRegisterApp, jingleRegisterTransport] <;> split <;> rfl

/-- `jingle_ft_uninit`, `jingle_ibb_uninit` and `jingle_socks5_uninit`. The first frees the
nodes of `info_list`, not the transfers.
-/
def JingleModule.uninit : JingleModule → State → State
  | .fileTransfer, s => jingleUnregisterApp NS_JINGLE_APP_FT s
  | .ibb, s => jingleUnregisterTransport NS_JINGLE_TRANSPORT_IBB s
  | .socks5, s => { jingleUnregisterTransport NS_JINGLE_TRANSPORT_SOCKS5 s with localIps := [] }

@[simp]
theorem JingleModule.uninit_sessions (m : JingleModule) (s : State)
    : (m.uninit s).sessions = s.sessions := by
  cases m <;> rfl

/-- The application table is registered. -/
def AppRegistered (s : State) (appfuncs : JingleAppFuncs) : Prop :=
  ∃ entry ∈ s.appHandlers, entry.funcs = appfuncs

/-- The transport table is registered. -/
def TransportRegistered (s : State) (transfuncs : JingleTransportFuncs) : Prop :=
  ∃ entry ∈ s.transportHandlers, entry.funcs = transfuncs

instance (s : State) (appfuncs : JingleAppFuncs) : Decidable (AppRegistered s appfuncs) := by
  unfold AppRegistered
  infer_instance

instance (s : State) (transfuncs : JingleTransportFuncs)
    : Decidable (TransportRegistered s transfuncs) := by
  unfold TransportRegistered
  infer_instance

/-- Whether the module's table is registered. -/
def JingleModule.Loaded (s : State) : JingleModule → Prop
  | .fileTransfer => AppRegistered s .fileTransfer
  | .ibb => TransportRegistered s .ibb
  | .socks5 => TransportRegistered s .s5b

instance (m : JingleModule) (s : State) : Decidable (m.Loaded s) := by
  cases m <;> (unfold JingleModule.Loaded; infer_instance)

-----------------------------------------------------------------------------------------
-- The machine
-----------------------------------------------------------------------------------------

/-- What happens next: a module is loaded or unloaded, or an input is handled. -/
inductive ModuleInput where
  | load (m : JingleModule) (localIps : List LocalIP)
  | unload (m : JingleModule)
  | handle (input : StepInput)

/-- mcabber loads a module once, and unloads only loaded ones. -/
inductive ModuleStep (env : Env) (s : State) : ModuleInput → State → Prop
  | load (m : JingleModule) (localIps : List LocalIP) (absent : ¬m.Loaded s)
    : ModuleStep env s (.load m localIps) (m.init localIps s)
  | unload (m : JingleModule) (loaded : m.Loaded s)
    : ModuleStep env s (.unload m) (m.uninit s)
  | handle {input : StepInput} {s' : State} (step : Step env s input s')
    : ModuleStep env s (.handle input) s'

/-- Nothing allocated and no module loaded. -/
structure Unloaded (s : State) : Prop extends Initial s where
  appHandlers : s.appHandlers = []
  transportHandlers : s.transportHandlers = []

/-- States reached with modules coming and going, when every step meets `allowed`. -/
abbrev ReachableWithModules (env : Env) (allowed : State → ModuleInput → Prop) : State → Prop :=
  Reach Unloaded (ModuleStep env) allowed

/-- The state before any module is loaded. -/
def blank : State := { loaded with appHandlers := [], transportHandlers := [] }

/-- Loading file transfer and in-band bytestreams. -/
theorem loaded_reached_withModules (env : Env) {allowed : State → ModuleInput → Prop}
    (free : ∀ s m localIps, allowed s (.load m localIps))
    : ReachableWithModules env allowed loaded := by
  have app : NS_JINGLE_APP_FT.startsWith NS_JINGLE_APP_PREFIX = true := by decide +kernel
  have transport : NS_JINGLE_TRANSPORT_IBB.startsWith NS_JINGLE_TRANSPORT_PREFIX = true := by
    decide +kernel
  have unloaded : Unloaded blank :=
    { loaded_initial with appHandlers := rfl, transportHandlers := rfl }
  let s₁ := JingleModule.fileTransfer.init [] blank
  have absent : ¬JingleModule.fileTransfer.Loaded blank := by
    simp [JingleModule.Loaded, AppRegistered, blank]
  have absent' : ¬JingleModule.ibb.Loaded s₁ := by
    simp [JingleModule.Loaded, TransportRegistered, s₁, JingleModule.init, jingleRegisterApp, app,
      blank]
  have both : JingleModule.ibb.init [] s₁ = loaded := by
    simp only [s₁, JingleModule.init, jingleRegisterApp, jingleRegisterTransport, app, transport,
      if_true]
    rfl
  have first : ReachableWithModules env allowed s₁ :=
    .step (.start unloaded) (free _ _ _) (.load .fileTransfer [] absent)
  exact both ▸ .step first (free _ _ _) (.load .ibb [] absent')

/-- The turns of the main loop can be executed between loading and unloading. -/
theorem execute_withModules {env : Env} {allowed : State → ModuleInput → Prop}
    [∀ s input, Decidable (allowed s (.handle input))] {s s' : State} {inputs : List StepInput}
    (run : ReachableWithModules env allowed s)
    (ends : execute env (fun s input => allowed s (.handle input)) s inputs = some s')
    : ReachableWithModules env allowed s' :=
  execute_keeps (fun _ _ _ run ok step => .step run ok (.handle step)) run ends

end McabberJingle
