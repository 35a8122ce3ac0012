import McabberJingle.Program.RefCounts
import McabberJingle.System.Modules

/-! The modules inside mcabber: it loads and unloads them, connects and disconnects, and loudmouth
asks the handlers they have registered about every IQ.
-/

namespace McabberJingle

open Program Program.Prog

-----------------------------------------------------------------------------------------
-- Handlers and hooks
-----------------------------------------------------------------------------------------

abbrev HandlerPtr := Nat

/-- The modules that handle IQs. -/
inductive IqModule where
  | jingle | ibb
  deriving DecidableEq

/-- An `LmMessageHandler`: whose function it calls, and whether it still does. -/
structure LmMessageHandler where
  function : IqModule
  valid : Bool

/-- `HOOK_POST_CONNECT` and `HOOK_PRE_DISCONNECT`. -/
inductive HookName where
  | postConnect | preDisconnect
  deriving DecidableEq

/-- The part of loudmouth that mcabber and the modules use: its state `Lm`, in which there are the
references to each handler, the handler behind an address, and the handlers that the connection, if
there is one, has registered for IQs, in the order in which it asks them.
-/
structure Loudmouth where
  Lm : Type
  refs : Lm → HandlerPtr → Nat
  handler : Lm → HandlerPtr → Option LmMessageHandler
  connection : Lm → Option (List HandlerPtr)
  messageHandlerNew : IqModule → Lm → HandlerPtr × Lm
  messageHandlerInvalidate : HandlerPtr → Lm → Lm
  messageHandlerUnref : HandlerPtr → Lm → Lm
  connectionNew : Lm → Lm
  connectionUnref : Lm → Lm
  registerMessageHandler : HandlerPtr → Lm → Lm
  unregisterMessageHandler : HandlerPtr → Lm → Lm

/-- What an operation of loudmouth leaves. Nothing is known of a handler without references, which
is freed.
-/
structure Loudmouth.Leaves (lm : Loudmouth) (s' : lm.Lm) (refs : HandlerPtr → Nat)
    (handler : HandlerPtr → Option LmMessageHandler) (connection : Option (List HandlerPtr))
    : Prop where
  refs : ∀ q, lm.refs s' q = refs q
  handler : ∀ q, 0 < lm.refs s' q → lm.handler s' q = handler q
  connection : lm.connection s' = connection

/-- What loudmouth documents. Handlers are counted: who makes one holds it, a connection holds those
that are registered with it, each as often as it was registered.
-/
structure Loudmouth.Documented (lm : Loudmouth) : Prop where
  messageHandlerNew : ∀ m s, lm.refs s (lm.messageHandlerNew m s).1 = 0
    ∧ lm.Leaves (lm.messageHandlerNew m s).2
        (fun q => lm.refs s q + if q = (lm.messageHandlerNew m s).1 then 1 else 0)
        (Function.update (lm.handler s) (lm.messageHandlerNew m s).1
          (some { function := m, valid := true }))
        (lm.connection s)
  messageHandlerInvalidate : ∀ p s, 0 < lm.refs s p →
    lm.Leaves (lm.messageHandlerInvalidate p s) (lm.refs s)
      (Function.update (lm.handler s) p ((lm.handler s p).map (fun h => { h with valid := false })))
      (lm.connection s)
  messageHandlerUnref : ∀ p s, 0 < lm.refs s p →
    lm.Leaves (lm.messageHandlerUnref p s) (fun q => lm.refs s q - if q = p then 1 else 0)
      (lm.handler s) (lm.connection s)
  connectionNew : ∀ s, lm.connection s = none →
    lm.Leaves (lm.connectionNew s) (lm.refs s) (lm.handler s) (some [])
  connectionUnref : ∀ s, lm.Leaves (lm.connectionUnref s)
    (fun q => lm.refs s q - ((lm.connection s).getD []).count q) (lm.handler s) none
  registerMessageHandler : ∀ p s all, 0 < lm.refs s p → lm.connection s = some all →
    ∃ all', all'.Perm (p :: all)
      ∧ lm.Leaves (lm.registerMessageHandler p s)
          (fun q => lm.refs s q + if q = p then 1 else 0) (lm.handler s) (some all')
  unregisterMessageHandler : ∀ p s all, lm.connection s = some all →
    lm.Leaves (lm.unregisterMessageHandler p s)
      (fun q => lm.refs s q - if p ∈ all ∧ q = p then 1 else 0) (lm.handler s) (some (all.erase p))

/-- The part of mcabber that the modules use: the handlers of each hook with their ids, in the order
in which `hk_run_handlers` calls them.
-/
structure Mcabber where
  Hooks : Type
  handlers : Hooks → HookName → List (Nat × IqModule)
  hkAddHandler : IqModule → HookName → Hooks → Nat × Hooks
  hkDelHandler : HookName → Nat → Hooks → Hooks

/-- A handler gets an id that no other one of its hook has, and goes by that id. -/
structure Mcabber.Documented (mc : Mcabber) : Prop where
  hkAddHandler : ∀ m name s, (∀ cell ∈ mc.handlers s name, cell.1 ≠ (mc.hkAddHandler m name s).1)
    ∧ (mc.handlers (mc.hkAddHandler m name s).2 name).Perm
        (((mc.hkAddHandler m name s).1, m) :: mc.handlers s name)
    ∧ ∀ other, other ≠ name → mc.handlers (mc.hkAddHandler m name s).2 other = mc.handlers s other
  hkDelHandler : ∀ name hid s, mc.handlers (mc.hkDelHandler name hid s) name
      = (mc.handlers s name).filter (fun cell => cell.1 ≠ hid)
    ∧ ∀ other, other ≠ name → mc.handlers (mc.hkDelHandler name hid s) other = mc.handlers s other

/-- Loudmouth, mcabber's hooks, and the static variables of the modules that refer to them. -/
structure Wiring (lm : Loudmouth) (mc : Mcabber) where
  lm : lm.Lm
  hooks : mc.Hooks
  iqHandler : IqModule → Option HandlerPtr
  connectHid : IqModule → Nat
  disconnHid : IqModule → Nat

section Calls

variable {lm : Loudmouth} {mc : Mcabber}

/-- `lconnection`, as the list of what is registered with it. -/
def Wiring.lconnection (s : Wiring lm mc) : Option (List HandlerPtr) := lm.connection s.lm

def Wiring.registered (s : Wiring lm mc) : List HandlerPtr := s.lconnection.getD []

/-- The code reads a null pointer or a handler that was freed. -/
inductive WiringFault where
  | badHandler

abbrev Wire (lm : Loudmouth) (mc : Mcabber) (α : Type) := Prog WiringFault (Wiring lm mc) α

/-- The handler must be there. -/
def handlerAt (handler : Option HandlerPtr) : Wire lm mc HandlerPtr := do
  match handler with
  | none => fail .badHandler
  | some p =>
      if lm.refs (← get).lm p = 0 then
        fail .badHandler
      else
        pure p

/-- A call of loudmouth. -/
def call (f : lm.Lm → lm.Lm) : Wire lm mc Unit := modify (fun s => { s with lm := f s.lm })

def lmMessageHandlerNew (m : IqModule) : Wire lm mc HandlerPtr := do
  let (p, called) := lm.messageHandlerNew m (← get).lm
  modify (fun s => { s with lm := called })
  pure p

def lmMessageHandlerInvalidate (handler : Option HandlerPtr) : Wire lm mc Unit := do
  call (lm.messageHandlerInvalidate (← handlerAt handler))

def lmMessageHandlerUnref (handler : Option HandlerPtr) : Wire lm mc Unit := do
  call (lm.messageHandlerUnref (← handlerAt handler))

/-- `lm_connection_register_message_handler` for IQs. -/
def lmConnectionRegister (handler : Option HandlerPtr) : Wire lm mc Unit := do
  call (lm.registerMessageHandler (← handlerAt handler))

/-- `lm_connection_unregister_message_handler` for IQs. -/
def lmConnectionUnregister (handler : Option HandlerPtr) : Wire lm mc Unit := do
  call (lm.unregisterMessageHandler (← handlerAt handler))

def hkAddHandler (m : IqModule) (name : HookName) : Wire lm mc Nat := do
  let (hid, called) := mc.hkAddHandler m name (← get).hooks
  modify (fun s => { s with hooks := called })
  pure hid

def hkDelHandler (name : HookName) (hid : Nat) : Wire lm mc Unit :=
  modify (fun s => { s with hooks := mc.hkDelHandler name hid s.hooks })

-----------------------------------------------------------------------------------------
-- What the modules do with them
-----------------------------------------------------------------------------------------

/-- `jingle_unregister_lm_handlers` and `jingle_ibb_unregister_lm_handlers`. -/
def unregisterLmHandlers (m : IqModule) : Wire lm mc Unit := do
  let s ← get
  if s.lconnection.isSome then
    lmConnectionUnregister (s.iqHandler m)
  else
    pure ()

/-- `jingle_register_lm_handlers` and `jingle_ibb_register_lm_handlers`. -/
def registerLmHandlers (m : IqModule) : Wire lm mc Unit := do
  unregisterLmHandlers m
  let s ← get
  if s.lconnection.isSome then
    lmConnectionRegister (s.iqHandler m)
  else
    pure ()

/-- `jingle_connect_hh`, `jingle_disconn_hh`, `jingle_ibb_connect_hh`, `jingle_ibb_disconn_hh`. -/
def hookHandler (m : IqModule) : HookName → Wire lm mc Unit
  | .postConnect => registerLmHandlers m
  | .preDisconnect => unregisterLmHandlers m

/-- `hk_run_handlers` calls one after another. -/
def callHandlers (name : HookName) : List (Nat × IqModule) → Wire lm mc Unit
  | [] => pure ()
  | (_, m) :: rest => do
      hookHandler m name
      callHandlers name rest

def hkRunHandlers (name : HookName) : Wire lm mc Unit := do
  callHandlers name (mc.handlers (← get).hooks name)

/-- What `jingle_init` and `jingle_ibb_init` do for IQs. -/
def initHandlers (m : IqModule) : Wire lm mc Unit := do
  let handler ← lmMessageHandlerNew m
  modify (fun s => { s with iqHandler := Function.update s.iqHandler m (some handler) })
  let connect ← hkAddHandler m .postConnect
  modify (fun s => { s with connectHid := Function.update s.connectHid m connect })
  let disconn ← hkAddHandler m .preDisconnect
  modify (fun s => { s with disconnHid := Function.update s.disconnHid m disconn })
  registerLmHandlers m

/-- What `jingle_uninit` does about IQs. -/
def jingleUninit : Wire lm mc Unit := do
  hkDelHandler .postConnect ((← get).connectHid .jingle)
  hkDelHandler .preDisconnect ((← get).disconnHid .jingle)
  unregisterLmHandlers .jingle
  lmMessageHandlerInvalidate ((← get).iqHandler .jingle)
  lmMessageHandlerUnref ((← get).iqHandler .jingle)

/-- What `jingle_ibb_uninit` does about IQs: the handler stays registered. -/
def jingleIbbUninit : Wire lm mc Unit := do
  lmMessageHandlerInvalidate ((← get).iqHandler .ibb)
  hkDelHandler .postConnect ((← get).connectHid .ibb)
  hkDelHandler .preDisconnect ((← get).disconnHid .ibb)
  lmMessageHandlerUnref ((← get).iqHandler .ibb)

-----------------------------------------------------------------------------------------
-- Asking the handlers
-----------------------------------------------------------------------------------------

/-- The functions that are called for an IQ, until one of them takes it; none when a freed handler
is read.
-/
def Wiring.asked (s : Wiring lm mc) : Option (List IqModule) :=
  (s.registered.mapM (fun p => if lm.refs s.lm p = 0 then none else lm.handler s.lm p)).map
    (fun handlers => (handlers.filter LmMessageHandler.valid).map LmMessageHandler.function)

end Calls

/-- `jingle_handle_iq` or `jingle_ibb_handle_iq`. -/
def IqModule.handleIq (env : Env) (w : World) (message : LmMessage) : IqModule → Run LmHandlerResult
  | .jingle => jingleHandleIq env w message
  | .ibb => jingleIbbHandleIq env w message

/-- Loudmouth asks one after another. -/
def askAll (env : Env) (w : World) (message : LmMessage) : List IqModule → Run LmHandlerResult
  | [] => pure .allowMoreHandlers
  | m :: rest => do
      match ← m.handleIq env w message with
      | .removeMessage => pure .removeMessage
      | .allowMoreHandlers => askAll env w message rest

-----------------------------------------------------------------------------------------
-- The machine
-----------------------------------------------------------------------------------------

/-- The modules that mcabber loads. -/
inductive McabberModule where
  | jingle
  | user (m : JingleModule)
  deriving DecidableEq

/-- `requires` of the module's `module_info_t`. -/
def McabberModule.requires : McabberModule → List McabberModule
  | .jingle => []
  | .user _ => [.jingle]

/-- The handler that the module has for IQs. -/
def McabberModule.iqModule : McabberModule → Option IqModule
  | .jingle => some .jingle
  | .user .ibb => some .ibb
  | .user _ => none

/-- mcabber with what it has loaded, oldest first. -/
structure Client (lm : Loudmouth) (mc : Mcabber) where
  wiring : Wiring lm mc
  loaded : List McabberModule
  state : State

/-- What mcabber and loudmouth do next. -/
inductive ClientInput where
  | connect
  | disconnect
  /-- the handlers of a hook run -/
  | hook (name : HookName)
  | load (m : McabberModule) (localIps : List LocalIP)
  | unload (m : McabberModule)
  /-- an IQ arrives -/
  | receive (w : World) (message : LmMessage)
  /-- any other input of the modules -/
  | handle (input : StepInput)

section Turns

variable {lm : Loudmouth} {mc : Mcabber}

/-- mcabber keeps one connection, and loads and unloads modules with respect to `requires`. -/
def ClientInput.Possible (c : Client lm mc) : ClientInput → Prop
  | .connect => c.wiring.lconnection = none
  | .load m _ => m ∉ c.loaded ∧ ∀ n ∈ m.requires, n ∈ c.loaded
  | .unload m => m ∈ c.loaded ∧ ∀ n ∈ c.loaded, m ∉ n.requires
  | _ => True

/-- What an input does with handlers and hooks. -/
def ClientInput.wire : ClientInput → Wire lm mc Unit
  | .connect => call lm.connectionNew
  | .disconnect => call lm.connectionUnref
  | .hook name => hkRunHandlers name
  | .load .jingle _ => initHandlers .jingle
  | .load (.user .ibb) _ => initHandlers .ibb
  | .unload .jingle => jingleUninit
  | .unload (.user .ibb) => jingleIbbUninit
  | _ => pure ()

/-- What an input does with the list of modules. -/
def ClientInput.modules : ClientInput → List McabberModule → List McabberModule
  | .load m _, loaded => loaded ++ [m]
  | .unload m, loaded => loaded.erase m
  | _, loaded => loaded

/-- What an input does in the modules. -/
def ClientInput.Acts (env : Env) (c : Client lm mc) : ClientInput → State → Prop
  | .load (.user m) localIps, s' => s' = m.init localIps c.state
  | .unload (.user m), s' => s' = m.uninit c.state
  | .receive w message, s' =>
      ∃ asked result, c.wiring.asked = some asked
        ∧ askAll env w message asked c.state = .done result s'
  | .handle input, s' =>
      (∀ message, input.2 ≠ .jingleIq message ∧ input.2 ≠ .ibbIq message)
        ∧ Step env c.state input s'
  | _, s' => s' = c.state

/-- One turn of mcabber. -/
structure ClientStep (env : Env) (c : Client lm mc) (input : ClientInput) (c' : Client lm mc)
    : Prop where
  possible : input.Possible c
  wired : input.wire c.wiring = .done () c'.wiring
  loaded : c'.loaded = input.modules c.loaded
  acted : input.Acts env c c'.state

/-- mcabber has just started. -/
structure Started (c : Client lm mc) : Prop where
  refs : ∀ p, lm.refs c.wiring.lm p = 0
  lconnection : c.wiring.lconnection = none
  hooks : ∀ name, mc.handlers c.wiring.hooks name = []
  loaded : c.loaded = []
  state : Unloaded c.state

end Turns

end McabberJingle
