import McabberJingle.Jingle.Access

/-! register.c: the lists of application and transport modules, and the choice of a
transport for an application.
-/

namespace McabberJingle

open Program

-----------------------------------------------------------------------------------------
-- Registering
-----------------------------------------------------------------------------------------

def jingleRegisterApp (xmlns : String) (funcs : JingleAppFuncs) (type : JingleTransportType)
    (s : State)
    : State :=
  if xmlns.startsWith NS_JINGLE_APP_PREFIX then
    { s with appHandlers := s.appHandlers ++ [{ xmlns, funcs, transtype := type }] }
  else
    s

def jingleRegisterTransport (xmlns : String) (funcs : JingleTransportFuncs)
    (type : JingleTransportType) (prio : JingleTransportPriority) (s : State)
    : State :=
  if xmlns.startsWith NS_JINGLE_TRANSPORT_PREFIX then
    { s with
      transportHandlers :=
        s.transportHandlers ++ [{ xmlns, funcs, transtype := type, priority := prio }] }
  else
    s

/-- The first entry of the namespace is freed and unlinked. -/
def jingleUnregisterApp (xmlns : String) (s : State) : State :=
  { s with appHandlers := s.appHandlers.eraseP (fun entry => entry.xmlns == xmlns) }

def jingleUnregisterTransport (xmlns : String) (s : State) : State :=
  { s with
    transportHandlers := s.transportHandlers.eraseP (fun entry => entry.xmlns == xmlns) }

-----------------------------------------------------------------------------------------
-- Looking tables up
-----------------------------------------------------------------------------------------

/-- `g_slist_find_custom (jingle_app_handlers, xmlns, jingle_entry_cmp)`. -/
def jingleFindApp (s : State) (xmlns : Option String) : Option AppHandlerEntry :=
  s.appHandlers.find? (fun entry => some entry.xmlns == xmlns)

/-- `g_slist_find_custom (jingle_transport_handlers, xmlns, jingle_entry_cmp)`. -/
def jingleFindTransport (s : State) (xmlns : Option String)
    : Option TransportHandlerEntry :=
  s.transportHandlers.find? (fun entry => some entry.xmlns == xmlns)

def jingleGetAppfuncs (s : State) (xmlns : Option String) : Option JingleAppFuncs :=
  (jingleFindApp s xmlns).map AppHandlerEntry.funcs

def jingleGetTransportfuncs (s : State) (xmlns : Option String)
    : Option JingleTransportFuncs :=
  (jingleFindTransport s xmlns).map TransportHandlerEntry.funcs

/-- The loop of `jingle_transport_for_app`: a later entry wins only by a higher priority. -/
def bestTransport (requested : JingleTransportType) (forbid : List String)
    : List TransportHandlerEntry → JingleTransportPriority → Option TransportHandlerEntry
      → Option TransportHandlerEntry
  | [], _, best => best
  | entry :: rest, bestprio, best =>
      if forbid.contains entry.xmlns then
        bestTransport requested forbid rest bestprio best
      else if entry.transtype = requested ∧ entry.priority > bestprio then
        bestTransport requested forbid rest entry.priority (some entry)
      else
        bestTransport requested forbid rest bestprio best

/-- The namespace chosen for an application, and the caller's forbid list with it. -/
def jingleTransportForApp (appxmlns : String) (forbid : Option (List String))
    : Run (Option String × Option (List String)) := do
  let s ← Prog.get
  match jingleFindApp s (some appxmlns) with
  | none => pure (none, forbid)
  | some app =>
      let best := bestTransport app.transtype (forbid.getD []) s.transportHandlers 0 none
      match forbid with
      | none => pure (best.map TransportHandlerEntry.xmlns, none)
      | some list => do
          -- `besttransport->xmlns` is appended before it is known to be non-NULL
          let entry ← deref .transfuncs best
          pure (some entry.xmlns, some (list ++ [entry.xmlns]))

end McabberJingle
