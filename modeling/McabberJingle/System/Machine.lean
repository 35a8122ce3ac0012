import McabberJingle.Program.Runs
import McabberJingle.Jingle.Dispatch

/-! The modules as one machine: the main loop hands them stanzas, replies, timer ticks, the
user's answers and commands, one at a time, and each is handled to its end.
-/

namespace McabberJingle

open Program

/-- What the main loop can hand to the modules. -/
inductive Input where
  /-- an IQ reaches `jingle_handle_iq` -/
  | jingleIq (message : LmMessage)
  /-- an IQ reaches `jingle_ibb_handle_iq` -/
  | ibbIq (message : LmMessage)
  /-- loudmouth finds the handler it kept for a reply -/
  | reply (ah : AckPtr) (message : LmMessage)
  /-- the timer of the timeout checker fires -/
  | tick
  /-- time passes -/
  | wait (seconds : Nat)
  /-- mcabber calls back for a pending event -/
  | event (id : Nat) (context : EvsContext)
  /-- a transport reports on a `session_content` its `init` was given -/
  | transportInitialize (correct : Bool) (sc : SessionContentRef)
  /-- the commands `/jft send`, `/jft retry` and `/jft flush` -/
  | jftSend (arg : Option String)
  | jftRetry (arg : Option String)
  | jftFlush

/-- A step's input together with what its surroundings answer. -/
abbrev StepInput := World × Input

/-- Whether the main loop can hand over this input now. -/
def Enabled (s : State) : Input → Prop
  | .reply ah _ => ah ∈ s.idHandlers
  | .event id _ => (s.events.get? id).isSome
  | .transportInitialize _ sc =>
      ((s.sessions.get? sc.owner).bind (fun js => sessionFindSessioncontent js sc.name)).any
        (fun content => content.state == .active)
  | _ => True

instance (s : State) (input : Input) : Decidable (Enabled s input) := by
  cases input <;> unfold Enabled <;> infer_instance

variable (env : Env)

/-- Handle one input to its end. -/
def handleInput (w : World) : Input → Run Unit
  | .jingleIq message => do
      let _ ← jingleHandleIq env w message
  | .ibbIq message => do
      let _ ← jingleIbbHandleIq env w message
  | .reply ah message => jingleHandleAckIq env w ah message
  | .tick => jingleAckTimeoutChecker env w
  | .wait seconds => Prog.modify (fun s => { s with clock := s.clock + seconds })
  | .event id context => do
      let js ← alive .session ((← Prog.get).events.get? id)
      evscallbackJingle env context js
      Prog.modify (fun s => { s with events := s.events.erase id })
  | .transportInitialize correct sc => handleTransportInitialize env w correct sc
  | .jftSend arg => jftSend env w arg
  | .jftRetry arg => jftRetry env w arg
  | .jftFlush => jftFlush

/-- One turn of the main loop: control comes back to it. -/
def Step (s : State) (input : StepInput) (s' : State) : Prop :=
  Enabled s input.2 ∧ handleInput env input.1 input.2 s = .done () s'

/-- The modules just loaded: nothing allocated, any modules registered. -/
structure Initial (s : State) : Prop where
  sessions : s.sessions = .empty 0
  infoList : s.infoList = .empty 1
  transports : s.transports = .empty 0
  jingleIBBs : s.jingleIBBs = []
  ackHandlers : s.ackHandlers = .empty 0
  idHandlers : s.idHandlers = []
  events : s.events = .empty 0
  sent : s.sent = []
  disk : s.disk = []
  accepted : s.accepted = []
  closedByPeer : s.closedByPeer = []
  fired : s.fired = []
  packets : s.packets = []

/-- States reached when every step meets `allowed` where it starts. -/
abbrev ReachableBy (allowed : State → StepInput → Prop) : State → Prop :=
  Reach Initial (Step env) allowed

/-- All states the modules can reach. -/
abbrev Reachable : State → Prop := ReachableBy env (fun _ _ => True)

end McabberJingle
