import McabberJingle.Jingle.Types
import McabberJingle.Program.Outcome

/-! s5b.c: the end of `init`, and the callbacks that try one candidate of the peer after the
other.
-/

namespace McabberJingle.S5b

open Program Program.Prog

-----------------------------------------------------------------------------------------
-- Data
-----------------------------------------------------------------------------------------

/-- A pointer to a candidate of the peer: its position in the list. -/
abbrev CandPtr := Nat

abbrev ArgsPtr := Nat

abbrev GSocketConnection := Nat

abbrev GCancellable := Nat

/-- The `GError` of a connection attempt. -/
structure ConnectError where
  domain : String
  code : Nat
  deriving DecidableEq

def G_IO_ERROR : String := "g-io-error-quark"
def G_IO_ERROR_CANCELLED : Nat := 19

/-- What an operation ends with whose cancellable was cancelled. -/
def ConnectError.cancelled : ConnectError :=
  { domain := G_IO_ERROR, code := G_IO_ERROR_CANCELLED }

/-- `g_error_matches`; no error matches nothing. -/
def gErrorMatches (err : Option ConnectError) (domain : String) (code : Nat) : Bool :=
  err.any (fun err => err.domain == domain && err.code == code)

/-- The `GPtrArray` of an attempt, without the stream that all of them share. -/
structure ConnectArgs where
  refs : Nat
  cand : CandPtr
  eventid : Option Nat

/-- An attempt that has not ended. -/
structure ConnectOp where
  args : ArgsPtr
  cancellable : GCancellable

/-- The side of a `JingleS5B` that connects, with the sources of the main loop, the operations
that have not ended, and the candidates that were tried.
-/
structure Client where
  candidates : List S5BCandidate
  connection : Option GSocketConnection
  cancelconnect : Option GCancellable
  args : Pool ConnectArgs
  sources : List (Nat × ArgsPtr)
  nextSource : Nat
  cancelled : List GCancellable
  nextCancellable : GCancellable
  connecting : List ConnectOp
  attempts : List CandPtr

/-- Where the C code has no further meaning. -/
inductive ConnectFault where
  | nullLink | freedArgs | assertion
  deriving DecidableEq

abbrev ConnectRun (α : Type) := Prog ConnectFault Client α

/-- A stream with these candidates of the peer, before it is started. -/
def Client.new (candidates : List S5BCandidate) : Client where
  candidates := candidates
  connection := none
  cancelconnect := none
  args := .empty 0
  sources := []
  nextSource := 1
  cancelled := []
  nextCancellable := 0
  connecting := []
  attempts := []

-----------------------------------------------------------------------------------------
-- GPtrArray
-----------------------------------------------------------------------------------------

/-- `g_ptr_array_index`. -/
def readArgs (args : ArgsPtr) : ConnectRun ConnectArgs := do
  match (← Prog.get).args.get? args with
  | none => Prog.fail .freedArgs
  | some array => pure array

/-- `g_ptr_array_unref`. -/
def unrefArgs (args : ArgsPtr) : ConnectRun Unit := do
  let array ← readArgs args
  if array.refs ≤ 1 then
    Prog.modify (fun s => { s with args := s.args.erase args })
  else
    Prog.modify (fun s =>
      { s with args := s.args.modify args (fun array => { array with refs := array.refs - 1 }) })

-----------------------------------------------------------------------------------------
-- One attempt
-----------------------------------------------------------------------------------------

/-- `connect_cancel_timeout`. -/
def connectCancelTimeout (args : ArgsPtr) : ConnectRun Unit := do
  let _ ← readArgs args
  unrefArgs args
  Prog.modify (fun s => { s with cancelled := s.cancelled ++ s.cancelconnect.toList })

/-- `connect_candidate`: the array is referenced by the timeout, too, whose id it gets. -/
def connectCandidate (cand : CandPtr) : ConnectRun Unit := do
  let s ← Prog.get
  let args := s.args.next
  let cancellable := s.nextCancellable
  let eventid := s.nextSource
  Prog.modify (fun s =>
    { s with
      args := s.args.alloc { refs := 2, cand, eventid := some eventid }
      cancelconnect := some cancellable
      nextCancellable := cancellable + 1
      sources := s.sources ++ [(eventid, args)]
      nextSource := eventid + 1
      connecting := s.connecting ++ [{ args, cancellable }]
      attempts := s.attempts ++ [cand] })

/-- `connect_next_candidate`: that there is no next one is noticed, but `link->next` is followed
all the same.
-/
def connectNextCandidate (cand : CandPtr) : ConnectRun Unit := do
  match (← Prog.get).candidates.drop cand with
  | [] => Prog.fail .assertion
  | [_] => Prog.fail .nullLink
  | _ :: _ :: _ => connectCandidate (cand + 1)

/-- `handle_client_connect`: whatever does not match CANCELLED is taken for a failure before the
time limit, a connection too.
-/
def handleClientConnect (args : ArgsPtr) (result : Except ConnectError GSocketConnection)
    : ConnectRun Unit := do
  let cand := (← readArgs args).cand
  unrefArgs args
  let err : Option ConnectError :=
    match result with
    | .ok _ => none
    | .error err => some err
  if !gErrorMatches err G_IO_ERROR G_IO_ERROR_CANCELLED then
    let eventid := (← readArgs args).eventid
    Prog.modify (fun s =>
      { s with sources := s.sources.filter (fun source => some source.1 != eventid) })
    unrefArgs args
    connectNextCandidate cand
  else
    match result with
    | .error _ => connectNextCandidate cand
    | .ok conn => Prog.modify (fun s => { s with connection := some conn })

/-- The end of `init`. -/
def startConnecting : ConnectRun Unit := do
  if (← Prog.get).candidates.isEmpty then
    pure ()
  else
    connectCandidate 0

-----------------------------------------------------------------------------------------
-- How attempts end
-----------------------------------------------------------------------------------------

/-- How an attempt ends: only the timer makes an operation end with CANCELLED. -/
inductive AttemptOutcome where
  | connected (conn : GSocketConnection)
  | failed (error : ConnectError) (other : error ≠ .cancelled)
  | cancelled

/-- The timeout of the oldest attempt is over; it returns FALSE, so its source goes. -/
def fireTimeout : ConnectRun Unit := do
  match (← Prog.get).sources with
  | [] => pure ()
  | (_, args) :: rest =>
      Prog.modify (fun s => { s with sources := rest })
      connectCancelTimeout args

/-- The oldest operation ends, with CANCELLED if its cancellable was cancelled. -/
def finishConnecting (result : Except ConnectError GSocketConnection) : ConnectRun Unit := do
  let s ← Prog.get
  match s.connecting with
  | [] => pure ()
  | op :: rest =>
      Prog.modify (fun s => { s with connecting := rest })
      handleClientConnect op.args
        (if op.cancellable ∈ s.cancelled then .error .cancelled else result)

/-- The pending attempt ends so. -/
def AttemptOutcome.play : AttemptOutcome → ConnectRun Unit
  | .connected conn => finishConnecting (.ok conn)
  | .failed error _ => finishConnecting (.error error)
  | .cancelled => do
      fireTimeout
      finishConnecting (.error .cancelled)

/-- The attempts end one after the other, as long as one is pending. -/
def playOutcomes : List AttemptOutcome → ConnectRun Unit
  | [] => pure ()
  | outcome :: rest => do
      outcome.play
      playOutcomes rest

/-- The stream is started, and its attempts end so. -/
def connectAll (outcomes : List AttemptOutcome) : ConnectRun Unit := do
  startConnecting
  playOutcomes outcomes

end McabberJingle.S5b
