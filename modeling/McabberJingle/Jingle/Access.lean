import McabberJingle.Jingle.Types

/-! Reading and writing through the pointers of the code. A read through a dangling pointer
stops the run; a write changes one field of one object.
-/

namespace McabberJingle

open Program

/-- Stop at `NULL->field`, or go on with the object. -/
def deref {α : Type} (what : Object) : Option α → Run α
  | some value => pure value
  | none => Prog.fail (.nullDeref what)

/-- Stop when the object behind a pointer was freed. -/
def alive {α : Type} (what : Object) : Option α → Run α
  | some value => pure value
  | none => Prog.fail (.useAfterFree what)

def readSession (p : SessionPtr) : Run JingleSession := do
  alive .session ((← Prog.get).sessions.get? p)

def readFt (p : FtPtr) : Run JingleFT := do
  alive .description ((← Prog.get).infoList.get? p)

def readTransport (p : TransportPtr) : Run Transport := do
  alive .transport ((← Prog.get).transports.get? p)

/-- A transport that the IBB module casts to `JingleIBB *`. -/
def readIbb (p : TransportPtr) : Run JingleIBB := do
  match ← readTransport p with
  | .ibb jibb => pure jibb
  | .s5b _ => Prog.fail .outOfBounds

/-- A transport that the SOCKS5 module casts to `JingleS5B *`. -/
def readS5b (p : TransportPtr) : Run JingleS5B := do
  match ← readTransport p with
  | .s5b js5b => pure js5b
  | .ibb _ => Prog.fail .outOfBounds

def modifyContent (p : SessionPtr) (f : List SessionContent → List SessionContent)
    : Run Unit :=
  Prog.modify (fun s =>
    { s with
      sessions := s.sessions.modify p (fun js => { js with content := f js.content }) })

def modifyFt (p : FtPtr) (f : JingleFT → JingleFT) : Run Unit :=
  Prog.modify (fun s => { s with infoList := s.infoList.modify p f })

def modifyTransport (p : TransportPtr) (f : Transport → Transport) : Run Unit :=
  Prog.modify (fun s => { s with transports := s.transports.modify p f })

/-- Write a `JingleIBB` back to where it was read from. -/
def writeIbb (p : TransportPtr) (jibb : JingleIBB) : Run Unit :=
  modifyTransport p (fun _ => .ibb jibb)

/-- `el->next` of a list node that was just unlinked and freed; `true` when the old link is
still there.
-/
def readFreedLink (w : World) : Run Bool :=
  match w.freedLink with
  | .traps => Prog.fail (.useAfterFree .listNode)
  | .null => do
      Prog.modify (fun s => { s with staleReads := s.staleReads + 1 })
      pure false
  | .intact => do
      Prog.modify (fun s => { s with staleReads := s.staleReads + 1 })
      pure true

-----------------------------------------------------------------------------------------
-- Reads that succeed
-----------------------------------------------------------------------------------------

theorem deref_done {α : Type} {s : State} {what : Object} {pointer : Option α} {value : α}
    (known : pointer = some value)
    : deref what pointer s = .done value s := by
  rw [known]
  rfl

theorem readSession_done {s : State} {p : SessionPtr} {js : JingleSession}
    (listed : s.sessions.get? p = some js)
    : readSession p s = .done js s := by
  change alive .session (s.sessions.get? p) s = _
  rw [listed]
  rfl

theorem readFt_done {s : State} {d : FtPtr} {jft : JingleFT}
    (listed : s.infoList.get? d = some jft)
    : readFt d s = .done jft s := by
  change alive .description (s.infoList.get? d) s = _
  rw [listed]
  rfl

theorem readTransport_done {s : State} {t : TransportPtr} {transport : Transport}
    (found : s.transports.get? t = some transport)
    : readTransport t s = .done transport s := by
  change alive .transport (s.transports.get? t) s = _
  rw [found]
  rfl

/-- Which module a transport belongs to. -/
def Transport.isIbb : Transport → Bool
  | .ibb _ => true
  | .s5b _ => false

theorem readIbb_done {s : State} {t : TransportPtr} {jibb : JingleIBB}
    (found : s.transports.get? t = some (.ibb jibb))
    : readIbb t s = .done jibb s := by
  unfold readIbb
  rw [Prog.bind_done (readTransport_done found)]
  rfl

theorem readS5b_done {s : State} {t : TransportPtr} {js5b : JingleS5B}
    (found : s.transports.get? t = some (.s5b js5b))
    : readS5b t s = .done js5b s := by
  unfold readS5b
  rw [Prog.bind_done (readTransport_done found)]
  rfl

-----------------------------------------------------------------------------------------
-- Reads that stop the run
-----------------------------------------------------------------------------------------

theorem readFt_fault {s : State} {d : FtPtr} (missing : s.infoList.get? d = none)
    : readFt d s = .fault (.useAfterFree .description) s := by
  change alive .description (s.infoList.get? d) s = _
  rw [missing]
  rfl

theorem readTransport_fault {s : State} {t : TransportPtr}
    (missing : s.transports.get? t = none)
    : readTransport t s = .fault (.useAfterFree .transport) s := by
  change alive .transport (s.transports.get? t) s = _
  rw [missing]
  rfl

/-- A transport that is not there, or that the other module made. -/
theorem readIbb_fault {s : State} {t : TransportPtr}
    (other : (s.transports.get? t).any Transport.isIbb = false)
    : ∃ error, readIbb t s = .fault error s := by
  unfold readIbb
  cases found : s.transports.get? t with
  | none => exact ⟨_, Prog.bind_fault (readTransport_fault found)⟩
  | some transport =>
      rw [Prog.bind_done (readTransport_done found)]
      cases transport with
      | ibb jibb => simp [found, Transport.isIbb] at other
      | s5b js5b => exact ⟨_, rfl⟩

theorem readS5b_fault {s : State} {t : TransportPtr}
    (other : (s.transports.get? t).any (fun transport => !transport.isIbb) = false)
    : ∃ error, readS5b t s = .fault error s := by
  unfold readS5b
  cases found : s.transports.get? t with
  | none => exact ⟨_, Prog.bind_fault (readTransport_fault found)⟩
  | some transport =>
      rw [Prog.bind_done (readTransport_done found)]
      cases transport with
      | ibb jibb => exact ⟨_, rfl⟩
      | s5b js5b => simp [found, Transport.isIbb] at other

theorem exists_ibb {s : State} {t : TransportPtr}
    (isIbb : (s.transports.get? t).any Transport.isIbb = true)
    : ∃ jibb, s.transports.get? t = some (.ibb jibb) := by
  obtain ⟨transport, found, isIbb⟩ := (Option.any_eq_true _ _).mp isIbb
  cases transport with
  | ibb jibb => exact ⟨jibb, found⟩
  | s5b js5b => cases isIbb

theorem exists_s5b {s : State} {t : TransportPtr}
    (isS5b : (s.transports.get? t).any (fun transport => !transport.isIbb) = true)
    : ∃ js5b, s.transports.get? t = some (.s5b js5b) := by
  obtain ⟨transport, found, isS5b⟩ := (Option.any_eq_true _ _).mp isS5b
  cases transport with
  | ibb jibb => cases isS5b
  | s5b js5b => exact ⟨js5b, found⟩

end McabberJingle
