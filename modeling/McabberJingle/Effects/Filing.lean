import McabberJingle.Effects.Speech
import McabberJingle.Program.Files
import McabberJingle.Program.Following
import McabberJingle.Transfer.Receiver

/-! Only data packets and shut down channels write files: whatever else the code does, the files
that are being received stay open or closed as they were, and nothing reaches the disk.
-/

namespace McabberJingle

open Program Program.Prog

variable {s s' : State} {d : FtPtr}

-----------------------------------------------------------------------------------------
-- The files being received
-----------------------------------------------------------------------------------------

/-- What a transfer is for; of a file that is being received its name, and what waits in its channel
while that is open.
-/
inductive Shelf where
  | sending
  | receiving (name : String) (channel : Option (List UInt8))
  deriving DecidableEq

def JingleFT.shelf (ft : JingleFT) : Shelf :=
  match ft.dir with
  | .outgoing => .sending
  | .incoming => .receiving ft.name (ft.outfile.map (fun _ => ft.waiting))

def State.shelf (s : State) (d : FtPtr) : Option Shelf :=
  (s.infoList.get? d).map JingleFT.shelf

/-- Transfers that are there are for what they were, files as open as they were; new files are
closed, and nothing was written.
-/
structure Shelved (s s' : State) : Prop where
  kept : ∀ d shelf, s'.shelf d = some shelf →
    s.shelf d = some shelf
    ∨ s.infoList.next ≤ d ∧ ∀ name channel, shelf = .receiving name channel → channel = none
  next : s.infoList.next ≤ s'.infoList.next
  disk : s'.disk = s.disk

instance : IsPreorder State Shelved where
  refl _ := ⟨fun _ _ => Or.inl, Nat.le_refl _, rfl⟩
  trans s s' s'' first second := by
    refine ⟨?_, Nat.le_trans first.next second.next, second.disk.trans first.disk⟩
    intro d shelf there
    rcases second.kept d shelf there with before | ⟨new, closed⟩
    · exact first.kept d shelf before
    · exact Or.inr ⟨Nat.le_trans first.next new, closed⟩

/-- The same shelves. -/
theorem shelved_of_shelf (shelf : ∀ d, s'.shelf d = s.shelf d)
    (next : s'.infoList.next = s.infoList.next) (disk : s'.disk = s.disk)
    : Shelved s s' where
  kept d _ there := Or.inl ((shelf d).symm.trans there)
  next := Nat.le_of_eq next.symm
  disk := disk

theorem shelved_of_same (infoList : s'.infoList = s.infoList) (disk : s'.disk = s.disk)
    : Shelved s s' :=
  shelved_of_shelf (fun d => by rw [State.shelf, State.shelf, infoList]) (by rw [infoList]) disk

theorem shelf_modify_ne {d' : FtPtr} (other : d' ≠ d) (f : JingleFT → JingleFT)
    : { s with infoList := s.infoList.modify d f : State }.shelf d' = s.shelf d' :=
  congrArg (Option.map JingleFT.shelf) (Pool.get?_modify_of_ne _ other)

/-- A transfer whose name, direction and channel stay. -/
theorem shelved_modify (d : FtPtr) {f : JingleFT → JingleFT}
    (same : ∀ ft, s.infoList.get? d = some ft → (f ft).shelf = ft.shelf)
    : Shelved s { s with infoList := s.infoList.modify d f } := by
  refine shelved_of_shelf (fun d' => ?_) rfl rfl
  by_cases here : d' = d
  · subst here
    rw [State.shelf, State.shelf, Pool.get?_modify_self]
    cases there : s.infoList.get? d' with
    | none => rfl
    | some ft => exact congrArg some (same ft there)
  · exact shelf_modify_ne here f

/-- A new transfer that is not open. -/
theorem shelved_alloc {ft : JingleFT} (closed : ft.dir = .incoming → ft.outfile = none)
    : Shelved s { s with infoList := s.infoList.alloc ft } where
  kept d shelf there := by
    obtain ⟨new, listed, rfl⟩ := Option.map_eq_some_iff.mp there
    rcases Pool.get?_alloc_eq_some.mp listed with ⟨rfl, rfl⟩ | before
    · refine Or.inr ⟨Nat.le_refl _, fun name channel opened => ?_⟩
      unfold JingleFT.shelf at opened
      split at opened
      · cases opened
      · rename_i incoming
        rw [closed incoming] at opened
        cases opened
        rfl
    · exact Or.inl (congrArg (Option.map JingleFT.shelf) before)
  next := Nat.le_succ _
  disk := rfl

/-- A transfer that is freed. -/
theorem shelved_erase (d : FtPtr) : Shelved s { s with infoList := s.infoList.erase d } where
  kept d' shelf there := by
    obtain ⟨ft, listed, rfl⟩ := Option.map_eq_some_iff.mp there
    exact Or.inl (congrArg (Option.map JingleFT.shelf) (Pool.get?_erase_eq_some.mp listed).2)
  next := Nat.le_refl _
  disk := rfl

-----------------------------------------------------------------------------------------
-- What happens to a file
-----------------------------------------------------------------------------------------

/-- What can happen to a file that is being received. -/
inductive FileEvent where
  /-- a packet for it arrives, and is written as the surroundings let it be -/
  | packet (write : WriteResult) (data : List UInt8)
  /-- its channel is shut down, which gets so many of the bytes that wait there into it -/
  | stopped (reach : Nat)
  /-- `/jft retry` resets its transfer -/
  | retried

/-- The bytes that wait in the channel of a file, while it is open, and those in the file, once it
was created.
-/
structure Receipt where
  channel : Option (List UInt8)
  content : Option (List UInt8)

/-- Of the bytes in the channel so many get into the file. -/
def Receipt.pour (receipt : Receipt) (held : List UInt8) (reach : Nat) : Receipt where
  channel := some (held.drop reach)
  content := receipt.content.map (· ++ held.take reach)

/-- How many of these bytes a write gets into the file. -/
def WriteResult.reach (write : WriteResult) (held : List UInt8) : Nat :=
  if write.status && write.flushed then held.length else write.reached

/-- A packet that finds the file closed creates it anew, if it can. -/
def Receipt.take (receipt : Receipt) : FileEvent → Receipt
  | .packet write data =>
      let got := data.take write.written
      match receipt.channel with
      | some held => receipt.pour (held ++ got) (write.reach (held ++ got))
      | none =>
          if write.opened then
            let created : Receipt := { channel := some [], content := some [] }
            if write.encoded then created.pour got (write.reach got) else created
          else
            receipt
  | .stopped reach =>
      match receipt.channel with
      | some held => { receipt.pour held reach with channel := some [] }
      | none => receipt
  | .retried => { receipt with channel := none }

/-- A step on the disk: the channel of a transfer and the path it is opened on. -/
def DiskOp.step : DiskOp → FileOp FtPtr String UInt8
  | .created d path => .opened d path
  | .wrote d bytes => .wrote d bytes

/-- Steps for one transfer that do to its file what an event does. -/
structure Makes (d : FtPtr) (name : String) (event : FileEvent)
    (channel channel' : Option (List UInt8)) (ops : List DiskOp)
    : Prop where
  ours : ∀ op ∈ ops, op.ft = d
  path : ∀ path, .created d path ∈ ops → path = name
  made : ∀ content, Receipt.take { channel, content } event
    = { channel := channel', content := (ops.map DiskOp.step).foldl grow content }

/-- An event for one transfer; to one that is sending it does nothing. -/
structure Touches (d : FtPtr) (event : FileEvent) (s s' : State) : Prop where
  others : ∀ d', d' ≠ d → s'.shelf d' = s.shelf d'
  next : s'.infoList.next = s.infoList.next
  grown : ∃ ops, s'.disk = s.disk ++ ops ∧ (∀ op ∈ ops, op.ft = d)
    ∧ ((s.shelf d = some .sending ∧ s'.shelf d = some .sending)
      ∨ ∃ name channel channel', s.shelf d = some (.receiving name channel)
          ∧ s'.shelf d = some (.receiving name channel') ∧ Makes d name event channel channel' ops)

/-- These events in turn, and nothing else to any file. -/
inductive Happens : List (FtPtr × FileEvent) → State → State → Prop where
  | nothing {s s' : State} (shelved : Shelved s s') : Happens [] s s'
  | event {d : FtPtr} {event : FileEvent} {events : List (FtPtr × FileEvent)} {s s₁ s₂ s' : State}
      (shelved : Shelved s s₁) (touches : Touches d event s₁ s₂) (rest : Happens events s₂ s')
      : Happens ((d, event) :: events) s s'

theorem Happens.before {events : List (FtPtr × FileEvent)} {s₁ : State} (shelved : Shelved s s₁)
    (happens : Happens events s₁ s')
    : Happens events s s' := by
  cases happens with
  | nothing more => exact .nothing (trans_of Shelved shelved more)
  | event more touches rest => exact .event (trans_of Shelved shelved more) touches rest

/-- By induction on the events of the first part. -/
theorem Happens.append {events more : List (FtPtr × FileEvent)} {s₁ : State}
    (first : Happens events s s₁) (second : Happens more s₁ s')
    : Happens (events ++ more) s s' := by
  induction first with
  | nothing shelved => exact second.before shelved
  | event shelved touches rest ih => exact .event shelved touches (ih second)

theorem Happens.after {events : List (FtPtr × FileEvent)} {s₁ : State}
    (happens : Happens events s s₁) (shelved : Shelved s₁ s')
    : Happens events s s' :=
  List.append_nil events ▸ happens.append (.nothing shelved)

theorem Touches.happens {event : FileEvent} (touches : Touches d event s s')
    : Happens [(d, event)] s s' :=
  .event (refl_of Shelved s) touches (.nothing (refl_of Shelved s'))

-----------------------------------------------------------------------------------------
-- Storage
-----------------------------------------------------------------------------------------

/-- Programs that write no file. -/
abbrev Shelves {α : Type} (m : Run α) : Prop := Obeys Shelved m

theorem shelves_aside {f : State → State} (infoList : ∀ s, (f s).infoList = s.infoList)
    (disk : ∀ s, (f s).disk = s.disk)
    : Shelves (Prog.modify f : Run Unit) :=
  obeys_modify (fun s => shelved_of_same (infoList s) (disk s))

theorem shelves_modifyFt (d : FtPtr) {f : JingleFT → JingleFT}
    (same : ∀ ft, (f ft).shelf = ft.shelf)
    : Shelves (modifyFt d f) :=
  obeys_modify (fun _ => shelved_modify d (fun ft _ => same ft))

theorem shelves_deref {α : Type} (what : Object) (pointer : Option α)
    : Shelves (deref what pointer) :=
  obeys_readOnly (deref_readOnly what pointer)

theorem shelves_readSession (p : SessionPtr) : Shelves (readSession p) :=
  obeys_readOnly (readSession_readOnly p)

theorem shelves_readFreedLink (w : World) : Shelves (readFreedLink w) := by
  unfold readFreedLink
  split
  · exact obeys_fail _
  · exact obeys_bind (shelves_aside (fun _ => rfl) (fun _ => rfl)) (fun _ => obeys_pure _)
  · exact obeys_bind (shelves_aside (fun _ => rfl) (fun _ => rfl)) (fun _ => obeys_pure _)

namespace FileTransfer

variable (env : Env) (w : World)

theorem listTransfer_shelves {jft : JingleFT} (closed : jft.dir = .incoming → jft.outfile = none)
    : Shelves (listTransfer jft) :=
  obeys_bind obeys_get (fun _ =>
    obeys_bind (obeys_modify (fun _ => shelved_alloc closed)) (fun _ => obeys_pure _))

theorem newFromMessage_shelves (cn : JingleContent) : Shelves (newFromMessage env w cn) := by
  unfold newFromMessage
  split
  · exact obeys_pure _
  · rename_i parsed
    exact obeys_bind (listTransfer_shelves (fun _ => parseOffer_closed env w parsed))
      (fun _ => obeys_pure _)

theorem handle_shelves (action : JingleAction) (d : FtPtr) (node : LmMessageNode)
    : Shelves (handle action d node) :=
  obeys_ite
    (obeys_bind (obeys_readOnly (readFt_readOnly d)) (fun _ =>
      obeys_bind (shelves_modifyFt d (fun _ => rfl)) (fun _ => obeys_pure _)))
    (obeys_pure _)

/-- What a changed transfer and its steps on the disk do to its file. -/
theorem touches_storing {event : FileEvent} {ft ft' : JingleFT} {ops : List DiskOp}
    (there : s.infoList.get? d = some ft) (dir : ft'.dir = ft.dir) (name : ft'.name = ft.name)
    (ours : ∀ op ∈ ops, op.ft = d)
    (makes : ft.dir = .incoming → Makes d ft.name event (ft.outfile.map (fun _ => ft.waiting))
      (ft'.outfile.map (fun _ => ft'.waiting)) ops)
    : Touches d event s (s.storing d ft' ops) where
  others d' other := shelf_modify_ne other _
  next := rfl
  grown := by
    refine ⟨ops, rfl, ours, ?_⟩
    have before : s.shelf d = some ft.shelf := congrArg (Option.map JingleFT.shelf) there
    have after : (s.storing d ft' ops).shelf d = some ft'.shelf :=
      congrArg (Option.map JingleFT.shelf) (State.storing_get? there ft' ops)
    rw [before, after, JingleFT.shelf, JingleFT.shelf, dir, name]
    cases direction : ft.dir with
    | outgoing => exact Or.inl ⟨rfl, rfl⟩
    | incoming => exact Or.inr ⟨_, _, _, rfl, rfl, makes direction⟩

/-- What waits goes into the file as far as it gets. -/
theorem shutDown_makes (d : FtPtr) (ft : JingleFT)
    : Makes d ft.name (.stopped (w.shutdown d)) (ft.outfile.map (fun _ => ft.waiting))
        (ft.shutDown.outfile.map (fun _ => ft.shutDown.waiting)) (shutdownOps w d ft) := by
  have ours : ∀ op ∈ shutdownOps w d ft, ∃ bytes, op = .wrote d bytes := by
    unfold shutdownOps
    split <;> simp
  refine ⟨fun op member => ?_, fun path member => ?_, fun content => ?_⟩
  · obtain ⟨bytes, rfl⟩ := ours op member
    rfl
  · obtain ⟨bytes, other⟩ := ours _ member
    cases other
  · unfold JingleFT.shutDown shutdownOps
    rcases ft with ⟨_, _, _, _, _, _ | _ | _ | _, _, _, _, _, _⟩
    all_goals simp [JingleFT.waiting, Receipt.take, Receipt.pour, DiskOp.step, grow]

/-- A packet is written to an open file, or to one that it creates. -/
theorem received_makes (d : FtPtr) (data : List UInt8) (ft : JingleFT)
    : Makes d ft.name (.packet w.write data) (ft.outfile.map (fun _ => ft.waiting))
        ((received w d data ft).ft.outfile.map (fun _ => (received w d data ft).ft.waiting))
        (received w d data ft).ops := by
  have ops : ∀ op ∈ (received w d data ft).ops, op = .created d ft.name
      ∨ ∃ bytes, op = .wrote d bytes := by
    unfold received receivedWrite
    grind
  refine ⟨fun op member => ?_, fun path member => ?_, fun content => ?_⟩
  · rcases ops op member with rfl | ⟨bytes, rfl⟩ <;> rfl
  · rcases ops _ member with same | ⟨bytes, other⟩
    · cases same
      rfl
    · cases other
  · unfold received receivedWrite FileTransfer.reaching
    rcases ft with ⟨_, _, _, _, _, _ | _ | _, _, _, _, _, _⟩
    · cases opened : w.write.opened <;> cases encoded : w.write.encoded <;>
        simp [JingleFT.waiting, Receipt.take, Receipt.pour, WriteResult.reach, DiskOp.step, grow,
          opened, encoded]
    all_goals
      simp [JingleFT.waiting, Receipt.take, Receipt.pour, WriteResult.reach, DiskOp.step, grow]

theorem handleData_happens {d : FtPtr} {data : List UInt8} {taken : Bool}
    (handled : handleData w d data s = .done taken s')
    : Happens [(d, .packet w.write data)] s s' := by
  obtain ⟨ft, there, ⟨outgoing, rfl⟩ | ⟨incoming, rfl⟩⟩ := handleData_ends handled
  · have idle : Touches d (.packet w.write data) s' (s'.storing d ft []) :=
      touches_storing there rfl rfl (fun _ member => by cases member)
        (fun incoming => by cases outgoing.symm.trans incoming)
    rw [State.storing_same there] at idle
    exact idle.happens
  · have named : (received w d data ft).ft.name = ft.name := by
      unfold received receivedWrite
      grind
    have makes := received_makes w d data ft
    exact (touches_storing there (received_dir w d data ft) named makes.ours
      (fun _ => makes)).happens

/-- Changing the transfer that was just listed. -/
theorem modifyFt_listing (s : State) (jft : JingleFT) (f : JingleFT → JingleFT)
    : modifyFt s.infoList.next f (s.listing jft) = .done () (s.listing (f jft)) := by
  have same : (s.infoList.alloc jft).modify s.infoList.next f = s.infoList.alloc (f jft) :=
    Pool.modify_alloc_self _ _ _
  simp only [State.listing, ← same]
  rfl

/-- What `/jft send` lists is no incoming file. -/
theorem new_lists (name : String) (s : State)
    : ∃ result jft, new env w name s = .done result (s.listing jft) ∧ jft.dir = .outgoing := by
  let listed : JingleFT := {
    date := 0
    hash := none
    name := env.pathGetBasename (env.expandFilename name)
    size := 0
    transmit := 0
    outfile := none
    type := .offer
    dir := .outgoing
    state := .pending
    desc := some name
    md5 := .null
  }
  have lists : listTransfer listed s = .done s.infoList.next (s.listing listed) := rfl
  have failed (jft : JingleFT) (outgoing : jft.dir = .outgoing)
      : ∃ result jft', (do
          modifyFt s.infoList.next (fun jft => { jft with state := .error })
          pure none : Run (Option FtPtr)) (s.listing jft) = .done result (s.listing jft')
          ∧ jft'.dir = .outgoing := by
    rw [bind_done (modifyFt_listing s jft _)]
    exact ⟨none, _, rfl, outgoing⟩
  have first : new env w name s = _ := bind_done lists
  rw [first]
  cases w.file with
  | none => exact failed listed rfl
  | some info =>
      dsimp only
      split
      · rw [bind_done (modifyFt_listing s listed _)]
        cases info.opened with
        | none => exact failed _ rfl
        | some reads =>
            dsimp only
            rw [bind_done (modifyFt_listing s _ _)]
            split
            · exact ⟨_, _, rfl, rfl⟩
            · exact failed _ rfl
      · exact failed listed rfl

theorem new_shelves (name : String) : Shelves (new env w name) := by
  intro s
  obtain ⟨result, jft, ends, outgoing⟩ := new_lists env w name s
  rw [Prog.Follows, wp, ends]
  exact shelved_alloc (fun incoming => by cases outgoing.symm.trans incoming)

end FileTransfer

section Tables

variable (env : Env) (w : World)

theorem newTransport_shelves (transport : Transport) : Shelves (Ibb.newTransport transport) :=
  obeys_bind obeys_get (fun _ =>
    obeys_bind (shelves_aside (fun _ => rfl) (fun _ => rfl)) (fun _ => obeys_pure _))

theorem JingleTransportFuncs.newFromMessage_shelves (cn : JingleContent)
    (transfuncs : JingleTransportFuncs)
    : Shelves (transfuncs.newFromMessage env w cn) := by
  cases transfuncs with
  | ibb =>
      unfold JingleTransportFuncs.newFromMessage Ibb.newFromMessage
      dsimp only
      split
      · exact obeys_pure _
      · refine obeys_bind (newTransport_shelves _) (fun _ => ?_)
        exact obeys_bind (shelves_aside (fun _ => rfl) (fun _ => rfl)) (fun _ => obeys_pure _)
  | s5b =>
      unfold JingleTransportFuncs.newFromMessage S5b.newFromMessage
      dsimp only
      split
      · exact obeys_pure _
      · refine obeys_bind obeys_get (fun _ => ?_)
        exact obeys_bind (newTransport_shelves _) (fun _ => obeys_pure _)

theorem JingleTransportFuncs.new_shelves (transfuncs : JingleTransportFuncs)
    : Shelves (transfuncs.new w) := by
  cases transfuncs with
  | ibb => exact newTransport_shelves _
  | s5b => exact obeys_bind obeys_get (fun _ => newTransport_shelves _)

theorem modifyTransport_shelves (t : TransportPtr) (f : Transport → Transport)
    : Shelves (modifyTransport t f) :=
  shelves_aside (fun _ => rfl) (fun _ => rfl)

theorem JingleTransportFuncs.handle_shelves (action : JingleAction) (t : TransportPtr)
    (node : LmMessageNode) (transfuncs : JingleTransportFuncs)
    : Shelves (transfuncs.handle env action t node) := by
  cases transfuncs with
  | ibb =>
      refine obeys_ite ?_ (obeys_pure _)
      refine obeys_bind (obeys_readOnly (readIbb_readOnly t)) (fun _ => ?_)
      exact obeys_bind (modifyTransport_shelves t _) (fun _ => obeys_pure _)
  | s5b =>
      refine obeys_ite ?_ (obeys_ite ?_ (obeys_pure _))
      · refine obeys_bind (obeys_readOnly (readS5b_readOnly t)) (fun _ => ?_)
        exact obeys_bind (modifyTransport_shelves t _) (fun _ => obeys_pure _)
      · exact obeys_bind (obeys_readOnly (readS5b_readOnly t)) (fun _ => obeys_pure _)

end Tables

-----------------------------------------------------------------------------------------
-- Sessions
-----------------------------------------------------------------------------------------

theorem modifyContent_shelves (p : SessionPtr) (f : List SessionContent → List SessionContent)
    : Shelves (modifyContent p f) :=
  shelves_aside (fun _ => rfl) (fun _ => rfl)

theorem sessionNew_shelves (sid fromJid toJid : String) (origin : SessionOrigin)
    : Shelves (sessionNew sid fromJid toJid origin) :=
  obeys_bind obeys_get (fun _ =>
    obeys_bind (shelves_aside (fun _ => rfl) (fun _ => rfl)) (fun _ => obeys_pure _))

theorem sessionNewFromJinglenode_shelves (jn : JingleNode)
    : Shelves (sessionNewFromJinglenode jn) := by
  unfold sessionNewFromJinglenode
  split
  · exact obeys_bind (sessionNew_shelves _ _ _ _) (fun _ => obeys_pure _)
  · exact obeys_pure _

theorem sessionDelete_shelves (w : World) (p : SessionPtr) : Shelves (sessionDelete w p) := by
  have freed (content : List SessionContent) : Shelves (sessionFreeContents w content) := by
    induction content with
    | nil => exact obeys_pure _
    | cons sc rest ih =>
        exact obeys_bind (shelves_readFreedLink w) (fun _ => obeys_ite ih (obeys_pure _))
  refine obeys_bind (shelves_readSession p) (fun js => ?_)
  exact obeys_bind (shelves_aside (fun _ => rfl) (fun _ => rfl)) (fun _ => freed js.content)

theorem sessionAddContent_shelves (p : SessionPtr) (name : String) (state : SessionState)
    : Shelves (sessionAddContent p name state) :=
  obeys_bind (shelves_readSession p) (fun _ => modifyContent_shelves p _)

theorem sessionAddApp_shelves (p : SessionPtr) (name xmlns : String) (d : FtPtr)
    : Shelves (sessionAddApp p name xmlns d) :=
  obeys_bind (shelves_readSession p) (fun _ => obeys_bind (shelves_deref _ _) (fun _ =>
    obeys_bind obeys_get (fun _ => modifyContent_shelves p _)))

theorem sessionAddTrans_shelves (p : SessionPtr) (name xmlns : String) (t : TransportPtr)
    : Shelves (sessionAddTrans p name xmlns t) :=
  obeys_bind (shelves_readSession p) (fun _ => obeys_bind (shelves_deref _ _) (fun _ =>
    obeys_bind obeys_get (fun _ => modifyContent_shelves p _)))

theorem addTransFromJinglecontent_shelves (env : Env) (w : World) (p : SessionPtr)
    (cn : JingleContent)
    : Shelves (addTransFromJinglecontent env w p cn) := by
  refine obeys_bind obeys_get (fun _ => obeys_bind (shelves_deref _ _) (fun transfuncs => ?_))
  refine obeys_bind (transfuncs.newFromMessage_shelves env w cn) (fun result => ?_)
  cases result with
  | error err => exact obeys_bind (modifyContent_shelves p _) (fun _ => obeys_pure _)
  | ok t =>
      refine obeys_bind (modifyContent_shelves p _) (fun _ => ?_)
      exact obeys_bind (sessionAddTrans_shelves p _ _ t) (fun _ => obeys_pure _)

theorem sessionAddContentFromJinglecontent_shelves (env : Env) (w : World) (p : SessionPtr)
    (cn : JingleContent) (state : SessionState)
    : Shelves (sessionAddContentFromJinglecontent env w p cn state) := by
  refine obeys_bind (sessionAddContent_shelves p _ _) (fun _ => ?_)
  refine obeys_bind obeys_get (fun _ => obeys_bind (shelves_deref _ _) (fun appfuncs => ?_))
  have described : Shelves (appfuncs.newFromMessage env w cn) := by
    cases appfuncs
    exact FileTransfer.newFromMessage_shelves env w cn
  refine obeys_bind described (fun result => ?_)
  cases result with
  | error err => exact obeys_bind (modifyContent_shelves p _) (fun _ => obeys_pure _)
  | ok d =>
      refine obeys_bind (modifyContent_shelves p _) (fun _ => ?_)
      refine obeys_bind (sessionAddApp_shelves p _ _ d) (fun _ => ?_)
      exact addTransFromJinglecontent_shelves env w p cn

theorem sessionRemoveSessioncontent_shelves (p : SessionPtr) (name : String)
    : Shelves (sessionRemoveSessioncontent p name) := by
  refine obeys_bind (shelves_readSession p) (fun js => ?_)
  split
  · exact obeys_pure _
  · exact obeys_bind (modifyContent_shelves p _) (fun _ => obeys_pure _)

theorem sessionChangestateSessioncontent_shelves (p : SessionPtr) (name : String)
    (state : SessionState)
    : Shelves (sessionChangestateSessioncontent p name state) :=
  obeys_bind (shelves_readSession p) (fun _ => modifyContent_shelves p _)

-----------------------------------------------------------------------------------------
-- IQs
-----------------------------------------------------------------------------------------

theorem sendReply_shelves (query answer : LmMessage) : Shelves (sendReply query answer) :=
  shelves_aside (fun _ => rfl) (fun _ => rfl)

theorem sendRequest_shelves (ident : SessionIdent) (iq : LmMessage)
    (callback : Option AckCallback) (timeout : Nat) (sendOk : Bool)
    : Shelves (sendRequest ident iq callback timeout sendOk) :=
  fun _ => shelved_of_same rfl rfl

theorem jingleSendSessionTerminate_shelves (p : SessionPtr) (reason : String)
    : Shelves (jingleSendSessionTerminate p reason) :=
  obeys_bind (shelves_readSession p) (fun _ => sendRequest_shelves _ _ _ _ _)

theorem jingleSendSessionAccept_shelves (env : Env) (p : SessionPtr)
    : Shelves (jingleSendSessionAccept env p) := by
  refine obeys_bind (shelves_readSession p) (fun js s => ?_)
  refine follows_known (lmMessageFromJinglesession_written env js _) (fun mess _ => ?_)
  exact sendRequest_shelves _ _ _ _ _ s

theorem jingleSendSessionInitiate_shelves (env : Env) (w : World) (p : SessionPtr)
    : Shelves (jingleSendSessionInitiate env w p) := by
  refine obeys_bind (shelves_readSession p) (fun js s => ?_)
  refine follows_known (lmMessageFromJinglesession_written env js _) (fun mess _ => ?_)
  refine follows_bind (sendRequest_shelves _ _ _ _ _ s) (fun _ s' _ => ?_)
  exact obeys_ite (obeys_pure ()) (sessionDelete_shelves w p) s'

end McabberJingle
