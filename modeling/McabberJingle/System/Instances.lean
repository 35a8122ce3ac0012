import McabberJingle.Program.Links
import McabberJingle.Transfer.Arrival

/-! Two instances with the connection between them: what one sends reaches the other, once and
in order, with the sender's JID.
-/

namespace McabberJingle

open Program Program.Prog

-----------------------------------------------------------------------------------------
-- What travels
-----------------------------------------------------------------------------------------

/-- A request of one instance, with the handle that loudmouth finds for the id of its answer, or
an answer, with that handle of the instance that asked.
-/
inductive Stanza where
  | request (ah : AckPtr) (iq : LmMessage)
  | answer (ah : AckPtr) (iq : LmMessage)

/-- The handle of the instance that asked. -/
def Stanza.ah : Stanza → AckPtr
  | .request ah _ => ah
  | .answer ah _ => ah

def Stanza.iq : Stanza → LmMessage
  | .request _ iq => iq
  | .answer _ iq => iq

/-- What was sent, as stanzas: requests with the handles kept for them, oldest first, and answers
to the request that is handled, if it is one.
-/
def stanzas (asked : Option AckPtr) : List AckPtr → List Sent → List Stanza
  | _, [] => []
  | ids, .reply _ iq :: rest =>
      (asked.map (fun ah => .answer ah iq)).toList ++ stanzas asked ids rest
  | [], .request _ _ :: rest => stanzas asked [] rest
  | ah :: ids, .request _ iq :: rest => .request ah iq :: stanzas asked ids rest

/-- What was sent between two states. -/
def State.sentUntil (s s' : State) (asked : Option AckPtr) : List Stanza :=
  stanzas asked (s'.idHandlers.filter (fun ah => s.ackHandlers.next ≤ ah))
    (s'.sent.drop s.sent.length)

/-- An instance handles a stanza from `peer` to its end, and sends `out` meanwhile. -/
def Handles (env : Env) (peer : String) (s : State) (w : World)
    : Stanza → State → List Stanza → Prop
  | .request ah iq, s', out =>
      handleIq env w (iq.stamped peer) s = .done () s' ∧ out = s.sentUntil s' (some ah)
  | .answer ah iq, s', out =>
      Step env s (w, .reply ah (iq.stamped peer)) s' ∧ out = s.sentUntil s' none

section Handles

variable {env : Env} {peer : String} {s s' : State} {w : World} {stanza : Stanza}
  {out : List Stanza}

/-- The handlers of the modules are turns of the main loop. -/
theorem handleIq_reached {message : LmMessage} (run : Reachable env s)
    (handled : handleIq env w message s = .done () s')
    : Reachable env s' := by
  obtain ⟨result, s₁, first, rest⟩ := of_bind_done handled
  have turn : Step env s (w, .jingleIq message) s₁ := ⟨trivial, by
    change (jingleHandleIq env w message >>= _) s = _
    rw [bind_done first]
    rfl⟩
  by_cases more : result = .allowMoreHandlers
  · rw [if_pos more] at rest
    exact .step (.step run trivial turn) trivial
      (show Step env s₁ (w, .ibbIq message) s' from ⟨trivial, rest⟩)
  · rw [if_neg more] at rest
    cases rest
    exact .step run trivial turn

/-- What an instance handles leads to a state that it can reach. -/
theorem Handles.reached (run : Reachable env s) (handles : Handles env peer s w stanza s' out)
    : Reachable env s' := by
  cases stanza with
  | request ah iq => exact handleIq_reached run handles.1
  | answer ah iq => exact .step run trivial handles.1

end Handles

-----------------------------------------------------------------------------------------
-- What a state asked since another one
-----------------------------------------------------------------------------------------

/-- A request with its handle and the callback of that. -/
structure Ask where
  ah : AckPtr
  iq : LmMessage
  callback : Option AckCallback

def Ask.stanza (ask : Ask) : Stanza := .request ask.ah ask.iq

/-- All handles that are kept are older than the next one. -/
def State.KeepsOld (s : State) : Prop := ∀ ah ∈ s.idHandlers, ah < s.ackHandlers.next

/-- Since `s` exactly these requests were made, all for one session, and nothing was answered. -/
structure Asked (ident : SessionIdent) (s s' : State) (asks : List Ask) : Prop where
  next : s'.ackHandlers.next = s.ackHandlers.next + asks.length
  numbered : asks.map Ask.ah = List.range' s.ackHandlers.next asks.length
  fresh : s'.idHandlers.filter (fun ah => s.ackHandlers.next ≤ ah) = asks.map Ask.ah
  sent : s'.sent = s.sent ++ asks.map (fun ask => .request ident ask.iq)
  kept : ∀ ask ∈ asks, (s'.ackHandlers.get? ask.ah).map JingleAckHandle.callback
    = some ask.callback

section Asked

variable {ident : SessionIdent} {s s₁ s' : State} {asks : List Ask}

/-- Nothing was asked. -/
theorem Asked.nothing (old : s.KeepsOld) (handles : s'.ackHandlers = s.ackHandlers)
    (ids : s'.idHandlers = s.idHandlers) (sent : s'.sent = s.sent)
    : Asked ident s s' [] where
  next := by
    rw [handles]
    rfl
  numbered := rfl
  fresh := by
    rw [ids]
    refine List.filter_eq_nil_iff.mpr (fun ah member => ?_)
    simpa using old ah member
  sent := sent.trans (List.append_nil _).symm
  kept := by
    intro ask member
    cases member

/-- Only these parts of the state matter. -/
theorem Asked.congr (asked : Asked ident s s₁ asks) (handles : s'.ackHandlers = s₁.ackHandlers)
    (ids : s'.idHandlers = s₁.idHandlers) (sent : s'.sent = s₁.sent)
    : Asked ident s s' asks where
  next := handles ▸ asked.next
  numbered := asked.numbered
  fresh := ids ▸ asked.fresh
  sent := sent.trans asked.sent
  kept := handles ▸ asked.kept

/-- The handles of the requests are new. -/
theorem Asked.bounds (asked : Asked ident s s' asks) {ask : Ask} (member : ask ∈ asks)
    : s.ackHandlers.next ≤ ask.ah ∧ ask.ah < s'.ackHandlers.next := by
  have listed : ask.ah ∈ asks.map Ask.ah := List.mem_map_of_mem member
  rw [asked.numbered, List.mem_range'_1] at listed
  rw [asked.next]
  exact listed

/-- One more request. -/
theorem Asked.requested (asked : Asked ident s s₁ asks) (iq : LmMessage)
    (callback : Option AckCallback) (timeout : Nat)
    : Asked ident s (s₁.requested ident iq callback timeout true)
        (asks ++ [⟨s₁.ackHandlers.next, iq, callback⟩]) where
  next := by
    rw [List.length_append, ← Nat.add_assoc, ← asked.next]
    rfl
  numbered := by
    rw [List.map_append, asked.numbered, List.length_append, List.length_singleton,
      List.range'_1_concat, ← asked.next]
    rfl
  fresh := by
    have new : s.ackHandlers.next ≤ s₁.ackHandlers.next := by
      rw [asked.next]
      exact Nat.le_add_right _ _
    rw [List.map_append, ← asked.fresh]
    change (s₁.idHandlers ++ [s₁.ackHandlers.next]).filter _ = _
    rw [List.filter_append, List.filter_cons_of_pos (by simpa using new)]
    rfl
  sent := by
    rw [List.map_append, ← List.append_assoc, ← asked.sent]
    rfl
  kept := by
    intro ask member
    rcases List.mem_append.mp member with old | new
    · rw [← asked.kept ask old]
      exact congrArg _ (Pool.get?_alloc_of_lt _ (asked.bounds old).2)
    · rw [List.mem_singleton.mp new]
      exact congrArg _ (Pool.get?_alloc_self _ _)

/-- An older handle is answered. -/
theorem Asked.answered (asked : Asked ident s s' asks) {ah : AckPtr}
    (before : ah < s.ackHandlers.next)
    : Asked ident s (s'.answered ah) asks where
  next := asked.next
  numbered := asked.numbered
  fresh := by
    have absent : ah ∉ asks.map Ask.ah := by
      intro member
      obtain ⟨ask, asking, rfl⟩ := List.mem_map.mp member
      exact Nat.lt_irrefl _ (Nat.lt_of_lt_of_le before (asked.bounds asking).1)
    change (s'.idHandlers.erase ah).filter _ = _
    rw [← List.erase_filter, asked.fresh, List.erase_of_not_mem absent]
  sent := asked.sent
  kept := by
    intro ask member
    have apart : ask.ah ≠ ah := fun same =>
      Nat.lt_irrefl _ (Nat.lt_of_lt_of_le (same ▸ before) (asked.bounds member).1)
    rw [← asked.kept ask member]
    exact congrArg _ (Pool.get?_erase_of_ne apart)

theorem Asked.keepsOld (asked : Asked ident s s' asks) : s'.KeepsOld := by
  intro ah member
  rcases Nat.lt_or_ge ah s.ackHandlers.next with before | since
  · rw [asked.next]
    exact Nat.lt_of_lt_of_le before (Nat.le_add_right _ _)
  · have fresh : ah ∈ asks.map Ask.ah := by
      rw [← asked.fresh]
      exact List.mem_filter.mpr ⟨member, by simpa using since⟩
    obtain ⟨ask, asking, rfl⟩ := List.mem_map.mp fresh
    exact (asked.bounds asking).2

theorem stanzas_requests (ident : SessionIdent) (asked : Option AckPtr) (asks : List Ask)
    : stanzas asked (asks.map Ask.ah) (asks.map (fun ask => .request ident ask.iq))
      = asks.map Ask.stanza := by
  induction asks with
  | nil => rfl
  | cons ask rest ih =>
      rw [List.map_cons, List.map_cons, stanzas, ih]
      rfl

/-- What was asked is what was sent. -/
theorem Asked.sentUntil (asked : Asked ident s s' asks)
    : s.sentUntil s' none = asks.map Ask.stanza := by
  rw [State.sentUntil, asked.fresh, asked.sent, List.drop_left]
  exact stanzas_requests ident none asks

/-- The handle of a request can be answered. -/
theorem Asked.waits (asked : Asked ident s s' asks) {ask : Ask} (member : ask ∈ asks)
    : ask.ah ∈ s'.idHandlers
      ∧ ∃ handle, s'.ackHandlers.get? ask.ah = some handle ∧ handle.callback = ask.callback := by
  refine ⟨?_, Option.map_eq_some_iff.mp (asked.kept ask member)⟩
  have fresh : ask.ah ∈ s'.idHandlers.filter (fun ah => s.ackHandlers.next ≤ ah) := by
    rw [asked.fresh]
    exact List.mem_map_of_mem member
  exact (List.mem_filter.mp fresh).1

end Asked

/-- An answer that is all that was sent. -/
theorem State.sentUntil_replied {s s' : State} {query answer : LmMessage}
    (sent : s'.sent = s.sent ++ [.reply query answer]) (ah : AckPtr)
    : s.sentUntil s' (some ah) = [.answer ah answer] := by
  rw [State.sentUntil, sent, List.drop_left]
  cases s'.idHandlers.filter (fun ah => s.ackHandlers.next ≤ ah) <;> rfl

end McabberJingle
