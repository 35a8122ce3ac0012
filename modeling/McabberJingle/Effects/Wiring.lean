import McabberJingle.System.Client

/-! What the operations on handlers and hooks do: each ends, and keeps account of who holds which
handler, which of them are registered, and whose hooks there are.
-/

namespace McabberJingle

open Program Program.Prog

variable {lm : Loudmouth} {mc : Mcabber}

-----------------------------------------------------------------------------------------
-- Handlers
-----------------------------------------------------------------------------------------

section Handlers

variable {s s' : Wiring lm mc} {m : IqModule} {p q : HandlerPtr}
  {loaded loaded' listening : IqModule → Bool}

/-- The handler that a module holds while it is loaded. -/
def Wiring.held (s : Wiring lm mc) (loaded : IqModule → Bool) (m : IqModule) : List HandlerPtr :=
  if loaded m then (s.iqHandler m).toList else []

/-- The handlers that the loaded modules hold. -/
def Wiring.owners (s : Wiring lm mc) (loaded : IqModule → Bool) : List HandlerPtr :=
  s.held loaded .jingle ++ s.held loaded .ibb

theorem owners_congr (iqHandler : s'.iqHandler = s.iqHandler)
    : s'.owners loaded = s.owners loaded := by
  simp [Wiring.owners, Wiring.held, iqHandler]

/-- Who holds the handlers: the loaded modules and the connection. A loaded module has a handler
that works, and it is registered if the module listens; what else is registered is invalid.
-/
structure Held (s : Wiring lm mc) (loaded listening : IqModule → Bool) : Prop where
  balanced : Balanced (lm.refs s.lm) (s.owners loaded ++ s.registered)
  own : ∀ m, loaded m = true → ∃ p, s.iqHandler m = some p
    ∧ lm.handler s.lm p = some { function := m, valid := true }
  registered : ∀ m p, loaded m = true → s.iqHandler m = some p →
    s.registered.count p = if listening m then 1 else 0
  stale : ∀ p ∈ s.registered, (∀ m, loaded m = true → s.iqHandler m ≠ some p) →
    ∃ h, lm.handler s.lm p = some h ∧ h.valid = false
  silent : ∀ m, listening m = true → loaded m = true

/-- Only these parts matter. -/
theorem Held.congr (handled : Held s loaded listening) (same : s'.lm = s.lm)
    (iqHandler : s'.iqHandler = s.iqHandler)
    : Held s' loaded listening := by
  obtain ⟨balanced, own, registered, stale, silent⟩ := handled
  have entries : s'.registered = s.registered := by
    rw [Wiring.registered, Wiring.lconnection, same]
    rfl
  have owners : s'.owners loaded = s.owners loaded := owners_congr iqHandler
  constructor
  · rw [same, entries, owners]
    exact balanced
  · rw [same, iqHandler]
    exact own
  · rw [entries, iqHandler]
    exact registered
  · rw [same, entries, iqHandler]
    exact stale
  · exact silent

theorem mem_owners (known : loaded m = true) (handler : s.iqHandler m = some p)
    : p ∈ s.owners loaded := by
  have held : s.held loaded m = [p] := by simp [Wiring.held, known, handler]
  cases m <;> simp [Wiring.owners, held]

/-- A module's handler is there while the module is loaded. -/
theorem Held.pos (handled : Held s loaded listening) (known : loaded m = true)
    (handler : s.iqHandler m = some p)
    : 0 < lm.refs s.lm p :=
  handled.balanced.pos (List.mem_append_left _ (mem_owners known handler))

/-- Loading or unloading one module changes the holders by its handler. -/
theorem owners_perm (known : loaded m = true) (handler : s.iqHandler m = some p)
    (absent : loaded' m = false) (others : ∀ n, n ≠ m → s'.held loaded' n = s.held loaded n)
    : (s.owners loaded).Perm (p :: s'.owners loaded') := by
  have held : s.held loaded m = [p] := by simp [Wiring.held, known, handler]
  have none_ : s'.held loaded' m = [] := by simp [Wiring.held, absent]
  cases m with
  | jingle => simp [Wiring.owners, held, none_, others .ibb]
  | ibb => simp [Wiring.owners, held, none_, others .jingle, List.perm_append_singleton]

/-- A handler tells its module. -/
theorem Held.apart (handled : Held s loaded listening) {n : IqModule}
    (known : loaded m = true) (known' : loaded n = true) (handler : s.iqHandler m = some p)
    (handler' : s.iqHandler n = some p)
    : m = n := by
  obtain ⟨p₁, own, value⟩ := handled.own m known
  obtain ⟨p₂, own', value'⟩ := handled.own n known'
  rw [Option.some.inj (own.symm.trans handler)] at value
  rw [Option.some.inj (own'.symm.trans handler')] at value'
  exact congrArg LmMessageHandler.function (Option.some.inj (value.symm.trans value'))

/-- A handler that is there can be passed on. -/
theorem handlerAt_done (pos : 0 < lm.refs s.lm p) : handlerAt (some p) s = .done p s := by
  unfold handlerAt
  dsimp only
  rw [bind_get, if_neg (Nat.ne_of_gt pos)]
  rfl

/-- Unregistering one of two entries for a handler leaves the other holders. -/
theorem erase_registered_perm {owners registered : List HandlerPtr} (member : p ∈ registered)
    : (owners ++ registered.erase p).Perm ((owners ++ registered).erase p) := by
  refine List.perm_iff_count.mpr (fun q => ?_)
  have some_ : 0 < registered.count p := List.count_pos_iff.mpr member
  rw [List.count_append, List.count_erase, List.count_erase, List.count_append]
  by_cases here : p = q
  · subst here
    simp only [beq_self_eq_true, if_true]
    omega
  · simp [here]

/-- The state without an entry for the handler. -/
def Wiring.without (s : Wiring lm mc) (p : HandlerPtr) : Wiring lm mc :=
  if s.lconnection.isSome then { s with lm := lm.unregisterMessageHandler p s.lm } else s

/-- The entry goes, and the reference of the connection with it. -/
theorem Wiring.without_leaves (doc : lm.Documented) (s : Wiring lm mc) (p : HandlerPtr)
    : lm.Leaves (s.without p).lm
        (fun q => lm.refs s.lm q - if p ∈ s.registered ∧ q = p then 1 else 0) (lm.handler s.lm)
        (s.lconnection.map (fun all => all.erase p)) := by
  unfold without registered
  cases connection : s.lconnection with
  | none => exact ⟨by simp, fun _ _ => rfl, connection⟩
  | some all => exact doc.unregisterMessageHandler p s.lm all connection

theorem Wiring.registered_without (doc : lm.Documented) (s : Wiring lm mc) (p : HandlerPtr)
    : (s.without p).registered = s.registered.erase p := by
  rw [registered, lconnection, (s.without_leaves doc p).connection, registered]
  cases s.lconnection <;> rfl

theorem Wiring.iqHandler_without (s : Wiring lm mc) (p : HandlerPtr)
    : (s.without p).iqHandler = s.iqHandler := by
  unfold without
  split <;> rfl

/-- Taking a loaded module's handler from the connection. -/
theorem Held.without (doc : lm.Documented) (handled : Held s loaded listening)
    (known : loaded m = true) (handler : s.iqHandler m = some p)
    : Held (s.without p) loaded (Function.update listening m false) := by
  have iqHandler : (s.without p).iqHandler = s.iqHandler := s.iqHandler_without p
  have owners : (s.without p).owners loaded = s.owners loaded := owners_congr iqHandler
  have leaves := s.without_leaves doc p
  have entries := s.registered_without doc p
  have balanced : Balanced (lm.refs (s.without p).lm)
      (s.owners loaded ++ s.registered.erase p) := by
    by_cases member : p ∈ s.registered
    · refine (handled.balanced.dropped (p := p) (fun q => ?_)).perm (erase_registered_perm member)
      simp [leaves.refs, member]
    · rw [List.erase_of_not_mem member]
      exact handled.balanced.congr (fun q => by simp [leaves.refs, member])
  have value (q : HandlerPtr) (held : q ∈ s.owners loaded ++ s.registered.erase p)
      : lm.handler (s.without p).lm q = lm.handler s.lm q :=
    leaves.handler q (balanced.pos held)
  refine ⟨?_, ?_, ?_, ?_, ?_⟩
  · rw [owners, entries]
    exact balanced
  · intro n known'
    obtain ⟨q, own, there⟩ := handled.own n known'
    refine ⟨q, by rw [iqHandler, own], ?_⟩
    rw [value q (List.mem_append_left _ (mem_owners known' own)), there]
  · intro n q known' own
    rw [iqHandler] at own
    have count := handled.registered n q known' own
    rw [entries, List.count_erase, count]
    by_cases same : n = m
    · subst same
      cases handler.symm.trans own
      cases listening n <;> simp
    · have other : p ≠ q := fun here => same (handled.apart known' known own (here ▸ handler))
      simp [Function.update_of_ne same, other]
  · intro q member foreign
    rw [entries] at member
    rw [iqHandler] at foreign
    rw [value q (List.mem_append_right _ member)]
    exact handled.stale q (List.mem_of_mem_erase member) foreign
  · intro n heard
    by_cases same : n = m
    · exact same ▸ known
    · rw [Function.update_of_ne same] at heard
      exact handled.silent n heard

/-- The state with another entry for the handler. -/
def Wiring.withEntry (s : Wiring lm mc) (p : HandlerPtr) : Wiring lm mc :=
  { s with lm := lm.registerMessageHandler p s.lm }

/-- Giving a loaded module's handler to the connection, which does not have it. -/
theorem Held.withEntry (doc : lm.Documented) (handled : Held s loaded listening)
    (known : loaded m = true) (handler : s.iqHandler m = some p) (deaf : listening m = false)
    (connected : s.lconnection.isSome = true)
    : Held (s.withEntry p) loaded (Function.update listening m true)
      ∧ (s.withEntry p).lconnection.isSome = true := by
  obtain ⟨all, there⟩ := Option.isSome_iff_exists.mp connected
  obtain ⟨all', same, leaves⟩ :=
    doc.registerMessageHandler p s.lm all (handled.pos known handler) there
  have still : (s.withEntry p).lconnection = some all' := leaves.connection
  have entries : (s.withEntry p).registered.Perm (p :: s.registered) := by
    rw [Wiring.registered, Wiring.registered, still, there]
    exact same
  have balanced : Balanced (lm.refs (s.withEntry p).lm)
      (s.owners loaded ++ (s.withEntry p).registered) := by
    refine (handled.balanced.taken leaves.refs).perm ?_
    exact (List.Perm.append_left _ entries).trans List.perm_middle
  have value (q : HandlerPtr) (held : q ∈ s.owners loaded ++ (s.withEntry p).registered)
      : lm.handler (s.withEntry p).lm q = lm.handler s.lm q :=
    leaves.handler q (balanced.pos held)
  refine ⟨⟨balanced, ?_, ?_, ?_, ?_⟩, by rw [still]; rfl⟩
  · intro n known'
    obtain ⟨q, own, there⟩ := handled.own n known'
    exact ⟨q, own, (value q (List.mem_append_left _ (mem_owners known' own))).trans there⟩
  · intro n q known' own
    have count := handled.registered n q known' own
    rw [entries.count_eq, List.count_cons, count]
    by_cases same : n = m
    · subst same
      cases handler.symm.trans own
      simp [deaf]
    · have other : p ≠ q := fun here => same (handled.apart known' known own (here ▸ handler))
      simp [Function.update_of_ne same, other]
  · intro q member foreign
    rw [value q (List.mem_append_right _ member)]
    rcases List.mem_cons.mp (entries.mem_iff.mp member) with rfl | old
    · exact absurd handler (foreign m known)
    · exact handled.stale q old foreign
  · intro n heard
    by_cases same : n = m
    · exact same ▸ known
    · rw [Function.update_of_ne same] at heard
      exact handled.silent n heard

/-- Only handlers and their entries change. -/
structure SameHooks (s s' : Wiring lm mc) : Prop where
  hooks : s'.hooks = s.hooks
  iqHandler : s'.iqHandler = s.iqHandler
  connectHid : s'.connectHid = s.connectHid
  disconnHid : s'.disconnHid = s.disconnHid
  connected : s'.lconnection.isSome = s.lconnection.isSome

theorem SameHooks.refl (s : Wiring lm mc) : SameHooks s s := ⟨rfl, rfl, rfl, rfl, rfl⟩

theorem SameHooks.trans {s'' : Wiring lm mc} (first : SameHooks s s') (second : SameHooks s' s'')
    : SameHooks s s'' where
  hooks := second.hooks.trans first.hooks
  iqHandler := second.iqHandler.trans first.iqHandler
  connectHid := second.connectHid.trans first.connectHid
  disconnHid := second.disconnHid.trans first.disconnHid
  connected := second.connected.trans first.connected

theorem sameHooks_without (doc : lm.Documented) (s : Wiring lm mc) (p : HandlerPtr)
    : SameHooks s (s.without p) := by
  have connected : (s.without p).lconnection.isSome = s.lconnection.isSome := by
    rw [Wiring.lconnection, (s.without_leaves doc p).connection, Option.isSome_map]
  refine ⟨?_, s.iqHandler_without p, ?_, ?_, connected⟩ <;> unfold Wiring.without <;> split <;> rfl

/-- A loaded module is taken off the connection. -/
theorem unregisterLmHandlers_done (handled : Held s loaded listening) (known : loaded m = true)
    (handler : s.iqHandler m = some p)
    : unregisterLmHandlers m s = .done () (s.without p) := by
  unfold unregisterLmHandlers Wiring.without
  rw [bind_get]
  split
  · rw [handler]
    exact (bind_done (handlerAt_done (handled.pos known handler))).trans rfl
  · rfl

/-- A loaded module is put on the connection, if there is one, without being put there twice. -/
theorem registerLmHandlers_done (doc : lm.Documented) (handled : Held s loaded listening)
    (known : loaded m = true)
    : ∃ s', registerLmHandlers m s = .done () s' ∧ SameHooks s s'
        ∧ Held s' loaded (Function.update listening m s.lconnection.isSome) := by
  obtain ⟨p, handler, _⟩ := handled.own m known
  have frame := sameHooks_without doc s p
  have off := handled.without doc known handler
  have handler' : (s.without p).iqHandler m = some p := by rw [frame.iqHandler, handler]
  unfold registerLmHandlers
  rw [bind_done (unregisterLmHandlers_done handled known handler), bind_get, handler']
  by_cases connected : s.lconnection.isSome = true
  · have still := frame.connected.trans connected
    obtain ⟨on, kept⟩ :=
      off.withEntry doc known handler' (Function.update_self m false listening) still
    refine ⟨(s.without p).withEntry p, ?_, frame.trans ⟨rfl, rfl, rfl, rfl, kept.trans still.symm⟩,
      ?_⟩
    · rw [if_pos still]
      exact (bind_done (handlerAt_done (off.pos known handler'))).trans rfl
    · rw [Function.update_idem] at on
      rw [connected]
      exact on
  · have offline : s.lconnection.isSome = false := by simpa using connected
    refine ⟨s.without p, ?_, frame, ?_⟩
    · rw [if_neg (by rw [frame.connected]; exact connected)]
      rfl
    · rw [offline]
      exact off

/-- Whether a module listens after its handler of a hook. -/
def HookName.hears (connected : Bool) : HookName → Bool
  | .postConnect => connected
  | .preDisconnect => false

theorem hookHandler_done (doc : lm.Documented) (handled : Held s loaded listening)
    (known : loaded m = true) (name : HookName)
    : ∃ s', hookHandler m name s = .done () s' ∧ SameHooks s s'
        ∧ Held s' loaded (Function.update listening m (name.hears s.lconnection.isSome)) := by
  cases name with
  | postConnect => exact registerLmHandlers_done doc handled known
  | preDisconnect =>
      obtain ⟨p, handler, _⟩ := handled.own m known
      exact ⟨_, unregisterLmHandlers_done handled known handler, sameHooks_without doc s p,
        handled.without doc known handler⟩

/-- The handlers of one hook run, one after another. -/
theorem callHandlers_done (doc : lm.Documented) (name : HookName) {called : List (Nat × IqModule)}
    (handled : Held s loaded listening) (all : ∀ cell ∈ called, loaded cell.2 = true)
    : ∃ s' listening', callHandlers name called s = .done () s' ∧ SameHooks s s'
        ∧ Held s' loaded listening'
        ∧ (∀ cell ∈ called, listening' cell.2 = name.hears s.lconnection.isSome)
        ∧ ∀ m, listening' m = listening m ∨ listening' m = name.hears s.lconnection.isSome := by
  induction called generalizing s listening with
  | nil => exact ⟨s, listening, rfl, .refl s, handled, by simp, fun _ => Or.inl rfl⟩
  | cons cell rest ih =>
      obtain ⟨hid, m⟩ := cell
      obtain ⟨s₁, ran, frame₁, handled₁⟩ :=
        hookHandler_done doc handled (all _ List.mem_cons_self) name
      obtain ⟨s₂, listening₂, ran₂, frame₂, handled₂, done₂, others₂⟩ :=
        ih handled₁ (fun cell member => all cell (List.mem_cons_of_mem _ member))
      rw [frame₁.connected] at done₂ others₂
      refine ⟨s₂, listening₂, (bind_done ran).trans ran₂, frame₁.trans frame₂, handled₂, ?_, ?_⟩
      · intro cell member
        rcases List.mem_cons.mp member with rfl | later
        · rcases others₂ m with kept | set
          · rw [kept, Function.update_self]
          · exact set
        · exact done₂ cell later
      · intro n
        rcases others₂ n with kept | set
        · rw [kept]
          by_cases same : n = m
          · exact Or.inr (by rw [same, Function.update_self])
          · exact Or.inl (Function.update_of_ne same _ _)
        · exact Or.inr set

/-- A new connection has no handlers. -/
theorem Held.connect (doc : lm.Documented) (handled : Held s loaded listening)
    (offline : s.lconnection = none)
    : Held { s with lm := lm.connectionNew s.lm } loaded listening
      ∧ lm.connection (lm.connectionNew s.lm) = some [] := by
  have leaves := doc.connectionNew s.lm offline
  have nobody : s.registered = [] := by rw [Wiring.registered, offline]; rfl
  have entries : ({ s with lm := lm.connectionNew s.lm } : Wiring lm mc).registered = [] := by
    rw [Wiring.registered, Wiring.lconnection, leaves.connection]
    rfl
  have balanced : Balanced (lm.refs (lm.connectionNew s.lm)) (s.owners loaded ++ []) :=
    nobody ▸ handled.balanced.congr leaves.refs
  refine ⟨⟨entries ▸ balanced, fun m known => ?_, fun m p known own => ?_, fun p member => ?_,
    handled.silent⟩, leaves.connection⟩
  · obtain ⟨p, own, value⟩ := handled.own m known
    refine ⟨p, own, (leaves.handler p ?_).trans value⟩
    exact balanced.pos (List.mem_append_left _ (mem_owners known own))
  · rw [entries, ← nobody]
    exact handled.registered m p known own
  · rw [entries] at member
    cases member

/-- A connection that ends lets go of its handlers, not the modules of theirs. -/
theorem Held.hangUp (doc : lm.Documented) (handled : Held s loaded listening)
    : Held { s with lm := lm.connectionUnref s.lm } loaded (fun _ => false) := by
  have leaves := doc.connectionUnref s.lm
  have entries : ({ s with lm := lm.connectionUnref s.lm } : Wiring lm mc).registered = [] := by
    rw [Wiring.registered, Wiring.lconnection, leaves.connection]
    rfl
  have dropping := handled.balanced.perm List.perm_append_comm.symm
  have balanced : Balanced (lm.refs (lm.connectionUnref s.lm)) (s.owners loaded) :=
    dropping.droppedAll leaves.refs
  refine ⟨?_, fun m known => ?_, fun m p known own => ?_, fun p member => ?_, ?_⟩
  · rw [entries, List.append_nil]
    exact balanced
  · obtain ⟨p, own, value⟩ := handled.own m known
    exact ⟨p, own, (leaves.handler p (balanced.pos (mem_owners known own))).trans value⟩
  · rw [entries]
    rfl
  · rw [entries] at member
    cases member
  · intro m heard
    cases heard

/-- A module that was just loaded, before it is registered. -/
def Wiring.equipped (s : Wiring lm mc) (m : IqModule) : Wiring lm mc :=
  let (handler, called) := lm.messageHandlerNew m s.lm
  let (connect, hooked) := mc.hkAddHandler m .postConnect s.hooks
  let (disconn, hooked) := mc.hkAddHandler m .preDisconnect hooked
  { lm := called
    hooks := hooked
    iqHandler := Function.update s.iqHandler m (some handler)
    connectHid := Function.update s.connectHid m connect
    disconnHid := Function.update s.disconnHid m disconn }

theorem Wiring.connected_equipped (doc : lm.Documented) (s : Wiring lm mc) (m : IqModule)
    : (s.equipped m).lconnection = s.lconnection :=
  (doc.messageHandlerNew m s.lm).2.connection

theorem Held.equipped (doc : lm.Documented) (handled : Held s loaded listening)
    (absent : loaded m = false)
    : Held (s.equipped m) (Function.update loaded m true) listening := by
  obtain ⟨freed, leaves⟩ := doc.messageHandlerNew m s.lm
  let p := (lm.messageHandlerNew m s.lm).1
  have own : (s.equipped m).iqHandler m = some p := Function.update_self _ _ _
  have owners : ((s.equipped m).owners (Function.update loaded m true)).Perm
      (p :: s.owners loaded) := by
    refine owners_perm (Function.update_self _ _ _) own absent ?_
    intro n same
    simp [Wiring.held, Wiring.equipped, Function.update_of_ne same]
  have fresh : p ∉ s.owners loaded ++ s.registered := handled.balanced.not_mem freed
  have entries : (s.equipped m).registered = s.registered := by
    rw [Wiring.registered, s.connected_equipped doc m]
    rfl
  have taken : Balanced (lm.refs (s.equipped m).lm) (p :: (s.owners loaded ++ s.registered)) :=
    handled.balanced.taken leaves.refs
  have value (q : HandlerPtr) (held : q ∈ s.owners loaded ++ s.registered)
      : lm.handler (s.equipped m).lm q = lm.handler s.lm q := by
    have other : q ≠ p := fun here => fresh (here ▸ held)
    exact (leaves.handler q (taken.pos (List.mem_cons_of_mem _ held))).trans
      (Function.update_of_ne other _ _)
  refine ⟨?_, ?_, ?_, ?_, ?_⟩
  · rw [entries]
    exact taken.perm (owners.append_right _)
  · intro n known
    by_cases same : n = m
    · subst same
      exact ⟨p, own, (leaves.handler p (taken.pos List.mem_cons_self)).trans
        (Function.update_self _ _ _)⟩
    · rw [Function.update_of_ne same] at known
      obtain ⟨q, own, there⟩ := handled.own n known
      refine ⟨q, (Function.update_of_ne same _ _).trans own, ?_⟩
      exact (value q (List.mem_append_left _ (mem_owners known own))).trans there
  · intro n q known own'
    rw [entries]
    by_cases same : n = m
    · subst same
      have here : p = q := Option.some.inj (own.symm.trans own')
      have deaf : listening n = false := by
        cases heard : listening n with
        | false => rfl
        | true => exact absurd (handled.silent n heard) (by simp [absent])
      rw [deaf]
      refine List.count_eq_zero_of_not_mem (fun member => fresh ?_)
      rw [here]
      exact List.mem_append_right _ member
    · rw [Function.update_of_ne same] at known
      exact handled.registered n q known ((Function.update_of_ne same _ _).symm.trans own')
  · intro q member foreign
    rw [entries] at member
    rw [value q (List.mem_append_right _ member)]
    refine handled.stale q member (fun n known own => ?_)
    have same : n ≠ m := by
      rintro rfl
      rw [absent] at known
      cases known
    exact foreign n ((Function.update_of_ne same _ _).trans known)
      ((Function.update_of_ne same _ _).trans own)
  · intro n heard
    by_cases same : n = m
    · rw [same, Function.update_self]
    · rw [Function.update_of_ne same]
      exact handled.silent n heard

/-- A handler that is invalidated and let go of. -/
def Wiring.retired (s : Wiring lm mc) (p : HandlerPtr) : Wiring lm mc :=
  { s with lm := lm.messageHandlerUnref p (lm.messageHandlerInvalidate p s.lm) }

/-- The handler is invalid from then on, for whoever still holds it. -/
theorem Wiring.retired_leaves (doc : lm.Documented) (pos : 0 < lm.refs s.lm p)
    : lm.Leaves (s.retired p).lm (fun q => lm.refs s.lm q - if q = p then 1 else 0)
        (Function.update (lm.handler s.lm) p
          ((lm.handler s.lm p).map (fun h => { h with valid := false })))
        s.lconnection := by
  have first := doc.messageHandlerInvalidate p s.lm pos
  have second := doc.messageHandlerUnref p (lm.messageHandlerInvalidate p s.lm)
    (by rw [first.refs]; exact pos)
  refine ⟨fun q => (second.refs q).trans (by rw [first.refs]), fun q held => ?_,
    second.connection.trans first.connection⟩
  have before : 0 < lm.refs (lm.messageHandlerInvalidate p s.lm) q := by
    have held : 0 < lm.refs (lm.messageHandlerUnref p (lm.messageHandlerInvalidate p s.lm)) q :=
      held
    rw [second.refs] at held
    exact Nat.lt_of_lt_of_le held (Nat.sub_le _ _)
  exact (second.handler q held).trans (first.handler q before)

theorem Held.retired (doc : lm.Documented) (handled : Held s loaded listening)
    (known : loaded m = true) (handler : s.iqHandler m = some p)
    : Held (s.retired p) (Function.update loaded m false) (Function.update listening m false) := by
  have owners : (s.owners loaded).Perm (p :: s.owners (Function.update loaded m false)) := by
    refine owners_perm known handler (Function.update_self _ _ _) (fun n same => ?_)
    simp [Wiring.held, Function.update_of_ne same]
  have leaves := s.retired_leaves doc (handled.pos known handler)
  have entries : (s.retired p).registered = s.registered := by
    rw [Wiring.registered, Wiring.lconnection, leaves.connection]
    rfl
  have balanced : Balanced (lm.refs (s.retired p).lm)
      (s.owners (Function.update loaded m false) ++ s.registered) := by
    have split := handled.balanced.perm (owners.append_right s.registered).symm
    have dropped := split.dropped leaves.refs
    rw [List.cons_append, List.erase_cons_head] at dropped
    exact dropped
  have value (q : HandlerPtr) (held : q ∈ s.owners (Function.update loaded m false) ++ s.registered)
      := leaves.handler q (balanced.pos held)
  have other {n : IqModule} (known' : Function.update loaded m false n = true)
      : n ≠ m ∧ loaded n = true := by
    by_cases same : n = m
    · rw [same, Function.update_self] at known'
      cases known'
    · exact ⟨same, (Function.update_of_ne same _ _).symm.trans known'⟩
  refine ⟨by rw [entries]; exact balanced, ?_, ?_, ?_, ?_⟩
  · intro n known'
    obtain ⟨same, listed⟩ := other known'
    obtain ⟨q, own, there⟩ := handled.own n listed
    have apart : q ≠ p := fun here => same (handled.apart listed known own (here ▸ handler))
    refine ⟨q, own, (value q (List.mem_append_left _ (mem_owners known' own))).trans ?_⟩
    exact (Function.update_of_ne apart _ _).trans there
  · intro n q known' own
    obtain ⟨same, listed⟩ := other known'
    rw [entries, Function.update_of_ne same]
    exact handled.registered n q listed own
  · intro q member foreign
    rw [entries] at member
    rw [value q (List.mem_append_right _ member)]
    by_cases here : q = p
    · subst here
      rw [Function.update_self]
      obtain ⟨_, own, there⟩ := handled.own m known
      rw [Option.some.inj (own.symm.trans handler)] at there
      rw [there]
      exact ⟨_, rfl, rfl⟩
    · rw [Function.update_of_ne here]
      refine handled.stale q member (fun n listed own => ?_)
      have same : n ≠ m := by
        rintro rfl
        exact here (Option.some.inj (own.symm.trans handler))
      exact foreign n ((Function.update_of_ne same _ _).trans listed) own
  · intro n heard
    by_cases same : n = m
    · rw [same, Function.update_self] at heard
      cases heard
    · rw [Function.update_of_ne same] at heard ⊢
      exact handled.silent n heard

end Handlers

-----------------------------------------------------------------------------------------
-- Hooks
-----------------------------------------------------------------------------------------

section Hooks

variable {s s' : Wiring lm mc} {m : IqModule} {p : HandlerPtr} {loaded listening : IqModule → Bool}

/-- The id that a module keeps of its handler of a hook. -/
def Wiring.hidOf (s : Wiring lm mc) : HookName → IqModule → Nat
  | .postConnect => s.connectHid
  | .preDisconnect => s.disconnHid

/-- The handlers of the hooks are those of the loaded modules, which differ in their ids. -/
structure Hooked (s : Wiring lm mc) (loaded : IqModule → Bool) : Prop where
  handlers : ∀ name hid m,
    (hid, m) ∈ mc.handlers s.hooks name ↔ loaded m = true ∧ hid = s.hidOf name m
  unique : ∀ name m n, loaded m = true → loaded n = true → s.hidOf name m = s.hidOf name n → m = n

theorem Hooked.congr (hooked : Hooked s loaded) (hooks : s'.hooks = s.hooks)
    (connectHid : s'.connectHid = s.connectHid) (disconnHid : s'.disconnHid = s.disconnHid)
    : Hooked s' loaded := by
  have hidOf (name : HookName) : s'.hidOf name = s.hidOf name := by
    cases name
    · exact connectHid
    · exact disconnHid
  constructor
  · intro name hid m
    rw [hooks, hidOf]
    exact hooked.handlers name hid m
  · intro name
    rw [hidOf]
    exact hooked.unique name

theorem Hooked.frame (hooked : Hooked s loaded) (frame : SameHooks s s') : Hooked s' loaded :=
  hooked.congr frame.hooks frame.connectHid frame.disconnHid

/-- A new handler, next to those of the other modules, with an id of its own. -/
theorem handlers_equipped (mdoc : mc.Documented) (s : Wiring lm mc) (m : IqModule)
    (name : HookName)
    : (mc.handlers (s.equipped m).hooks name).Perm
        (((s.equipped m).hidOf name m, m) :: mc.handlers s.hooks name)
      ∧ ∀ cell ∈ mc.handlers s.hooks name, cell.1 ≠ (s.equipped m).hidOf name m := by
  let first := (mc.hkAddHandler m .postConnect s.hooks).2
  obtain ⟨fresh, connect, others⟩ := mdoc.hkAddHandler m .postConnect s.hooks
  obtain ⟨fresh', disconn, others'⟩ := mdoc.hkAddHandler m .preDisconnect first
  cases name with
  | postConnect =>
      have same : mc.handlers (s.equipped m).hooks .postConnect = mc.handlers first .postConnect :=
        others' .postConnect (by decide)
      have own : (s.equipped m).hidOf .postConnect m = (mc.hkAddHandler m .postConnect s.hooks).1 :=
        Function.update_self _ _ _
      rw [same, own]
      exact ⟨connect, fresh⟩
  | preDisconnect =>
      have same : mc.handlers first .preDisconnect = mc.handlers s.hooks .preDisconnect :=
        others .preDisconnect (by decide)
      have own : (s.equipped m).hidOf .preDisconnect m
          = (mc.hkAddHandler m .preDisconnect first).1 :=
        Function.update_self _ _ _
      rw [own, ← same]
      exact ⟨disconn, fresh'⟩

theorem hidOf_equipped {n : IqModule} (other : n ≠ m) (name : HookName)
    : (s.equipped m).hidOf name n = s.hidOf name n := by
  cases name <;> exact Function.update_of_ne other _ _

theorem Hooked.equipped (mdoc : mc.Documented) (hooked : Hooked s loaded)
    (absent : loaded m = false)
    : Hooked (s.equipped m) (Function.update loaded m true) := by
  have own (name : HookName) {n : IqModule} (listed : loaded n = true)
      : s.hidOf name n ≠ (s.equipped m).hidOf name m :=
    (handlers_equipped mdoc s m name).2 _ ((hooked.handlers name _ n).mpr ⟨listed, rfl⟩)
  constructor
  · intro name hid n
    rw [(handlers_equipped mdoc s m name).1.mem_iff, List.mem_cons, Prod.mk.injEq,
      hooked.handlers name hid n]
    by_cases same : n = m
    · subst same
      simp [absent]
    · simp [same, hidOf_equipped same]
  · intro name n n' known known' same
    by_cases here : n = m
    · by_cases here' : n' = m
      · exact here.trans here'.symm
      · subst here
        rw [Function.update_of_ne here'] at known'
        rw [hidOf_equipped here'] at same
        exact absurd same.symm (own name known')
    · rw [Function.update_of_ne here] at known
      rw [hidOf_equipped here] at same
      by_cases here' : n' = m
      · subst here'
        exact absurd same (own name known)
      · rw [Function.update_of_ne here'] at known'
        rw [hidOf_equipped here'] at same
        exact hooked.unique name n n' known known' same

/-- A module takes its handlers off both hooks. -/
def Wiring.unhooked (s : Wiring lm mc) (m : IqModule) : Wiring lm mc :=
  { s with
    hooks := mc.hkDelHandler .preDisconnect (s.disconnHid m)
      (mc.hkDelHandler .postConnect (s.connectHid m) s.hooks) }

theorem mem_unhooked (mdoc : mc.Documented) (s : Wiring lm mc) (m : IqModule) {name : HookName}
    {hid : Nat} {n : IqModule}
    : (hid, n) ∈ mc.handlers (s.unhooked m).hooks name
      ↔ (hid, n) ∈ mc.handlers s.hooks name ∧ hid ≠ s.hidOf name m := by
  let first := mc.hkDelHandler .postConnect (s.connectHid m) s.hooks
  obtain ⟨connect, others⟩ := mdoc.hkDelHandler .postConnect (s.connectHid m) s.hooks
  obtain ⟨disconn, others'⟩ := mdoc.hkDelHandler .preDisconnect (s.disconnHid m) first
  cases name with
  | postConnect =>
      have same : mc.handlers (s.unhooked m).hooks .postConnect = mc.handlers first .postConnect :=
        others' .postConnect (by decide)
      rw [same, connect, List.mem_filter, decide_eq_true_iff]
      rfl
  | preDisconnect =>
      have same : mc.handlers first .preDisconnect = mc.handlers s.hooks .preDisconnect :=
        others .preDisconnect (by decide)
      change (hid, n) ∈ mc.handlers (mc.hkDelHandler .preDisconnect (s.disconnHid m) first)
        .preDisconnect ↔ _
      rw [disconn, List.mem_filter, decide_eq_true_iff, same]
      rfl

theorem Hooked.unhooked (mdoc : mc.Documented) (hooked : Hooked s loaded) (known : loaded m = true)
    : Hooked (s.unhooked m) (Function.update loaded m false) := by
  have other {n : IqModule} (known' : Function.update loaded m false n = true)
      : n ≠ m ∧ loaded n = true := by
    by_cases same : n = m
    · rw [same, Function.update_self] at known'
      cases known'
    · exact ⟨same, (Function.update_of_ne same _ _).symm.trans known'⟩
  constructor
  · intro name hid n
    rw [mem_unhooked mdoc s m, hooked.handlers name hid n]
    change _ ↔ _ ∧ hid = s.hidOf name n
    constructor
    · rintro ⟨⟨listed, rfl⟩, apart⟩
      have same : n ≠ m := fun here => apart (here ▸ rfl)
      exact ⟨(Function.update_of_ne same _ _).trans listed, rfl⟩
    · rintro ⟨known', rfl⟩
      obtain ⟨same, listed⟩ := other known'
      exact ⟨⟨listed, rfl⟩, fun here => same (hooked.unique name n m listed known here)⟩
  · exact fun name n n' known₁ known₂ same =>
      hooked.unique name n n' (other known₁).2 (other known₂).2 same

/-- Invalidating a handler and letting go of it. -/
theorem retire_done (doc : lm.Documented) (pos : 0 < lm.refs s.lm p)
    : lmMessageHandlerInvalidate (some p) s
        = .done () { s with lm := lm.messageHandlerInvalidate p s.lm }
      ∧ ∀ s₁ : Wiring lm mc, s₁.lm = lm.messageHandlerInvalidate p s.lm →
        lmMessageHandlerUnref (some p) s₁
          = .done () { s₁ with lm := lm.messageHandlerUnref p s₁.lm } := by
  refine ⟨(bind_done (handlerAt_done pos)).trans rfl, fun s₁ invalid => ?_⟩
  refine (bind_done (handlerAt_done ?_)).trans rfl
  rw [invalid, (doc.messageHandlerInvalidate p s.lm pos).refs]
  exact pos

/-- `jingle_uninit` leaves neither a hook nor a handler behind. -/
theorem jingleUninit_done (doc : lm.Documented) (mdoc : mc.Documented)
    (handled : Held s loaded listening) (hooked : Hooked s loaded) (known : loaded .jingle = true)
    : ∃ s', jingleUninit s = .done () s' ∧ s'.lconnection.isSome = s.lconnection.isSome
        ∧ Held s' (Function.update loaded .jingle false) (Function.update listening .jingle false)
        ∧ Hooked s' (Function.update loaded .jingle false) := by
  obtain ⟨p, handler, _⟩ := handled.own .jingle known
  let s₁ := s.unhooked .jingle
  have handled₁ : Held s₁ loaded listening := handled.congr rfl rfl
  have frame := sameHooks_without doc s₁ p
  have off := handled₁.without doc known handler
  have handler₂ : (s₁.without p).iqHandler .jingle = some p := by
    rw [frame.iqHandler]
    exact handler
  have gone := off.retired doc known handler₂
  rw [Function.update_idem] at gone
  have leaves := (s₁.without p).retired_leaves doc (off.pos known handler₂)
  obtain ⟨invalidated, dropped⟩ := retire_done doc (off.pos known handler₂)
  refine ⟨(s₁.without p).retired p, ?_, ?_, gone, ?_⟩
  · refine (bind_done (unregisterLmHandlers_done handled₁ known handler)).trans ?_
    rw [bind_get, handler₂, bind_done invalidated, bind_get]
    have handler₃ : ({ s₁.without p with
        lm := lm.messageHandlerInvalidate p (s₁.without p).lm } : Wiring lm mc).iqHandler .jingle
        = some p := handler₂
    rw [handler₃]
    exact dropped _ rfl
  · exact (congrArg Option.isSome leaves.connection).trans frame.connected
  · exact (hooked.unhooked mdoc known).congr frame.hooks frame.connectHid frame.disconnHid

/-- `jingle_ibb_uninit` may leave a handler registered, but an invalid one. -/
theorem jingleIbbUninit_done (doc : lm.Documented) (mdoc : mc.Documented)
    (handled : Held s loaded listening) (hooked : Hooked s loaded) (known : loaded .ibb = true)
    : ∃ s', jingleIbbUninit s = .done () s' ∧ s'.lconnection.isSome = s.lconnection.isSome
        ∧ Held s' (Function.update loaded .ibb false) (Function.update listening .ibb false)
        ∧ Hooked s' (Function.update loaded .ibb false) := by
  obtain ⟨p, handler, _⟩ := handled.own .ibb known
  obtain ⟨invalidated, dropped⟩ := retire_done doc (handled.pos known handler)
  have leaves := s.retired_leaves doc (handled.pos known handler)
  let s₁ : Wiring lm mc := { s with lm := lm.messageHandlerInvalidate p s.lm }
  have handler₁ : (s₁.unhooked .ibb).iqHandler .ibb = some p := handler
  refine ⟨(s.unhooked .ibb).retired p, ?_, congrArg Option.isSome leaves.connection, ?_, ?_⟩
  · unfold jingleIbbUninit
    rw [bind_get, handler, bind_done invalidated]
    change lmMessageHandlerUnref ((s₁.unhooked .ibb).iqHandler .ibb) (s₁.unhooked .ibb) = _
    rw [handler₁]
    exact dropped _ rfl
  · have handled₁ : Held (s.unhooked .ibb) loaded listening := handled.congr rfl rfl
    exact handled₁.retired doc known handler
  · exact (hooked.unhooked mdoc known).congr rfl rfl rfl

end Hooks

-----------------------------------------------------------------------------------------
-- Who is asked
-----------------------------------------------------------------------------------------

section Asked

variable {s : Wiring lm mc} {loaded listening : IqModule → Bool}

/-- A registered handler that is valid belongs to a loaded module. -/
theorem Held.owner {p : HandlerPtr} {h : LmMessageHandler} (handled : Held s loaded listening)
    (member : p ∈ s.registered) (value : lm.handler s.lm p = some h) (valid : h.valid = true)
    : loaded h.function = true ∧ s.iqHandler h.function = some p := by
  by_cases foreign : ∀ m, loaded m = true → s.iqHandler m ≠ some p
  · obtain ⟨h', value', invalid⟩ := handled.stale p member foreign
    rw [Option.some.inj (value.symm.trans value'), invalid] at valid
    cases valid
  · push Not at foreign
    obtain ⟨m, known, own⟩ := foreign
    obtain ⟨q, own', value'⟩ := handled.own m known
    rw [Option.some.inj (own'.symm.trans own), value] at value'
    rw [Option.some.inj value']
    exact ⟨known, own⟩

/-- No registered handler was freed. -/
theorem Held.readable (handled : Held s loaded listening)
    : s.registered.mapM (fun p => if lm.refs s.lm p = 0 then none else lm.handler s.lm p)
      = some (s.registered.filterMap (fun p => lm.handler s.lm p)) := by
  have each : ∀ p ∈ s.registered, 0 < lm.refs s.lm p ∧ ∃ h, lm.handler s.lm p = some h := by
    intro p member
    refine ⟨handled.balanced.pos (List.mem_append_right _ member), ?_⟩
    by_cases foreign : ∀ m, loaded m = true → s.iqHandler m ≠ some p
    · obtain ⟨h, value, _⟩ := handled.stale p member foreign
      exact ⟨h, value⟩
    · push Not at foreign
      obtain ⟨m, known, own⟩ := foreign
      obtain ⟨q, own', value⟩ := handled.own m known
      exact ⟨_, Option.some.inj (own'.symm.trans own) ▸ value⟩
  generalize s.registered = registered at each
  induction registered with
  | nil => rfl
  | cons p rest ih =>
      obtain ⟨pos, h, value⟩ := each p List.mem_cons_self
      have later := ih (fun q member => each q (List.mem_cons_of_mem _ member))
      simp [List.mapM_cons, Nat.ne_of_gt pos, value, later]

/-- The modules that listen are asked, each once. -/
theorem Held.asked (handled : Held s loaded listening)
    : ∃ asked, s.asked = some asked ∧ asked.Nodup ∧ ∀ m, m ∈ asked ↔ listening m = true := by
  let handlers := s.registered.filterMap (fun p => lm.handler s.lm p)
  let asked := (handlers.filter LmMessageHandler.valid).map LmMessageHandler.function
  have count (m : IqModule) : asked.count m = if listening m then 1 else 0 := by
    have each : asked.count m = s.registered.countP
        (fun p => (lm.handler s.lm p).any (fun h => h.function == m && h.valid)) := by
      rw [List.count_eq_countP, List.countP_map, List.countP_filter, List.countP_filterMap]
      refine List.countP_congr (fun p _ => ?_)
      cases lm.handler s.lm p <;> simp
    rw [each]
    cases known : loaded m with
    | true =>
        obtain ⟨p, own, value⟩ := handled.own m known
        rw [← handled.registered m p known own, List.count_eq_countP]
        refine List.countP_congr (fun q member => ?_)
        rw [Option.any_eq_true, beq_iff_eq]
        constructor
        · rintro ⟨h, value', valid⟩
          rw [Bool.and_eq_true, beq_iff_eq] at valid
          obtain ⟨_, own'⟩ := handled.owner member value' valid.2
          rw [valid.1] at own'
          exact Option.some.inj (own'.symm.trans own)
        · rintro rfl
          exact ⟨_, value, by simp⟩
    | false =>
        have deaf : listening m = false := by
          cases heard : listening m with
          | false => rfl
          | true => exact absurd (handled.silent m heard) (by simp [known])
        rw [deaf]
        refine List.countP_eq_zero.mpr (fun q member found => ?_)
        obtain ⟨h, value, valid⟩ := (Option.any_eq_true _ _).mp found
        rw [Bool.and_eq_true, beq_iff_eq] at valid
        obtain ⟨known', _⟩ := handled.owner member value valid.2
        rw [valid.1, known] at known'
        cases known'
  refine ⟨asked, by rw [Wiring.asked, handled.readable]; rfl, ?_, fun m => ?_⟩
  · refine List.nodup_iff_count.mpr (fun m => ?_)
    rw [count]
    split <;> simp
  · rw [← List.count_pos_iff, count]
    split <;> simp_all

end Asked

end McabberJingle
