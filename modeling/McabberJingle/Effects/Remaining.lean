import McabberJingle.Effects.Machine

/-! What remains of the sessions and of those who wait for them after a stretch of code that
may only touch some of the sessions.
-/

namespace McabberJingle

open Program Program.Prog

variable {s₀ s s' : State} {gone : SessionPtr → Prop} {asked : AckCallback → Prop}
  {p : SessionPtr}

/-- The session is in the list. -/
def Listed (s : State) (p : SessionPtr) : Prop := ∃ js, s.sessions.get? p = some js

/-- Since `s₀` only sessions in `gone` came, went or lost contents, the only new callbacks for
replies are those in `asked`, and no event is new.
-/
structure Remains (gone : SessionPtr → Prop) (asked : AckCallback → Prop) (s₀ s : State)
    : Prop where
  sessions : ∀ p js, ¬gone p → s₀.sessions.get? p = some js →
    ∃ js', s.sessions.get? p = some js'
      ∧ js'.content.map SessionContent.name = js.content.map SessionContent.name
  since : ∀ p, Listed s p → Listed s₀ p ∨ gone p
  handles : ∀ ah handle callback, s.ackHandlers.get? ah = some handle →
    handle.callback = some callback → s₀.ackHandlers.get? ah = some handle ∨ asked callback
  events : ∀ id p, s.events.get? id = some p → s₀.events.get? id = some p

/-- Sessions in `gone` may be made, lose contents and be removed, and `asked` may be left
behind.
-/
def Rights.remaining (gone : SessionPtr → Prop) (asked : AckCallback → Prop) : Rights :=
  { Rights.all with
    build := gone
    drop := fun p _ => gone p
    openSession := fun s _ => gone s.sessions.next
    close := gone
    await := asked
    ask := fun _ => False }

theorem Remains.refl (gone : SessionPtr → Prop) (asked : AckCallback → Prop) (s : State)
    : Remains gone asked s s :=
  ⟨fun _ js _ listed => ⟨js, listed, rfl⟩, fun _ listed => Or.inl listed,
    fun _ _ _ there _ => Or.inl there, fun _ _ pending => pending⟩

/-- Only sessions, handles and events matter. -/
theorem Remains.congr (remains : Remains gone asked s₀ s) (sessions : s'.sessions = s.sessions)
    (handles : s'.ackHandlers = s.ackHandlers) (events : s'.events = s.events)
    : Remains gone asked s₀ s' where
  sessions := by
    rw [sessions]
    exact remains.sessions
  since := by
    simp only [Listed, sessions]
    exact remains.since
  handles := by
    rw [handles]
    exact remains.handles
  events := by
    rw [events]
    exact remains.events

theorem Remains.erase (remains : Remains gone asked s₀ s) (allowed : gone p)
    : Remains gone asked s₀ { s with sessions := s.sessions.erase p } := by
  refine { remains with sessions := fun q js safe listed => ?_, since := fun q listed => ?_ }
  · obtain ⟨js', listed', same⟩ := remains.sessions q js safe listed
    have other : q ≠ p := fun here => safe (here ▸ allowed)
    exact ⟨js', (Pool.get?_erase_of_ne other).trans listed', same⟩
  · obtain ⟨js, listed⟩ := listed
    exact remains.since q ⟨js, (Pool.get?_erase_eq_some.mp listed).2⟩

theorem Remains.opened (remains : Remains gone asked s₀ s) (js : JingleSession)
    (allowed : gone s.sessions.next)
    : Remains gone asked s₀ (s.opening js) := by
  refine { remains with sessions := fun q old safe listed => ?_, since := fun q listed => ?_ }
  · obtain ⟨js', listed', same⟩ := remains.sessions q old safe listed
    exact ⟨js', (Pool.get?_alloc_of_lt _ (Pool.lt_next listed')).trans listed', same⟩
  · obtain ⟨js', listed⟩ := listed
    rcases Pool.get?_alloc_eq_some.mp listed with ⟨rfl, _⟩ | old
    · exact Or.inr allowed
    · exact remains.since q ⟨js', old⟩

theorem Remains.requested (remains : Remains gone asked s₀ s) (ident : SessionIdent)
    (iq : LmMessage) {callback : Option AckCallback} (timeout : Nat) (sendOk : Bool)
    (await : ∀ cb, callback = some cb → asked cb)
    : Remains gone asked s₀ (s.requested ident iq callback timeout sendOk) := by
  refine { remains with handles := fun ah handle cb found calls => ?_ }
  rcases Pool.get?_alloc_eq_some.mp found with ⟨_, rfl⟩ | old
  · exact Or.inr (await cb calls)
  · exact remains.handles ah handle cb old calls

/-- A rewrite leaves the names of the contents, except where contents may come and go. -/
theorem ContentChange.names {old new : List SessionContent}
    (change : ContentChange (.remaining gone asked) s p old new) (safe : ¬gone p)
    : new.map SessionContent.name = old.map SessionContent.name := by
  cases change with
  | changeState name state allowed active forward =>
      rw [map_updateFirst]
      exact fun _ => rfl
  | remove name allowed drop => exact absurd drop safe
  | append name allowed => exact absurd allowed safe
  | dropLast allowed => exact absurd allowed safe
  | supplyApp supplied allowed => exact absurd allowed safe
  | supplyTrans supplied allowed => exact absurd allowed safe
  | supplyTransFor app supplied allowed => exact absurd allowed safe
  | fillApp name xmlns appfuncs d allowed => exact absurd allowed safe
  | fillTrans name xmlns transfuncs t allowed => exact absurd allowed safe

theorem Remains.rewritten (remains : Remains gone asked s₀ s)
    {g : List SessionContent → List SessionContent}
    (names : ∀ js, ¬gone p → s.sessions.get? p = some js →
      (g js.content).map SessionContent.name = js.content.map SessionContent.name)
    : Remains gone asked s₀ (s.withContent p g) := by
  refine { remains with sessions := fun q old safe listed => ?_, since := fun q listed => ?_ }
  · obtain ⟨js', listed', same⟩ := remains.sessions q old safe listed
    by_cases here : q = p
    · subst here
      exact ⟨_, State.withContent_listed listed' g, (names js' safe listed').trans same⟩
    · exact ⟨js', (Pool.get?_modify_of_ne _ here).trans listed', same⟩
  · obtain ⟨js, listed⟩ := listed
    obtain ⟨old, listed, _⟩ := Pool.get?_modify_eq_some.mp listed
    exact remains.since q ⟨old, listed⟩

theorem remains_stable : Stable (.remaining gone asked) (Remains gone asked s₀) := by
  intro s s' remains effect
  cases effect with
  | content q js g listed change =>
      refine remains.rewritten (fun js' safe listed' => ?_)
      cases listed.symm.trans listed'
      exact change.names safe
  | openSession js empty allowed => exact remains.opened js allowed
  | close q allowed => exact remains.erase allowed
  | finish q js reason listed allowed outward =>
      exact (remains.requested _ _ 0 true (fun _ none => by cases none)).erase allowed
  | request q js iq callback timeout sendOk listed request timed =>
      refine remains.requested _ _ timeout sendOk ?_
      cases request with
      | addressed address more await => exact await
      | outward address allowed more await => exact await
      | decline reason allowed decline => exact fun _ none => by cases none
  | packet q js t jibb sc env buf listed carries found allowed outward await =>
      have awaits (cb : AckCallback) (same : some (.ibbSend sc) = some cb) : asked cb := by
        cases same
        exact await
      exact (remains.requested (js.ident q) (ibbDataIq env js.toJid buf jibb.sid jibb.seq) 0 true
        awaits).congr rfl rfl rfl
  | ask q allowed => exact allowed.elim
  | answered id =>
      refine { remains with events := fun other p pending => ?_ }
      exact remains.events other p (Pool.get?_erase_eq_some.mp pending).2
  | free ah allowed =>
      refine { remains with handles := fun other handle callback found calls => ?_ }
      exact remains.handles other handle callback (Pool.get?_erase_eq_some.mp found).2 calls
  | _ => exact remains.congr rfl rfl rfl

end McabberJingle
