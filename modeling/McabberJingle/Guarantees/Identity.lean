import McabberJingle.Effects.Machine
import McabberJingle.System.Execution

/-! No two listed sessions share their sid and their peer, so the lookup by both finds the
session it is meant to find. Incoming sessions are created only after the lookup failed;
outgoing ones rely on the sid that mcabber generates.
-/

namespace McabberJingle

open Program

/-- The same sid and, up to ASCII case, the same peer: one key for the lookup. -/
def SameKey (js js' : JingleSession) : Prop :=
  js.sid = js'.sid ∧ asciiLower js.recipient = asciiLower js'.recipient

instance (js js' : JingleSession) : Decidable (SameKey js js') := by
  unfold SameKey
  infer_instance

/-- No two listed sessions have one key. -/
def UniqueSessions (s : State) : Prop :=
  ∀ p js q js', s.sessions.get? p = some js → s.sessions.get? q = some js' →
    SameKey js js' → p = q

theorem SameKey.symm {js js' : JingleSession} (same : SameKey js js') : SameKey js' js :=
  ⟨same.1.symm, same.2.symm⟩

/-- A lookup that fails excludes every listed session with that key. -/
theorem not_sameKey_of_absent {s : State} {p : SessionPtr} {js new : JingleSession}
    (absent : sessionFindBySid s new.sid (some new.recipient) = none)
    (listed : s.sessions.get? p = some js)
    : ¬SameKey js new := by
  rintro ⟨sid, peer⟩
  have miss := List.find?_eq_none.mp absent (p, js) (Pool.get?_eq_some_iff.mp listed)
  simp [gAsciiStrcaseeq, sid, peer] at miss

/-- With unique keys the lookup under a session's own key finds it. -/
theorem UniqueSessions.find {s : State} (unique : UniqueSessions s) {p : SessionPtr}
    {js : JingleSession} (listed : s.sessions.get? p = some js)
    : sessionFindBySid s js.sid (some js.recipient) = some (p, js) := by
  have member : (p, js) ∈ s.sessions.cells := Pool.get?_eq_some_iff.mp listed
  have hits : (s.sessions.cells.find? (fun cell => cell.2.sid == js.sid
      && gAsciiStrcaseeq (some cell.2.recipient) (some js.recipient))).isSome :=
    List.find?_isSome.mpr ⟨(p, js), member, by simp [gAsciiStrcaseeq]⟩
  obtain ⟨⟨q, js'⟩, found⟩ := Option.isSome_iff_exists.mp hits
  have found' : sessionFindBySid s js.sid (some js.recipient) = some (q, js') := found
  obtain ⟨sid, peer⟩ := sessionFindBySid_key found'
  have same : SameKey js' js := ⟨sid, by simpa [gAsciiStrcaseeq] using peer⟩
  have listed' := sessionFindBySid_listed found'
  cases unique q js' p js listed' listed same
  cases listed.symm.trans listed'
  exact found'

-----------------------------------------------------------------------------------------
-- Every change keeps keys apart
-----------------------------------------------------------------------------------------

/-- Everything is allowed, but an outgoing session must get a key no listed session has. -/
def Rights.freshKeys : Rights :=
  { Rights.all with
    openSession := fun s new => new.origin = .outgoing →
      ∀ p js, s.sessions.get? p = some js → ¬SameKey js new }

/-- Only the creation of a session can make two keys meet. -/
theorem uniqueSessions_stable : Stable .freshKeys UniqueSessions := by
  intro s s' unique effect
  cases effect with
  | content p js g listed change =>
      intro a jsA b jsB foundA foundB same
      obtain ⟨oldA, thereA, rfl⟩ := Pool.get?_modify_eq_some.mp foundA
      obtain ⟨oldB, thereB, rfl⟩ := Pool.get?_modify_eq_some.mp foundB
      refine unique a oldA b oldB thereA thereB ?_
      -- a rewrite of contents leaves both keys as they are
      have key (q : SessionPtr) (old : JingleSession)
          : (if q = p then { old with content := g old.content } else old).sid = old.sid
            ∧ (if q = p then { old with content := g old.content } else old).recipient
              = old.recipient := by
        split <;> exact ⟨rfl, rfl⟩
      have sameSid := same.1
      have samePeer := same.2
      rw [(key a oldA).1, (key b oldB).1] at sameSid
      rw [(key a oldA).2, (key b oldB).2] at samePeer
      exact ⟨sameSid, samePeer⟩
  | openSession new empty allowed absent =>
      have apart (p : SessionPtr) (js : JingleSession) (listed : s.sessions.get? p = some js)
          : ¬SameKey js new := by
        cases origin : new.origin with
        | incoming => exact not_sameKey_of_absent (absent origin) listed
        | outgoing => exact allowed origin p js listed
      intro a jsA b jsB foundA foundB same
      rcases Pool.get?_alloc_eq_some.mp foundA with ⟨rfl, rfl⟩ | oldA
      · rcases Pool.get?_alloc_eq_some.mp foundB with ⟨rfl, _⟩ | oldB
        · rfl
        · exact absurd same.symm (apart b jsB oldB)
      · rcases Pool.get?_alloc_eq_some.mp foundB with ⟨rfl, rfl⟩ | oldB
        · exact absurd same (apart a jsA oldA)
        · exact unique a jsA b jsB oldA oldB same
  | close p allowed =>
      intro a jsA b jsB foundA foundB same
      exact unique a jsA b jsB (Pool.get?_erase_eq_some.mp foundA).2
        (Pool.get?_erase_eq_some.mp foundB).2 same
  | finish p js reason listed allowed outward =>
      intro a jsA b jsB foundA foundB same
      exact unique a jsA b jsB (Pool.get?_erase_eq_some.mp foundA).2
        (Pool.get?_erase_eq_some.mp foundB).2 same
  | _ => exact unique

-----------------------------------------------------------------------------------------
-- Runs
-----------------------------------------------------------------------------------------

/-- The sid generated for a new transfer is not in use with its recipient. -/
def FreshSid (s : State) (input : StepInput) : Prop :=
  input.2.offers = true → ∀ jid ∈ input.1.currentJid, ∀ resource ∈ input.1.compatibleRes,
    ∀ cell ∈ s.sessions.cells, ¬SameKey cell.2 (offerSession input.1 (jid ++ "/" ++ resource))

instance (s : State) (input : StepInput) : Decidable (FreshSid s input) := by
  unfold FreshSid
  infer_instance

theorem freshKeys_generous : Generous .freshKeys := by
  constructor <;> intros <;> trivial

/-- Keys stay apart in every run whose generated sids are fresh. -/
theorem uniqueSessions_reached {env : Env} {s : State} (run : ReachableBy env FreshSid s)
    : UniqueSessions s := by
  refine reached_invariant run ?_ ?_
  · intro s initial p js q js' found
    rw [initial.sessions] at found
    cases found
  · intro s w input unique _ fresh _
    refine ⟨.freshKeys, UniqueSessions, uniqueSessions_stable, unique, fun _ h _ => h, ?_⟩
    refine freshKeys_generous.mayHandle (fun _ => And.right) env ?_ ?_ ?_ ?_
    · exact fun _ _ js incoming outgoing => by cases incoming.symm.trans outgoing
    · intro offers jid jidKnown resource resourceKnown s₁ _ sameSessions _ p js listed
      rw [sameSessions] at listed
      have there := Pool.get?_eq_some_iff.mp listed
      exact fresh offers jid jidKnown resource resourceKnown (p, js) there
    · exact fun _ _ _ _ _ _ => trivial
    · exact Or.inr (fun _ => ⟨trivial, trivial⟩)

/-- In every reachable state a session is the only one with its sid and peer, and the lookup
under them returns it.
-/
theorem session_identity (env : Env) (s : State) (run : ReachableBy env FreshSid s)
    : (∀ p js q js', s.sessions.get? p = some js → s.sessions.get? q = some js' →
        js.sid = js'.sid → gAsciiStrcaseeq (some js.recipient) (some js'.recipient) = true →
        p = q)
      ∧ ∀ p js, s.sessions.get? p = some js →
          sessionFindBySid s js.sid (some js.recipient) = some (p, js) := by
  have unique := uniqueSessions_reached run
  refine ⟨?_, fun p js listed => unique.find listed⟩
  intro p js q js' foundP foundQ sid peer
  exact unique p js q js' foundP foundQ ⟨sid, by simpa [gAsciiStrcaseeq] using peer⟩

/-- Two peers use one sid, and a file is offered to one of them. -/
def threeSessions : List StepInput := [
  (plainWorld, .jingleIq
    (jingleSet "romeo@verona/a" "session-initiate" "s1" [offeredContent "file" "b1"])),
  (plainWorld, .jingleIq
    (jingleSet "juliet@verona/b" "session-initiate" "s1" [offeredContent "file" "b2"])),
  (offeringWorld [], .jftSend (some "notes"))
]

theorem session_identity_three
    : ∃ s, ReachableBy plainEnv FreshSid s ∧ s.sessions.cells.length = 3
        ∧ (∀ p js q js', s.sessions.get? p = some js → s.sessions.get? q = some js' →
          js.sid = js'.sid → gAsciiStrcaseeq (some js.recipient) (some js'.recipient) = true →
          p = q)
        ∧ ∀ p js, s.sessions.get? p = some js →
            sessionFindBySid s js.sid (some js.recipient) = some (p, js) := by
  have passed : (execute plainEnv FreshSid loaded threeSessions).any
      (fun s => s.sessions.cells.length == 3) = true := by decide +kernel
  obtain ⟨s, run, three⟩ := execute_any _ (loaded_reached plainEnv FreshSid) passed
  exact ⟨s, run, by simpa using three, session_identity plainEnv s run⟩

end McabberJingle
