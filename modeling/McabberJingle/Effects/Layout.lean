import Mathlib.Data.List.Pairwise
import McabberJingle.Effects.Effect

/-! Which objects the listed contents point to: every address was handed out, addresses are
never handed out twice, and no two sessions share a transport.
-/

namespace McabberJingle

open Program Program.Prog

-----------------------------------------------------------------------------------------
-- Addresses handed out
-----------------------------------------------------------------------------------------

/-- Addresses that were handed out in `s₀` stay handed out. -/
structure Since (s₀ s : State) : Prop where
  sessions : s₀.sessions.next ≤ s.sessions.next
  infoList : s₀.infoList.next ≤ s.infoList.next
  transports : s₀.transports.next ≤ s.transports.next

theorem Since.refl (s : State) : Since s s :=
  ⟨Nat.le_refl _, Nat.le_refl _, Nat.le_refl _⟩

theorem Since.trans {s₀ s₁ s₂ : State} (first : Since s₀ s₁) (second : Since s₁ s₂)
    : Since s₀ s₂ :=
  ⟨Nat.le_trans first.sessions second.sessions, Nat.le_trans first.infoList second.infoList,
    Nat.le_trans first.transports second.transports⟩

theorem since_effect {r : Rights} {s s' : State} (effect : Effect r s s') : Since s s' := by
  have same := Since.refl s
  cases effect with
  | openSession js empty allowed absent => exact { same with sessions := Nat.le_succ _ }
  | newFt jft allowed => exact { same with infoList := Nat.le_succ _ }
  | newTransport transport empty => exact { same with transports := Nat.le_succ _ }
  | stream sid t allowed known replaced =>
      refine { same with transports := ?_ }
      dsimp only
      cases Ibb.lookup s sid with
      | none => exact same.transports
      | some old => exact same.transports
  | _ => exact ⟨same.sessions, same.infoList, same.transports⟩

theorem Stable.since {r : Rights} {inv : State → Prop} (stable : Stable r inv) (s₀ : State)
    : Stable r (fun s => inv s ∧ Since s₀ s) :=
  fun _ _ holds effect =>
    ⟨stable _ _ holds.1 effect, holds.2.trans (since_effect effect)⟩

-----------------------------------------------------------------------------------------
-- What a change adds to the listed contents
-----------------------------------------------------------------------------------------

section Contents

variable {r : Rights} {s s' : State} {p : SessionPtr}

/-- A session listed after a change was listed before, is new and empty, or had its contents
rewritten while the other sessions stayed as they were.
-/
theorem listed_effect (effect : Effect r s s') {js : JingleSession}
    (listed : s'.sessions.get? p = some js)
    : s.sessions.get? p = some js
      ∨ (js.content = [] ∧ p = s.sessions.next ∧ r.openSession s js)
      ∨ ∃ old, s.sessions.get? p = some old ∧ js = { old with content := js.content }
          ∧ ContentChange r s p old.content js.content
          ∧ ∀ q, q ≠ p → s'.sessions.get? q = s.sessions.get? q := by
  cases effect with
  | content q old g there change =>
      obtain ⟨before, listedBefore, same⟩ := Pool.get?_modify_eq_some.mp listed
      by_cases here : p = q
      · subst here
        rw [if_pos rfl] at same
        cases there.symm.trans listedBefore
        subst same
        exact Or.inr (Or.inr ⟨old, there, rfl, change, fun q other =>
          Pool.get?_modify_of_ne _ other⟩)
      · rw [if_neg here] at same
        exact Or.inl (same ▸ listedBefore)
  | openSession new empty allowed absent =>
      rcases Pool.get?_alloc_eq_some.mp listed with ⟨new, rfl⟩ | old
      · exact Or.inr (Or.inl ⟨empty, new, allowed⟩)
      · exact Or.inl old
  | close q allowed => exact Or.inl (Pool.get?_erase_eq_some.mp listed).2
  | finish q js' reason there allowed outward =>
      exact Or.inl (Pool.get?_erase_eq_some.mp listed).2
  | _ => exact Or.inl listed

/-- A session listed now with its origin, or a new and empty one. -/
theorem origin_effect (effect : Effect r s s') {js : JingleSession}
    (listed : s'.sessions.get? p = some js)
    : (∃ old, s.sessions.get? p = some old ∧ old.origin = js.origin)
      ∨ p = s.sessions.next ∧ r.openSession s js := by
  rcases listed_effect effect listed with same | ⟨_, new⟩ | ⟨old, there, same, _⟩
  · exact Or.inl ⟨js, same, rfl⟩
  · exact Or.inr new
  · exact Or.inl ⟨old, there, by rw [same]⟩

theorem active_effect (effect : Effect r s s') (after : Active s' p)
    : Active s p ∨ r.activate p := by
  obtain ⟨js, listed, sc, member, active⟩ := after
  rcases listed_effect effect listed with same | ⟨empty, _⟩ | ⟨old, there, _, change, _⟩
  · exact Or.inl ⟨js, same, sc, member, active⟩
  · rw [empty] at member
    cases member
  · exact ((change.inherits member).active active).imp_left (fun before => ⟨old, there, before⟩)

theorem describes_effect (effect : Effect r s s') {d : FtPtr} (after : Describes s' p d)
    : Describes s p d ∨ r.describe p d ∧ d < s.infoList.next := by
  obtain ⟨js, listed, sc, member, described⟩ := after
  rcases listed_effect effect listed with same | ⟨empty, _⟩ | ⟨old, there, _, change, _⟩
  · exact Or.inl ⟨js, same, sc, member, described⟩
  · rw [empty] at member
    cases member
  · exact ((change.inherits member).description d described).imp_left
      (fun before => ⟨old, there, before⟩)

theorem carries_effect (effect : Effect r s s') {t : TransportPtr} (after : Carries s' p t)
    : Carries s p t ∨ r.carry p t ∧ t < s.transports.next ∧ OnlyAt s' p t := by
  obtain ⟨js, listed, sc, member, carried⟩ := after
  rcases listed_effect effect listed with same | ⟨empty, _⟩ | ⟨old, there, _, change, others⟩
  · exact Or.inl ⟨js, same, sc, member, carried⟩
  · rw [empty] at member
    cases member
  · rcases (change.inherits member).transport t carried with before | ⟨carry, known, fresh⟩
    · exact Or.inl ⟨old, there, before⟩
    · refine Or.inr ⟨carry, known, fun q ⟨js', listed', carried'⟩ => ?_⟩
      by_cases here : q = p
      · exact here
      · exact absurd ⟨js', (others q here) ▸ listed', carried'⟩ (fresh q)

/-- A transfer after a change is as old as it was and goes the same way, or is new. -/
theorem ft_effect (effect : Effect r s s') {d : FtPtr} {ft : JingleFT}
    (after : s'.infoList.get? d = some ft)
    : (∃ old, s.infoList.get? d = some old ∧ old.dir = ft.dir)
      ∨ d = s.infoList.next ∧ r.newFt ft.dir := by
  cases effect with
  | ft d' f allowed change =>
      obtain ⟨old, before, rfl⟩ := Pool.get?_modify_eq_some.mp after
      refine Or.inl ⟨old, before, ?_⟩
      split
      · exact (change.direction old).symm
      · rfl
  | newFt jft allowed =>
      rcases Pool.get?_alloc_eq_some.mp after with ⟨new, rfl⟩ | before
      · exact Or.inr ⟨new, allowed⟩
      · exact Or.inl ⟨ft, before, rfl⟩
  | flush d' jft there finished allowed =>
      exact Or.inl ⟨ft, (Pool.get?_erase_eq_some.mp after).2, rfl⟩
  | _ => exact Or.inl ⟨ft, after, rfl⟩

/-- Bytes wait for the file of a listed transfer. -/
def Unflushed (s : State) (d : FtPtr) : Prop :=
  ∃ ft, s.infoList.get? d = some ft ∧ ft.waiting ≠ []

/-- Bytes that wait after a change did before, or the file may be written. -/
theorem unflushed_effect (effect : Effect r s s') {d : FtPtr} (after : Unflushed s' d)
    : Unflushed s d ∨ r.disk d := by
  obtain ⟨ft, listed, some⟩ := after
  cases effect with
  | ft d' f allowed change =>
      obtain ⟨old, before, rfl⟩ := Pool.get?_modify_eq_some.mp listed
      split at some
      · rename_i same
        subst same
        exact (change.filling old some).imp_left (fun waited => ⟨old, before, waited⟩)
      · exact Or.inl ⟨old, before, some⟩
  | newFt jft allowed empty =>
      rcases Pool.get?_alloc_eq_some.mp listed with ⟨_, rfl⟩ | before
      · exact absurd empty some
      · exact Or.inl ⟨ft, before, some⟩
  | flush d' jft there finished allowed =>
      exact Or.inl ⟨ft, (Pool.get?_erase_eq_some.mp listed).2, some⟩
  | _ => exact Or.inl ⟨ft, listed, some⟩

/-- What a transport after a change is: what it was, or rewritten, or a stream that sent one more
packet, or new.
-/
inductive TransportFrom (r : Rights) (s s' : State) (t : TransportPtr) (new : Transport) : Prop
  | same (before : s.transports.get? t = some new)
  | rewritten (old : Transport) (before : s.transports.get? t = some old)
    (allowed : r.transport t)
    (buffered : old.buffered = [] → new.buffered ≠ [] → Feeding s t)
    (kept : StreamsKept r old new)
  | sent (jibb : JingleIBB) (before : s.transports.get? t = some (.ibb jibb))
    (next : new = .ibb { jibb with seq := jibb.seq + 1 }) (logged : s'.packets ≠ s.packets)
  | made (fresh : t = s.transports.next) (empty : new.buffered = [])
    (stream : ∀ jibb, new = .ibb jibb → jibb.seq = 0
      ∧ jibb.blocksize ≤ IBB_BLOCK_SIZE_MAX ∧ r.blockSize jibb.blocksize)

theorem transport_effect (effect : Effect r s s') {t : TransportPtr} {new : Transport}
    (after : s'.transports.get? t = some new)
    : TransportFrom r s s' t new := by
  cases effect with
  | newTransport made empty fresh =>
      rcases Pool.get?_alloc_eq_some.mp after with ⟨here, rfl⟩ | before
      · exact .made here empty fresh
      · exact .same before
  | transport t' f allowed buffered kept =>
      obtain ⟨old, before, rfl⟩ := Pool.get?_modify_eq_some.mp after
      by_cases here : t = t'
      · subst here
        rw [if_pos rfl]
        exact .rewritten old before allowed (buffered old before) (kept old before)
      · rw [if_neg here]
        exact .same before
  | packet p js t' jibb sc env buf listed carries found =>
      obtain ⟨old, before, rfl⟩ := Pool.get?_modify_eq_some.mp after
      by_cases here : t = t'
      · subst here
        rw [if_pos rfl]
        exact .sent jibb found rfl (by simp)
      · rw [if_neg here]
        exact .same before
  | stream sid t' allowed known replaced =>
      refine .same ?_
      dsimp only at after
      cases bound : Ibb.lookup s sid with
      | none => rwa [bound] at after
      | some old =>
          rw [bound] at after
          exact (Pool.get?_erase_eq_some.mp after).2
  | _ => exact .same after

/-- Bytes wait in a transport after a change when they did before, or when it is fed. -/
theorem buffered_effect (effect : Effect r s s') {t : TransportPtr} {transport : Transport}
    (after : s'.transports.get? t = some transport) (full : transport.buffered ≠ [])
    : (∃ old, s.transports.get? t = some old ∧ old.buffered ≠ [])
      ∨ r.transport t ∧ Feeding s t := by
  cases transport_effect effect after with
  | same before => exact Or.inl ⟨transport, before, full⟩
  | rewritten old before allowed buffered kept =>
      by_cases waiting : old.buffered = []
      · exact Or.inr ⟨allowed, buffered waiting full⟩
      · exact Or.inl ⟨old, before, waiting⟩
  | sent jibb before next logged =>
      subst next
      exact Or.inl ⟨.ibb jibb, before, full⟩
  | made fresh empty stream => exact absurd empty full

/-- What a change enters in the table of streams was allocated before. -/
theorem stream_effect (effect : Effect r s s') {entry : String × TransportPtr}
    (after : entry ∈ s'.jingleIBBs)
    : entry ∈ s.jingleIBBs ∨ entry.2 < s.transports.next := by
  cases effect with
  | stream sid t allowed known replaced =>
      rcases List.mem_append.mp after with before | new
      · exact Or.inl (List.mem_filter.mp before).1
      · rw [List.mem_singleton.mp new]
        exact Or.inr known
  | _ => exact Or.inl after

/-- A fed transport and an outgoing file belong to one session. -/
theorem Feeding.session {t : TransportPtr} (feeding : Feeding s t)
    : ∃ q js d ft, s.sessions.get? q = some js ∧ Carries s q t ∧ Describes s q d
        ∧ s.infoList.get? d = some ft ∧ ft.dir = .outgoing := by
  obtain ⟨q, js, sc, d, ft, listed, member, carried, described, there, direction⟩ := feeding
  exact ⟨q, js, d, ft, listed, ⟨js, listed, sc, member, carried⟩,
    ⟨js, listed, sc, member, described⟩, there, direction⟩

end Contents

-----------------------------------------------------------------------------------------
-- The layout
-----------------------------------------------------------------------------------------

/-- Listed contents and the table of streams point to addresses that were handed out, and a
transport belongs to one content of one session. What they point to may have been freed since.
-/
structure Layout (s : State) : Prop where
  described : ∀ p d, Describes s p d → d < s.infoList.next
  carried : ∀ p t, Carries s p t → t < s.transports.next
  apart : ∀ p q t, Carries s p t → Carries s q t → p = q
  within : ∀ p js, s.sessions.get? p = some js → js.content.Pairwise SessionContent.Apart
  streams : ∀ entry ∈ s.jingleIBBs, entry.2 < s.transports.next

theorem layout_effect {r : Rights} {s s' : State} (layout : Layout s) (effect : Effect r s s')
    : Layout s' := by
  have since := since_effect effect
  refine ⟨?described, ?carried, ?apart, ?within, ?streams⟩
  case described =>
    intro p d after
    rcases describes_effect effect after with before | ⟨_, known⟩
    · exact Nat.lt_of_lt_of_le (layout.described p d before) since.infoList
    · exact Nat.lt_of_lt_of_le known since.infoList
  case carried =>
    intro p t after
    rcases carries_effect effect after with before | ⟨_, known, _⟩
    · exact Nat.lt_of_lt_of_le (layout.carried p t before) since.transports
    · exact Nat.lt_of_lt_of_le known since.transports
  case apart =>
    intro p q t carriedP carriedQ
    rcases carries_effect effect carriedP with beforeP | ⟨_, _, only⟩
    · rcases carries_effect effect carriedQ with beforeQ | ⟨_, _, only⟩
      · exact layout.apart p q t beforeP beforeQ
      · exact only p carriedP
    · exact (only q carriedQ).symm
  case within =>
    intro p js listed
    rcases listed_effect effect listed with same | ⟨empty, _⟩ | ⟨old, there, _, change, _⟩
    · exact layout.within p js same
    · rw [empty]
      exact List.Pairwise.nil
    · exact change.apart (layout.within p old there) ⟨old, there, rfl⟩
  case streams =>
    intro entry member
    rcases stream_effect effect member with before | known
    · exact Nat.lt_of_lt_of_le (layout.streams entry before) since.transports
    · exact Nat.lt_of_lt_of_le known since.transports

/-- Contents that carry the same transport are the same content of the same session. -/
theorem Layout.carrier_unique {s : State} (layout : Layout s)
    {t : TransportPtr} {p p' : SessionPtr} {js js' : JingleSession} {sc sc' : SessionContent}
    (listed : s.sessions.get? p = some js) (listed' : s.sessions.get? p' = some js')
    (member : sc ∈ js.content) (member' : sc' ∈ js'.content) (carried : sc.transport = some t)
    (carried' : sc'.transport = some t)
    : p = p' ∧ sc = sc' := by
  have same : p = p' :=
    layout.apart p p' t ⟨js, listed, sc, member, carried⟩ ⟨js', listed', sc', member', carried'⟩
  subst same
  cases listed.symm.trans listed'
  refine ⟨rfl, ?_⟩
  by_contra differ
  have symm : Std.Symm SessionContent.Apart := ⟨fun a b apart t has has' => apart t has' has⟩
  exact (layout.within p js listed).forall member member' differ t carried carried'

theorem Stable.layout {r : Rights} {inv : State → Prop} (stable : Stable r inv)
    : Stable r (fun s => inv s ∧ Layout s) :=
  fun _ _ holds effect => ⟨stable _ _ holds.1 effect, layout_effect holds.2 effect⟩

end McabberJingle
