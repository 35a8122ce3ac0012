import McabberJingle.Effects.Machine
import McabberJingle.Guarantees.Atomicity
import McabberJingle.Jingle.Numbers
import McabberJingle.Transfer.Pump

/-! Negotiated block sizes: which `block-size` of the peer is taken as it should be, and what
the block sizes of the in-band streams are over whole runs.
-/

namespace McabberJingle

open Program Program.Prog

-----------------------------------------------------------------------------------------
-- One negotiation
-----------------------------------------------------------------------------------------

/-- The offered block size `value` is refused unless positive, and otherwise the stream takes
it or the largest.
-/
structure TakesOffer (s : State) (cn : JingleContent) (value : Int) : Prop where
  refused : value ≤ 0 → ∃ err s', Ibb.newFromMessage cn s = .done (.error err) s'
  taken : 0 < value → ∃ t s' jibb, Ibb.newFromMessage cn s = .done (.ok t) s'
    ∧ s'.transports.get? t = some (.ibb jibb)
    ∧ (jibb.blocksize : Int) = min (IBB_BLOCK_SIZE_MAX : Int) value

/-- The block size `value` of a session-accept is refused unless positive, and otherwise the
stream `jibb` at `t` takes it or keeps its own.
-/
structure TakesAnswer (s : State) (t : TransportPtr) (jibb : JingleIBB) (node : LmMessageNode)
    (value : Int)
    : Prop where
  refused : value ≤ 0 → ∃ status s', Ibb.handle .sessionAccept t node s = .done status s'
    ∧ status ≠ .handled
  taken : 0 < value → ∃ s' jibb', Ibb.handle .sessionAccept t node s = .done .handled s'
    ∧ s'.transports.get? t = some (.ibb jibb')
    ∧ (jibb'.blocksize : Int) = min (jibb.blocksize : Int) value

/-- An offered block size that survives being stored in a `guint`. -/
def OfferFits (value : Int) : Prop :=
  0 < value
    ∧ (value < 0x100000000
      ∨ (IBB_BLOCK_SIZE_MAX : Int) ≤ min value G_MAXINT64 % 0x100000000)

/-- What the `guint` and the clamp make of the integer a text denotes. -/
theorem toGuint_strtoll (text : String)
    : (Ibb.toGuint (gAsciiStrtoll (some text)) : Int)
      = max G_MININT64 (min (leadingInteger text) G_MAXINT64) % 0x100000000 := by
  rw [Ibb.toGuint, gAsciiStrtoll_eq]
  exact Int.toNat_of_nonneg (Int.emod_nonneg _ (by decide))

/-- The clamp of the 32 low bits is the clamp of a positive value exactly when it fits. -/
theorem offerFits_iff {value : Int} (positive : 0 < value)
    : min (max G_MININT64 (min value G_MAXINT64) % 0x100000000) (IBB_BLOCK_SIZE_MAX : Int)
        = min (IBB_BLOCK_SIZE_MAX : Int) value
      ↔ OfferFits value := by
  simp only [OfferFits, IBB_BLOCK_SIZE_MAX, G_MININT64, G_MAXINT64]
  omega

/-- An element with both attributes is a stream, whatever the block size. -/
theorem parseTransport_offered {node : LmMessageNode} {sid text : String}
    (named : node.getAttribute "sid" = some sid)
    (sized : node.getAttribute "block-size" = some text)
    : ∃ jibb, Ibb.parseTransport node = .ok jibb
        ∧ (jibb.blocksize : Int)
          = min (max G_MININT64 (min (leadingInteger text) G_MAXINT64) % 0x100000000)
            (IBB_BLOCK_SIZE_MAX : Int) := by
  unfold Ibb.parseTransport
  rw [named, sized]
  refine ⟨_, rfl, ?_⟩
  rw [← toGuint_strtoll]
  dsimp only
  omega

theorem ibbNewFromMessage_offered {s : State} {cn : JingleContent} {jibb : JingleIBB}
    (layout : Layout s) (parsed : Ibb.parseTransport cn.transport = .ok jibb)
    : ∃ s', Ibb.newFromMessage cn s = .done (.ok s.transports.next) s'
        ∧ s'.transports.get? s.transports.next = some (.ibb jibb) := by
  refine ⟨s.carrying (.ibb jibb), ?_, get?_carrying_self _ ?_⟩
  · simp only [Ibb.newFromMessage, parsed]
    rfl
  · intro sid t entered
    obtain ⟨entry, found, rfl⟩ := Option.map_eq_some_iff.mp entered
    exact layout.streams entry (List.mem_of_find?_eq_some found)

/-- No offered block size is refused, so the stream takes the right one when it fits. -/
theorem takesOffer_iff {s : State} (layout : Layout s) {cn : JingleContent} {sid text : String}
    (named : cn.transport.getAttribute "sid" = some sid)
    (sized : cn.transport.getAttribute "block-size" = some text)
    : TakesOffer s cn (leadingInteger text) ↔ OfferFits (leadingInteger text) := by
  obtain ⟨jibb, parsed, size⟩ := parseTransport_offered named sized
  obtain ⟨s', run, made⟩ := ibbNewFromMessage_offered layout parsed
  constructor
  · intro takes
    by_cases positive : 0 < leadingInteger text
    · obtain ⟨t, s'', jibb', run', found, size'⟩ := takes.taken positive
      cases run.symm.trans run'
      cases made.symm.trans found
      exact (offerFits_iff positive).mp (size.symm.trans size')
    · obtain ⟨err, s'', run'⟩ := takes.refused (Int.not_lt.mp positive)
      cases run.symm.trans run'
  · intro fits
    refine ⟨fun negative => absurd fits.1 (Int.not_lt.mpr negative), fun positive => ?_⟩
    exact ⟨_, s', jibb, run, made, size.trans ((offerFits_iff positive).mpr fits)⟩

/-- `handle` with a session-accept that names the transport. -/
theorem ibbHandle_accepts {s : State} {t : TransportPtr} {jibb : JingleIBB} {node : LmMessageNode}
    (found : s.transports.get? t = some (.ibb jibb))
    (ours : node.getAttribute "xmlns" = some NS_JINGLE_TRANSPORT_IBB)
    : ∃ s', Ibb.handle .sessionAccept t node s = .done .handled s'
        ∧ s'.transports.get? t
          = some (.ibb { jibb with
              blocksize := min (Ibb.acceptedBlockSize node) jibb.blocksize }) := by
  have smaller (asked : Nat)
      : (if asked < jibb.blocksize then asked else jibb.blocksize)
        = min asked jibb.blocksize := by
    split <;> omega
  refine ⟨s.withIbb t { jibb with
    blocksize := min (Ibb.acceptedBlockSize node) jibb.blocksize }, ?_, ?_⟩
  · rw [Ibb.handle, if_pos ⟨rfl, ours⟩, bind_done (readIbb_done found)]
    simp only [smaller]
    rfl
  · exact State.withIbb_get? found

/-- A value in range is compared as it is, a negative one as one that is too large. -/
theorem acceptedBlockSize_eq {node : LmMessageNode} {text : String}
    (sized : node.getAttribute "block-size" = some text)
    : (Ibb.acceptedBlockSize node : Int)
      = max G_MININT64 (min (leadingInteger text) G_MAXINT64) % 0x10000000000000000 := by
  rw [Ibb.acceptedBlockSize, sized, Ibb.toGuint64, gAsciiStrtoll_eq]
  exact Int.toNat_of_nonneg (Int.emod_nonneg _ (by decide))

/-- Nor is the block size of a session-accept refused, but a positive one is always right. -/
theorem takesAnswer_iff {s : State} {t : TransportPtr} {jibb : JingleIBB} {node : LmMessageNode}
    {text : String} (found : s.transports.get? t = some (.ibb jibb))
    (small : jibb.blocksize ≤ IBB_BLOCK_SIZE_MAX)
    (ours : node.getAttribute "xmlns" = some NS_JINGLE_TRANSPORT_IBB)
    (sized : node.getAttribute "block-size" = some text)
    : TakesAnswer s t jibb node (leadingInteger text) ↔ 0 < leadingInteger text := by
  obtain ⟨s', run, lowered⟩ := ibbHandle_accepts found ours
  constructor
  · intro takes
    by_contra negative
    obtain ⟨status, s'', run', refused⟩ := takes.refused (Int.not_lt.mp negative)
    cases run.symm.trans run'
    exact refused rfl
  · intro positive
    refine ⟨fun negative => absurd positive (Int.not_lt.mpr negative), fun _ => ?_⟩
    refine ⟨s', _, run, lowered, ?_⟩
    have asked := acceptedBlockSize_eq sized
    simp only [IBB_BLOCK_SIZE_MAX] at small
    simp only [G_MININT64, G_MAXINT64] at asked
    dsimp only
    omega

-----------------------------------------------------------------------------------------
-- Block sizes over runs
-----------------------------------------------------------------------------------------

/-- An in-band stream after a change is the one before with its packets counted or its block
size lowered, or a new one.
-/
theorem ibb_effect {r : Rights} {s s' : State} (effect : Effect r s s') {t : TransportPtr}
    {jibb' : JingleIBB} (after : s'.transports.get? t = some (.ibb jibb'))
    : (∃ jibb, s.transports.get? t = some (.ibb jibb)
        ∧ (jibb'.blocksize = jibb.blocksize
          ∨ jibb'.blocksize < jibb.blocksize ∧ r.blockSize jibb'.blocksize))
      ∨ t = s.transports.next
        ∧ jibb'.blocksize ≤ IBB_BLOCK_SIZE_MAX ∧ r.blockSize jibb'.blocksize := by
  cases transport_effect effect after with
  | same before => exact Or.inl ⟨jibb', before, Or.inl rfl⟩
  | rewritten old before allowed buffered kept =>
      obtain ⟨jibb, rfl, stream⟩ := kept jibb' rfl
      exact Or.inl ⟨jibb, before, stream.blocksize⟩
  | sent jibb before next logged =>
      cases next
      exact Or.inl ⟨jibb, before, Or.inl rfl⟩
  | made fresh empty stream => exact Or.inr ⟨fresh, (stream jibb' rfl).2⟩

/-- The block sizes are at most the largest and all satisfy `size`. -/
def Sized (size : Nat → Prop) (s : State) : Prop :=
  ∀ t jibb, s.transports.get? t = some (.ibb jibb) →
    jibb.blocksize ≤ IBB_BLOCK_SIZE_MAX ∧ size jibb.blocksize

theorem sized_stable (r : Rights) : Stable r (Sized r.blockSize) := by
  intro s s' sized effect t jibb' after
  rcases ibb_effect effect after with ⟨jibb, before, same | ⟨lower, allowed⟩⟩ | ⟨_, new⟩
  · rw [same]
    exact sized t jibb before
  · exact ⟨Nat.le_trans (Nat.le_of_lt lower) (sized t jibb before).1, allowed⟩
  · exact new

theorem initial_sized (size : Nat → Prop) {s : State} (initial : Initial s) : Sized size s := by
  intro t jibb found
  rw [initial.transports] at found
  cases found

/-- No block size grew since `s₀`. -/
structure NotGrown (s₀ s : State) : Prop where
  since : s₀.transports.next ≤ s.transports.next
  sizes : ∀ t jibb₀ jibb, s₀.transports.get? t = some (.ibb jibb₀) →
    s.transports.get? t = some (.ibb jibb) → jibb.blocksize ≤ jibb₀.blocksize

theorem NotGrown.refl (s : State) : NotGrown s s := by
  refine ⟨Nat.le_refl _, fun t jibb₀ jibb found found' => ?_⟩
  cases found.symm.trans found'
  exact Nat.le_refl _

theorem notGrown_stable (r : Rights) (s₀ : State) : Stable r (NotGrown s₀) := by
  intro s s' notGrown effect
  refine ⟨Nat.le_trans notGrown.since (since_effect effect).transports, ?_⟩
  intro t jibb₀ jibb' first after
  rcases ibb_effect effect after with ⟨jibb, before, size⟩ | ⟨new, _⟩
  · have small := notGrown.sizes t jibb₀ jibb first before
    rcases size with same | ⟨lower, _⟩
    · exact same ▸ small
    · exact Nat.le_trans (Nat.le_of_lt lower) small
  · have known := Nat.lt_of_lt_of_le (Pool.lt_next first) notGrown.since
    exact absurd new (Nat.ne_of_lt known)

section Turn

variable {env : Env} {w : World} {s : State} {inv : State → Prop}

/-- Everything is allowed, with positive block sizes. -/
def Rights.positive : Rights := { Rights.all with blockSize := (0 < ·) }

/-- The block sizes in the requests of the peer: those offered with a session that is opened
fit, and those of an answer are there and positive.
-/
structure FittingSizes (env : Env) (s : State) (input : StepInput) : Prop where
  offered : ∀ jn, input.2.invitation env input.1 s = some jn →
    ∀ cn ∈ (checkContents jn).jn.content,
      jingleGetTransportfuncs s (cn.transport.getAttribute "xmlns") = some .ibb →
      ∀ text, cn.transport.getAttribute "block-size" = some text →
        OfferFits (leadingInteger text)
  answered : ∀ jn, input.2.request env = some jn → jn.action = .sessionAccept →
    (sessionFind s jn).isSome = true →
    ∀ cn ∈ (checkContents jn).jn.content,
      cn.transport.getAttribute "xmlns" = some NS_JINGLE_TRANSPORT_IBB →
      ∃ text, cn.transport.getAttribute "block-size" = some text ∧ 0 < leadingInteger text

theorem parsed_positive {node : LmMessageNode} {jibb : JingleIBB}
    (parsed : Ibb.parseTransport node = .ok jibb)
    (fits : ∀ text, node.getAttribute "block-size" = some text →
      OfferFits (leadingInteger text))
    : 0 < jibb.blocksize := by
  cases named : node.getAttribute "sid" with
  | none => simp [Ibb.parseTransport, named] at parsed
  | some sid =>
      cases sized : node.getAttribute "block-size" with
      | none => simp [Ibb.parseTransport, named, sized] at parsed
      | some text =>
          obtain ⟨jibb', parsed', size⟩ := parseTransport_offered named sized
          cases parsed.symm.trans parsed'
          have fit := fits text sized
          have right := (offerFits_iff fit.1).mpr fit
          have positive := fit.1
          rw [right] at size
          simp only [IBB_BLOCK_SIZE_MAX] at size
          omega

theorem accepted_positive {node : LmMessageNode} {text : String}
    (sized : node.getAttribute "block-size" = some text) (positive : 0 < leadingInteger text)
    : 0 < Ibb.acceptedBlockSize node := by
  have asked := acceptedBlockSize_eq sized
  simp only [G_MININT64, G_MAXINT64] at asked
  omega

theorem SameModules.transportfuncs {s s' : State} (same : SameModules s s')
    (xmlns : Option String)
    : jingleGetTransportfuncs s' xmlns = jingleGetTransportfuncs s xmlns := by
  simp only [jingleGetTransportfuncs, jingleFindTransport, same.2]

/-- An invitation binds streams with the sizes it brings, a session-accept lowers them to
those it brings.
-/
theorem positive_mayServe (layout : ∀ s', inv s' → Layout s')
    (modules : ∀ s', inv s' → SameModules s s') {message : LmMessage} {jn : JingleNode}
    (requested : jingleRequest env message = some jn)
    (fitting : FittingSizes env s (w, .jingleIq message))
    : MayServe .positive inv env w s jn := by
  have may : MayServe .all inv env w s jn :=
    all_generous.mayServe layout env w s jn (fun _ _ _ _ => trivial)
  refine ⟨fun action passes absent => ?_, may.info, ?_, fun action p js found => ?_⟩
  · obtain ⟨newFt, create, build, bind, close, ask, unsupported⟩ :=
      may.initiate action passes absent
    refine ⟨newFt, create, fun s' holds => ?_, ?_, close, ask, unsupported⟩
    · obtain ⟨layout, grow, build, describe, carry⟩ := build s' holds
      exact ⟨layout, grow, build, describe, carry⟩
    · intro cn member processed jft offered jibb parsed s' holds isIbb
      have opens : (Input.jingleIq message).invitation env w s = some jn := by
        refine Option.filter_eq_some_iff.mpr ⟨requested, ?_⟩
        simp [action, passes, absent]
      rw [(modules s' holds).transportfuncs] at isIbb
      have positive := parsed_positive parsed (fitting.offered jn opens cn member isIbb)
      exact ⟨trivial, positive, fun _ _ => trivial⟩
  · intro action checked p js found named
    obtain ⟨change, activate, _, carried⟩ := may.accept action checked p js found named
    refine ⟨change, activate, fun cn member ours => ?_, carried⟩
    obtain ⟨text, sized, positive⟩ :=
      fitting.answered jn requested action (by simp [found]) cn member ours
    exact accepted_positive sized positive
  · obtain ⟨change, drop, close, _⟩ := may.terminate action p js found
    exact ⟨change, drop, close, .free (fun _ => trivial) (fun _ => trivial)⟩

theorem positive_maySend : MaySend .positive inv := by
  constructor <;> intros <;> trivial

theorem positive_mayOffer (layout : ∀ s', inv s' → Layout s') : MayOffer .positive inv w s where
  layout := layout
  newFt := trivial
  ft _ := trivial
  create _ _ _ _ _ _ _ := trivial
  grow _ _ := trivial
  build _ := trivial
  describe _ _ _ := trivial
  carry _ _ _ := trivial
  size := Nat.succ_pos _
  await _ := trivial
  close _ _ := trivial

theorem positive_mayHandle (layout : ∀ s', inv s' → Layout s')
    (modules : ∀ s', inv s' → SameModules s s') {input : Input}
    (fitting : FittingSizes env s (w, input))
    : MayHandle .positive inv env w s input := by
  cases input with
  | jingleIq message => exact fun jn requested => positive_mayServe layout modules requested fitting
  | ibbIq message => exact fun d _ => ⟨trivial, fun _ => trivial⟩
  | reply ah message => exact ⟨positive_maySend, trivial, trivial⟩
  | tick => exact ⟨positive_maySend, fun _ => trivial, fun _ => trivial⟩
  | wait seconds => trivial
  | event id context =>
      exact fun p _ => ⟨fun _ => ⟨trivial, trivial⟩, fun _ _ _ => ⟨trivial, trivial⟩⟩
  | transportInitialize correct sc => exact positive_maySend
  | jftSend arg => exact positive_mayOffer layout
  | jftRetry arg => exact positive_mayOffer layout
  | jftFlush => exact fun _ => trivial

end Turn

theorem sized_reached {env : Env} {s : State} (run : Reachable env s) : Sized (fun _ => True) s :=
  stable_reached (sized_stable .all) (fun _ => initial_sized _) run

theorem positive_reached {env : Env} {s : State} (run : ReachableBy env (FittingSizes env) s)
    : Sized (0 < ·) s := by
  refine reached_invariant run (fun s initial => initial_sized _ initial) ?_
  intro s w input sized layout fitting _
  refine ⟨.positive, fun s' => Sized (0 < ·) s' ∧ SameModules s s',
    (sized_stable .positive).sameModules s, ⟨sized, rfl, rfl⟩, fun _ holds _ => holds.1, ?_⟩
  exact positive_mayHandle (fun _ => And.right) (fun _ holds => holds.1.2) fitting

/-- The right block size is taken from an offer exactly when it fits, and from a
session-accept exactly when it is positive. No block size is above the largest or ever grows,
and it is positive in every run in which the offers fit and the answers are positive.
-/
theorem block_sizes_negotiated (env : Env)
    : (∀ s, Reachable env s → ∀ cn sid text, cn.transport.getAttribute "sid" = some sid →
        cn.transport.getAttribute "block-size" = some text →
        (TakesOffer s cn (leadingInteger text) ↔ OfferFits (leadingInteger text)))
      ∧ (∀ s, Reachable env s → ∀ t jibb node text,
        s.transports.get? t = some (.ibb jibb) →
        node.getAttribute "xmlns" = some NS_JINGLE_TRANSPORT_IBB →
        node.getAttribute "block-size" = some text →
        (TakesAnswer s t jibb node (leadingInteger text) ↔ 0 < leadingInteger text))
      ∧ (∀ s, ReachableBy env (FittingSizes env) s → ∀ t jibb,
        s.transports.get? t = some (.ibb jibb) →
        1 ≤ jibb.blocksize ∧ jibb.blocksize ≤ IBB_BLOCK_SIZE_MAX)
      ∧ ∀ s input s', Reachable env s → Step env s input s' → ∀ t jibb jibb',
        s.transports.get? t = some (.ibb jibb) → s'.transports.get? t = some (.ibb jibb') →
        jibb'.blocksize ≤ jibb.blocksize := by
  refine ⟨?offered, ?answered, ?positive, ?lowered⟩
  case offered =>
    intro s run cn sid text named sized
    exact takesOffer_iff (layout_reached run) named sized
  case answered =>
    intro s run t jibb node text found ours sized
    exact takesAnswer_iff found (sized_reached run t jibb found).1 ours sized
  case positive =>
    intro s run t jibb found
    exact (positive_reached run t jibb found).symm
  case lowered =>
    intro s input s' run step t jibb jibb' before after
    have notGrown := (step.keeps_all (notGrown_stable .all s) (.refl s) (layout_reached run)).1
    exact notGrown.sizes t jibb jibb' before after

/-- An offered block size of 10 is taken. -/
theorem block_sizes_negotiated_ten
    : TakesOffer loaded (offerOver [("sid", "b1"), ("block-size", "10")]) (leadingInteger "10") :=
  ((block_sizes_negotiated fileEnv).1 loaded (loaded_reached fileEnv _) _ "b1" "10" rfl rfl).mpr
    ⟨by decide, Or.inl (by decide)⟩

/-- Whether the transport at this address is a stream with block size 0. -/
def blocklessAt (t : TransportPtr) (s : State) : Bool :=
  match s.transports.get? t with
  | some (.ibb jibb) => jibb.blocksize == 0
  | _ => false

theorem blockless_of_blocklessAt {s : State} {t : TransportPtr} (blockless : blocklessAt t s = true)
    : ∃ jibb, s.transports.get? t = some (.ibb jibb) ∧ jibb.blocksize = 0 := by
  unfold blocklessAt at blockless
  split at blockless
  · rename_i jibb found
    exact ⟨jibb, found, eq_of_beq blockless⟩
  · cases blockless

/-- An offered block size of -1 is taken, and one of 0 in a session-accept leaves the stream
without blocks.
-/
theorem negative_block_size_taken
    : Reachable fileEnv loaded
      ∧ ¬TakesOffer loaded (offerOver [("sid", "b1"), ("block-size", "-1")])
          (leadingInteger "-1")
      ∧ ∃ s, Reachable fileEnv s
          ∧ ∃ t jibb, s.transports.get? t = some (.ibb jibb) ∧ jibb.blocksize = 0 := by
  have run := loaded_reached fileEnv (fun _ _ => True)
  refine ⟨run, fun takes => ?_, ?_⟩
  · have named : (offerOver [("sid", "b1"), ("block-size", "-1")]).transport.getAttribute "sid"
        = some "b1" := rfl
    have fits := (takesOffer_iff (layout_reached run) named rfl).mp takes
    exact absurd fits.1 (by decide)
  · have passed : (execute fileEnv (fun _ _ => True) loaded [
        (offeringWorld fourBytes, .jftSend (some "notes")),
        (plainWorld, .jingleIq (acceptSet "0"))]).any (blocklessAt 0) = true := by
      decide +kernel
    obtain ⟨s, reached, blockless⟩ := execute_any _ run passed
    exact ⟨s, reached, 0, blockless_of_blocklessAt blockless⟩

end McabberJingle
