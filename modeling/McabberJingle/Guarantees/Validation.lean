import McabberJingle.Jingle.Requests
import McabberJingle.System.Execution

/-! Which `<content/>` elements `check_contents` takes. A creator it does not know sets the
error but stops nothing, and an element it refuses leaves the list of those before it freed.
-/

namespace McabberJingle

open Program

-----------------------------------------------------------------------------------------
-- The grammar
-----------------------------------------------------------------------------------------

/-- The values of the attribute `creator`, and what they stand for. -/
def creatorValues : List (Option String × JingleCreator) := [
  (none, .initiator),
  (some "initiator", .initiator),
  (some "responder", .responder)
]

/-- The values of the attribute `senders`, and what they stand for. -/
def sendersValues : List (Option String × JingleSenders) := [
  (none, .both),
  (some "both", .both),
  (some "initiator", .initiator),
  (some "none", .none),
  (some "responder", .responder)
]

/-- The creator of a `<content/>` is one of the known ones. -/
def CreatorKnown (child : LmMessageNode) : Prop :=
  child.getAttribute "creator" ∈ creatorValues.map Prod.fst

/-- What a `<content/>` has to have besides a known creator. -/
structure CompleteContent (child : LmMessageNode) : Prop where
  name : (child.getAttribute "name").isSome = true
  senders : child.getAttribute "senders" ∈ sendersValues.map Prod.fst
  description : (child.getChild "description").isSome = true
  transport : (child.getChild "transport").isSome = true

/-- The grammar of a `<content/>`. -/
structure InGrammar (child : LmMessageNode) : Prop extends CompleteContent child where
  creator : CreatorKnown child

instance (child : LmMessageNode) : Decidable (CreatorKnown child) := by
  unfold CreatorKnown
  infer_instance

instance (child : LmMessageNode) : Decidable (CompleteContent child) :=
  decidable_of_iff
    ((child.getAttribute "name").isSome = true
      ∧ child.getAttribute "senders" ∈ sendersValues.map Prod.fst
      ∧ (child.getChild "description").isSome = true
      ∧ (child.getChild "transport").isSome = true)
    ⟨fun all => ⟨all.1, all.2.1, all.2.2.1, all.2.2.2⟩,
      fun all => ⟨all.name, all.senders, all.description, all.transport⟩⟩

instance (child : LmMessageNode) : Decidable (InGrammar child) :=
  decidable_of_iff (CompleteContent child ∧ CreatorKnown child)
    ⟨fun both => ⟨both.1, both.2⟩, fun both => ⟨both.1, both.2⟩⟩

/-- The parsed content tells what the element says. -/
structure ContentTells (child : LmMessageNode) (cn : JingleContent) : Prop where
  name : child.getAttribute "name" = some cn.name
  creator : ∃ creator, cn.creator = some creator
    ∧ (child.getAttribute "creator", creator) ∈ creatorValues
  senders : (child.getAttribute "senders", cn.senders) ∈ sendersValues
  disposition : cn.disposition = child.getAttribute "disposition"
  description : child.getChild "description" = some cn.description
  transport : child.getChild "transport" = some cn.transport

-----------------------------------------------------------------------------------------
-- One element
-----------------------------------------------------------------------------------------

/-- A name of the list has an index, and no other has one. -/
theorem indexInArray_isSome (str : String) (array : List String)
    : (indexInArray str array).isSome = true ↔ str ∈ array := by
  unfold indexInArray
  rw [List.findIdx?_isSome, List.any_eq_true]
  constructor
  · intro found
    obtain ⟨entry, member, same⟩ := found
    exact eq_of_beq same ▸ member
  · intro member
    exact ⟨str, member, beq_self_eq_true str⟩

/-- What `check_content` reads from the attribute `senders`. -/
def sendersOf (attr : Option String) : Option JingleSenders :=
  match attr with
  | none => some .both
  | some sendersstr => (indexInArray sendersstr jingleContentSenders).map JingleSenders.ofIndex

theorem sendersOf_eq_some {attr : Option String} {senders : JingleSenders}
    : sendersOf attr = some senders ↔ (attr, senders) ∈ sendersValues := by
  cases attr with
  | none => cases senders <;> decide
  | some sendersstr =>
      by_cases listed : sendersstr ∈ jingleContentSenders
      · simp only [jingleContentSenders, List.mem_cons, List.not_mem_nil, or_false] at listed
        rcases listed with rfl | rfl | rfl | rfl <;> cases senders <;> decide
      · have missing : indexInArray sendersstr jingleContentSenders = none := by
          rw [← Option.not_isSome_iff_eq_none, indexInArray_isSome]
          exact listed
        rw [sendersOf, missing]
        simp only [jingleContentSenders, List.mem_cons, List.not_mem_nil, or_false,
          not_or] at listed
        simp [sendersValues, listed]

/-- What `check_content` reads from the attribute `creator`. -/
def creatorOf (attr : Option String) : Option JingleCreator :=
  match attr with
  | none => some .initiator
  | some creatorstr => JingleCreator.ofIndex (indexInArray creatorstr jingleContentCreator)

theorem creatorOf_eq_some {attr : Option String} {creator : JingleCreator}
    : creatorOf attr = some creator ↔ (attr, creator) ∈ creatorValues := by
  cases attr with
  | none => cases creator <;> decide
  | some creatorstr =>
      by_cases listed : creatorstr ∈ jingleContentCreator
      · simp only [jingleContentCreator, List.mem_cons, List.not_mem_nil, or_false] at listed
        rcases listed with rfl | rfl <;> cases creator <;> decide
      · have missing : indexInArray creatorstr jingleContentCreator = none := by
          rw [← Option.not_isSome_iff_eq_none, indexInArray_isSome]
          exact listed
        rw [creatorOf, missing]
        simp only [jingleContentCreator, List.mem_cons, List.not_mem_nil, or_false,
          not_or] at listed
        simp [creatorValues, JingleCreator.ofIndex, listed]

theorem isSome_iff_known {α : Type} {read : Option α} {attr : Option String}
    {values : List (Option String × α)}
    (reads : ∀ value, read = some value ↔ (attr, value) ∈ values)
    : read.isSome = true ↔ attr ∈ values.map Prod.fst := by
  rw [Option.isSome_iff_exists]
  constructor
  · intro known
    obtain ⟨value, known⟩ := known
    exact List.mem_map.mpr ⟨(attr, value), (reads value).mp known, rfl⟩
  · intro listed
    obtain ⟨entry, member, rfl⟩ := List.mem_map.mp listed
    exact ⟨entry.2, (reads entry.2).mpr member⟩

/-- The same checks with what they read from the attributes at the front. -/
theorem checkContent_eq (child : LmMessageNode) (err : Option GError) {name : String}
    (named : child.getAttribute "name" = some name)
    : checkContent child err
      = (let creator := creatorOf (child.getAttribute "creator")
        let err := if creator.isSome then err
          else setError err { code := .badvalue, message := "the creator attribute is invalid" }
        (sendersOf (child.getAttribute "senders")).elim
          (none,
            setError err { code := .badvalue, message := "the senders attribute is invalid" })
          (fun senders =>
            (child.getChild "description").elim (none, setError err
                { code := .missing, message := "a child element of content is missing" })
              (fun description =>
                (child.getChild "transport").elim (none, setError err
                    { code := .missing, message := "a child element of content is missing" })
                  (fun transport =>
                    (some {
                      creator
                      disposition := child.getAttribute "disposition"
                      name, senders, description, transport }, err))))) := by
  unfold checkContent creatorOf sendersOf
  rw [named]
  cases child.getAttribute "creator" with
  | none =>
      cases child.getAttribute "senders" with
      | none => cases child.getChild "description" <;> cases child.getChild "transport" <;> rfl
      | some sendersstr =>
          dsimp only
          cases indexInArray sendersstr jingleContentSenders <;>
            cases child.getChild "description" <;> cases child.getChild "transport" <;> rfl
  | some creatorstr =>
      dsimp only
      cases JingleCreator.ofIndex (indexInArray creatorstr jingleContentCreator) <;>
        cases child.getAttribute "senders" with
        | none => cases child.getChild "description" <;> cases child.getChild "transport" <;> rfl
        | some sendersstr =>
            dsimp only
            cases indexInArray sendersstr jingleContentSenders <;>
              cases child.getChild "description" <;> cases child.getChild "transport" <;> rfl

/-- A complete element is returned; with a known creator the error stays what it was. -/
theorem checkContent_complete {child : LmMessageNode} (complete : CompleteContent child)
    (err : Option GError)
    : ∃ cn, (checkContent child err).1 = some cn
        ∧ (CreatorKnown child →
          checkContent child err = (some cn, err) ∧ ContentTells child cn) := by
  obtain ⟨name, named⟩ := Option.isSome_iff_exists.mp complete.name
  obtain ⟨senders, sent⟩ := Option.isSome_iff_exists.mp
    ((isSome_iff_known (fun _ => sendersOf_eq_some)).mpr complete.senders)
  obtain ⟨description, described⟩ := Option.isSome_iff_exists.mp complete.description
  obtain ⟨transport, carried⟩ := Option.isSome_iff_exists.mp complete.transport
  rw [checkContent_eq child err named, sent, described, carried]
  refine ⟨_, rfl, fun known => ?_⟩
  obtain ⟨creator, created⟩ := Option.isSome_iff_exists.mp
    ((isSome_iff_known (fun _ => creatorOf_eq_some)).mpr known)
  rw [created]
  exact ⟨rfl, named, ⟨creator, rfl, creatorOf_eq_some.mp created⟩,
    sendersOf_eq_some.mp sent, rfl, described, carried⟩

/-- An incomplete element is refused. -/
theorem checkContent_incomplete {child : LmMessageNode} (incomplete : ¬CompleteContent child)
    (err : Option GError)
    : (checkContent child err).1 = none := by
  cases named : child.getAttribute "name" with
  | none =>
      unfold checkContent
      rw [named]
  | some name =>
      rw [checkContent_eq child err named]
      cases sent : sendersOf (child.getAttribute "senders") with
      | none => rfl
      | some senders =>
          cases described : child.getChild "description" with
          | none => rfl
          | some description =>
              cases carried : child.getChild "transport" with
              | none => rfl
              | some transport =>
                  have known : child.getAttribute "senders" ∈ sendersValues.map Prod.fst :=
                    (isSome_iff_known (fun _ => sendersOf_eq_some)).mp (by rw [sent]; rfl)
                  refine absurd ⟨?_, known, ?_, ?_⟩ incomplete
                  · rw [named]
                    rfl
                  · rw [described]
                    rfl
                  · rw [carried]
                    rfl

theorem validContent_iff (child : LmMessageNode)
    : validContent child = true ↔ CompleteContent child := by
  unfold validContent
  constructor
  · intro valid
    by_contra incomplete
    rw [checkContent_incomplete incomplete] at valid
    cases valid
  · intro complete
    obtain ⟨cn, checked, _⟩ := checkContent_complete complete none
    rw [checked]
    rfl

-----------------------------------------------------------------------------------------
-- All elements
-----------------------------------------------------------------------------------------

/-- By induction on the children: elements of the grammar are listed in their order. -/
theorem checkContentsLoop_grammar (jn : JingleNode) (err : Option GError)
    {children : List LmMessageNode} (all : ∀ child ∈ contentNodes children, InGrammar child)
    : ∃ parsed, List.Forall₂ ContentTells (contentNodes children) parsed
        ∧ checkContentsLoop jn err children
          = { ok := true, err, jn := { jn with content := jn.content ++ parsed } } := by
  induction children generalizing jn with
  | nil => exact ⟨[], .nil, by simp [checkContentsLoop]⟩
  | cons child rest ih =>
      by_cases named : child.name = "content"
      · have nodes : contentNodes (child :: rest) = child :: contentNodes rest := by
          simp [contentNodes, named]
        rw [nodes] at all ⊢
        have first := all child List.mem_cons_self
        obtain ⟨cn, _, tells⟩ := checkContent_complete first.toCompleteContent err
        obtain ⟨checked, tells⟩ := tells first.creator
        obtain ⟨parsed, related, ends⟩ := ih { jn with content := jn.content ++ [cn] }
          (fun child' member => all child' (List.mem_cons_of_mem _ member))
        refine ⟨cn :: parsed, .cons tells related, ?_⟩
        rw [checkContentsLoop, if_pos named, checked]
        simp [ends]
      · have nodes : contentNodes (child :: rest) = contentNodes rest := by
          simp [contentNodes, named]
        rw [nodes] at all ⊢
        rw [checkContentsLoop, if_neg named]
        exact ih jn all

/-- By induction on the children: nothing is listed when the first element is refused. -/
theorem checkContentsLoop_firstRefused (jn : JingleNode) (err : Option GError)
    {children : List LmMessageNode} {first : LmMessageNode}
    (head : (contentNodes children).head? = some first) (incomplete : ¬CompleteContent first)
    : (checkContentsLoop jn err children).jn.content = jn.content := by
  induction children with
  | nil => cases head
  | cons child rest ih =>
      by_cases named : child.name = "content"
      · have nodes : contentNodes (child :: rest) = child :: contentNodes rest := by
          simp [contentNodes, named]
        rw [nodes] at head
        have same : child = first := Option.some.inj head
        subst same
        have refused := checkContent_incomplete incomplete err
        rw [checkContentsLoop, if_pos named]
        cases checked : checkContent child err with
        | mk content err' =>
            rw [checked] at refused
            cases refused
            rfl
      · have nodes : contentNodes (child :: rest) = contentNodes rest := by
          simp [contentNodes, named]
        rw [nodes] at head
        rw [checkContentsLoop, if_neg named]
        exact ih head

/-- What validating the contents of a node should do: take the grammar and nothing else,
list what was parsed, and leave nothing behind when something is refused.
-/
structure ValidatesGrammar (jn : JingleNode) : Prop where
  accepts : (checkContents jn).ok = true
    ↔ ∀ child ∈ contentNodes jn.node.children, InGrammar child
  parsed : (checkContents jn).ok = true →
    (checkContents jn).err = none
    ∧ List.Forall₂ ContentTells (contentNodes jn.node.children) (checkContents jn).jn.content
  refused : (checkContents jn).ok = false →
    (checkContents jn).err.isSome = true ∧ (checkContents jn).jn.content = []
  freed : ∀ s, jingleFreeJinglenode (checkContents jn).jn s = .done () s

/-- The contents of a node that has none yet are validated as they should be exactly when all
are in the grammar, or the first one is refused for something else than its creator.
-/
theorem contents_validated (jn : JingleNode) (empty : jn.content = [])
    (unfreed : jn.contentFreed = false)
    : ValidatesGrammar jn
      ↔ (∀ child ∈ contentNodes jn.node.children, InGrammar child)
        ∨ ∃ first ∈ (contentNodes jn.node.children).head?, ¬CompleteContent first := by
  obtain ⟨ok, _, failed⟩ := checkContentsLoop_ends jn none jn.node.children
  have released := checkContents_unfreed_iff empty unfreed
  constructor
  · intro validates
    by_cases accepted : (checkContents jn).ok = true
    · exact Or.inl (validates.accepts.mp accepted)
    · right
      have refused : (checkContents jn).ok = false := Bool.not_eq_true _ ▸ accepted
      have unfreedAfter : (checkContents jn).jn.contentFreed = false := by
        have runs := validates.freed loaded
        unfold jingleFreeJinglenode at runs
        split at runs
        · cases runs
        · exact Bool.not_eq_true _ ▸ ‹_›
      have whole := released.mp unfreedAfter
      have invalid : ¬∀ child ∈ contentNodes jn.node.children, validContent child = true := by
        intro all
        exact accepted (ok.trans (List.all_eq_true.mpr all))
      cases nodes : contentNodes jn.node.children with
      | nil =>
          rw [nodes] at invalid
          exact absurd (fun _ member => by cases member) invalid
      | cons first rest =>
          refine ⟨first, rfl, fun complete => invalid ?_⟩
          exact whole first (by rw [nodes]; rfl) ((validContent_iff first).mpr complete)
  · intro either
    rcases either with all | refused
    · obtain ⟨parsed, related, ends⟩ := checkContentsLoop_grammar jn none all
      rw [empty, List.nil_append] at ends
      have checked : checkContents jn
          = { ok := true, err := none, jn := { jn with content := parsed } } := ends
      refine ⟨?_, ?_, ?_, ?_⟩
      · rw [checked]
        exact iff_of_true rfl all
      · rw [checked]
        exact fun _ => ⟨rfl, related⟩
      · rw [checked]
        exact fun h => by cases h
      · intro s
        rw [checked, jingleFreeJinglenode, if_neg (by simp [unfreed])]
        rfl
    · obtain ⟨first, head, incomplete⟩ := refused
      have member : first ∈ contentNodes jn.node.children := List.mem_of_mem_head? head
      have rejected : (checkContents jn).ok = false := by
        refine ok.trans (List.all_eq_false.mpr ⟨first, member, ?_⟩)
        rw [validContent_iff]
        exact incomplete
      have unfreedAfter : (checkContents jn).jn.contentFreed = false := by
        refine released.mpr (fun first' head' valid => ?_)
        cases head.symm.trans head'
        exact absurd ((validContent_iff first).mp valid) incomplete
      refine ⟨?_, ?_, ?_, ?_⟩
      · rw [rejected]
        refine iff_of_false (by simp) (fun all => incomplete ?_)
        exact (all first member).toCompleteContent
      · rw [rejected]
        exact fun h => by cases h
      · intro _
        refine ⟨(failed rejected).1, ?_⟩
        exact (checkContentsLoop_firstRefused jn none head incomplete).trans empty
      · intro s
        rw [jingleFreeJinglenode, unfreedAfter]
        rfl

/-- An element without a name is refused cleanly, also before a good one. -/
theorem contents_validated_nameless
    : ValidatesGrammar (requestNode .sessionInitiate "s1"
        [element "content" [] [], offeredContent "file" "stream"]) :=
  (contents_validated _ rfl rfl).mpr (Or.inr ⟨element "content" [] [], rfl, by decide⟩)

/-- A creator that is neither party is taken, with the error set. -/
theorem unknown_creator_accepted
    : ∃ jn, checkJingle plainEnv.checkJidSyntax jn.message jn.node = .ok jn
        ∧ (checkContents jn).ok = true ∧ (checkContents jn).err.isSome = true
        ∧ ¬ValidatesGrammar jn := by
  refine ⟨requestNode .sessionInitiate "s1" [element "content"
    [("name", "file"), ("creator", "both")] [element "description" [] [],
      element "transport" [] []]], rfl, by decide, by decide, ?_⟩
  intro validates
  have accepted := validates.accepts.mp (by decide)
  exact absurd accepted (by decide)

end McabberJingle
