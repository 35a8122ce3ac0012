import McabberJingle.Guarantees.Confinement
import McabberJingle.Jingle.Numbers
import McabberJingle.Jingle.Wire

/-! Which offers become transfers. A size that is no number, or too large for one, is taken for
another number instead of being refused.
-/

namespace McabberJingle

open Program Program.Prog

variable {env : Env} {w : World} {s : State} {cn : JingleContent}

-----------------------------------------------------------------------------------------
-- What should be accepted
-----------------------------------------------------------------------------------------

/-- The element that describes the file. -/
def offeredElement (cn : JingleContent) : Option LmMessageNode :=
  (cn.description.getChild "offer").bind (fun offer => offer.getChild "file")

/-- A hash is absent, or 32 hexadecimal digits. -/
def ValidHash (hash : Option String) : Prop :=
  ∀ digits, hash = some digits →
    digits.toList.length = 32 ∧ ∀ c ∈ digits.toList, gAsciiIsxdigit c = true

/-- The offer apart from its size: the namespace, a name, some size, and a valid hash. -/
structure Described (cn : JingleContent) (name sizestr : String) (hash : Option String)
    : Prop where
  element : ∃ file, offeredElement cn = some file
    ∧ file.getAttribute "xmlns" = some NS_SI_FT ∧ file.getAttribute "name" = some name
    ∧ file.getAttribute "size" = some sizestr ∧ file.getAttribute "hash" = hash
  hash : ValidHash hash

/-- The size is a decimal integer of 63 bits. -/
def ValidSize (sizestr : String) (size : Nat) : Prop :=
  decimalInteger sizestr = some (size : Int) ∧ (size : Int) ≤ G_MAXINT64

/-- A valid offer becomes a transfer at the end of the list, anything else an error. -/
structure ReadsRightly (env : Env) (w : World) (s : State) (cn : JingleContent) : Prop where
  accepted : ∀ name sizestr size hash, Described cn name sizestr hash → ValidSize sizestr size →
    ∃ ft, FileTransfer.newFromMessage env w cn s = .done (.ok s.infoList.next) (s.listing ft)
      ∧ ft.size = size ∧ ft.hash = hash ∧ ft.transmit = 0
      ∧ ∀ cell ∈ s.infoList.cells, cell.1 < s.infoList.next
  refused : (¬∃ name sizestr size hash, Described cn name sizestr hash ∧ ValidSize sizestr size) →
    ∃ err, FileTransfer.newFromMessage env w cn s = .done (.error err) s

/-- The name is not empty, "." or "..", nor made of slashes only. -/
structure OrdinaryName (name : String) : Prop where
  notDot : name ≠ "."
  notDotDot : name ≠ ".."
  notSlashes : ∃ c ∈ name.toList, c ≠ '/'

/-- The size is negative, or the integer that the code takes it for. -/
def ReadableSize (sizestr : String) : Prop :=
  gAsciiStrtoll (some sizestr) < 0 ∨ ∃ size, ValidSize sizestr size

/-- Joined with no directory, this name gives the path ".". -/
def NamesDirectory (w : World) (name : String) : Prop :=
  FileTransfer.downloadDir w = "" ∧ gPathGetBasename name = "."

-----------------------------------------------------------------------------------------
-- The name
-----------------------------------------------------------------------------------------

/-- The last component of an ordinary name is a component. -/
theorem OrdinaryName.component {name : String} (ordinary : OrdinaryName name)
    : Path.IsComponent '/' (gPathGetBasename name).toList := by
  rw [gPathGetBasename, String.toList_ofList]
  obtain ⟨c, member, visible⟩ := ordinary.notSlashes
  obtain dot | root | component := Path.basename_cases '/' ['.'] name.toList
  · have component : Path.IsComponent '/' ['.'] := ⟨by decide, by decide⟩
    rw [dot]
    exact component
  · have trimmed : Path.trimEnd '/' name.toList ≠ [] := by
      rw [Path.trimEnd, Ne, List.rdropWhile_eq_nil_iff]
      exact fun all => visible (by simpa using all c member)
    rw [Path.basename, if_neg (List.ne_nil_of_mem member), if_neg trimmed] at root
    have none : '/' ∉ (Path.trimEnd '/' name.toList).rtakeWhile (· != '/') := fun there => by
      simpa using List.mem_rtakeWhile_imp there
    rw [root] at none
    exact absurd (List.mem_singleton_self _) none
  · exact component

/-- Only without a directory can the joined path be ".". -/
theorem gBuildFilename_eq_dot {dir base : String} (component : Path.IsComponent '/' base.toList)
    : gBuildFilename dir base = "." ↔ dir = "" ∧ base = "." := by
  have joined : gBuildFilename dir base = "."
      ↔ Path.stem '/' dir.toList ++ base.toList = ['.'] := by
    rw [gBuildFilename, Path.join_component dir.toList component]
    constructor
    · intro same
      simpa using congrArg String.toList same
    · intro same
      rw [same]
  rw [joined]
  constructor
  · intro same
    have noDir : dir.toList = [] := by
      by_contra some
      have inside : '/' ∈ Path.stem '/' dir.toList ++ base.toList :=
        List.mem_append_left _ (Path.sep_mem_stem some)
      rw [same] at inside
      simp at inside
    refine ⟨String.toList_injective noDir, String.toList_injective ?_⟩
    rw [noDir] at same
    simpa [Path.stem] using same
  · rintro ⟨rfl, rfl⟩
    rfl

-----------------------------------------------------------------------------------------
-- What is accepted
-----------------------------------------------------------------------------------------

theorem validHash_iff {hash : Option String}
    : ValidHash hash
      ↔ hash.any (fun hash => hash.toList.length ≠ 32 || !FileTransfer.isMd5Hash hash) = false := by
  cases hash with
  | none => exact iff_of_true (fun _ same => by cases same) rfl
  | some digits =>
      rw [Option.any_some, Bool.or_eq_false_iff, decide_eq_false_iff_not, Bool.not_eq_false']
      constructor
      · intro valid
        obtain ⟨length, hex⟩ := valid digits rfl
        exact ⟨not_not.mpr length, isMd5Hash_of_digits length (List.all_eq_true.mpr hex)⟩
      · rintro ⟨length, hex⟩ _ same
        cases same
        have length := not_not.mp length
        rw [FileTransfer.isMd5Hash, Bool.and_eq_true, List.take_of_length_le
          (Nat.le_of_eq length)] at hex
        exact ⟨length, List.all_eq_true.mp hex.2⟩

/-- An offer that is fine apart from its size is accepted for a size that reads as no negative
number, unless its path is ".".
-/
theorem parseOffer_described (env : Env) (w : World) {name sizestr : String} {hash : Option String}
    (described : Described cn name sizestr hash)
    : (gAsciiStrtoll (some sizestr) < 0
        ∨ env.buildFilename (FileTransfer.downloadDir w) (env.pathGetBasename name) = "." →
        ∃ err, FileTransfer.parseOffer env w cn = .error err)
      ∧ (0 ≤ gAsciiStrtoll (some sizestr) →
        env.buildFilename (FileTransfer.downloadDir w) (env.pathGetBasename name) ≠ "." →
        ∃ ft, FileTransfer.parseOffer env w cn = .ok ft
          ∧ ft.size = (gAsciiStrtoll (some sizestr)).toNat ∧ ft.hash = hash ∧ ft.transmit = 0) := by
  obtain ⟨file, found, xmlns, named, sized, hashed⟩ := described.element
  obtain ⟨offer, offerFound, fileFound⟩ := Option.bind_eq_some_iff.mp found
  have valid := validHash_iff.mp described.hash
  unfold FileTransfer.parseOffer
  simp only [offerFound, fileFound, xmlns, named, sized, hashed, ne_eq, not_true_eq_false,
    if_false, valid]
  constructor
  · rintro (negative | dot)
    · rw [if_pos negative]
      exact ⟨_, rfl⟩
    · rw [if_pos dot]
      split <;> exact ⟨_, rfl⟩
  · intro natural noDot
    rw [if_neg (Int.not_lt.mpr natural), if_neg noDot]
    exact ⟨_, rfl, rfl, rfl, rfl⟩

/-- Everything else is refused. -/
theorem parseOffer_undescribed
    (undescribed : ¬∃ name sizestr hash, Described cn name sizestr hash)
    : ∃ err, FileTransfer.parseOffer env w cn = .error err := by
  cases parsed : FileTransfer.parseOffer env w cn with
  | error err => exact ⟨err, rfl⟩
  | ok ft =>
      refine absurd ?_ undescribed
      unfold FileTransfer.parseOffer at parsed
      split at parsed
      · cases parsed
      rename_i offer offerFound
      split at parsed
      · cases parsed
      rename_i file fileFound
      split at parsed
      · cases parsed
      rename_i xmlns
      split at parsed
      · rename_i name sizestr named sized
        dsimp only at parsed
        split at parsed
        · cases parsed
        split at parsed
        · cases parsed
        split at parsed
        · cases parsed
        rename_i valid
        refine ⟨name, sizestr, file.getAttribute "hash", ⟨file, ?_, not_not.mp xmlns, named, sized,
          rfl⟩, validHash_iff.mpr (by simpa using valid)⟩
        rw [offeredElement, offerFound, Option.bind_some, fileFound]
      · cases parsed

theorem Described.named {name sizestr : String} {hash : Option String}
    (described : Described cn name sizestr hash)
    : offeredName cn = some name := by
  obtain ⟨file, found, _, named, _⟩ := described.element
  rw [offeredName, ← named]
  exact congrArg (fun file => Option.bind file (fun file => file.getAttribute "name")) found

/-- One offer describes one file. -/
theorem Described.unique {name name' sizestr sizestr' : String} {hash hash' : Option String}
    (described : Described cn name sizestr hash) (described' : Described cn name' sizestr' hash')
    : name = name' ∧ sizestr = sizestr' ∧ hash = hash' := by
  obtain ⟨file, found, _, named, sized, hashed⟩ := described.element
  obtain ⟨file', found', _, named', sized', hashed'⟩ := described'.element
  cases found.symm.trans found'
  exact ⟨Option.some.inj (named.symm.trans named'), Option.some.inj (sized.symm.trans sized'),
    hashed.symm.trans hashed'⟩

theorem newFromMessage_refused {err : GError}
    (parsed : FileTransfer.parseOffer env w cn = .error err)
    : FileTransfer.newFromMessage env w cn s = .done (.error err) s := by
  rw [FileTransfer.newFromMessage, parsed]
  rfl

theorem newFromMessage_accepted {ft : JingleFT}
    (parsed : FileTransfer.parseOffer env w cn = .ok ft)
    : FileTransfer.newFromMessage env w cn s
      = .done (.ok s.infoList.next) (s.listing ft) := by
  rw [FileTransfer.newFromMessage, parsed]
  rfl

theorem ValidSize.strtoll {sizestr : String} {size : Nat} (valid : ValidSize sizestr size)
    : gAsciiStrtoll (some sizestr) = size :=
  gAsciiStrtoll_of_decimal valid.1 valid.2

/-- An offer is read rightly exactly if a size that is no 63-bit integer is a negative one; with no
directory to download to, exactly if a file named after it has no valid size.
-/
theorem offer_parsed (documented : PathsDocumented env) (w : World) (s : State)
    (cn : JingleContent) (ordinary : ∀ name, offeredName cn = some name → OrdinaryName name)
    : ReadsRightly env w s cn
      ↔ ∀ name sizestr hash, Described cn name sizestr hash →
          (¬NamesDirectory w name → ReadableSize sizestr)
          ∧ (NamesDirectory w name → ¬∃ size, ValidSize sizestr size) := by
  have isDot {name sizestr : String} {hash : Option String}
      (described : Described cn name sizestr hash)
      : env.buildFilename (FileTransfer.downloadDir w) (env.pathGetBasename name) = "."
        ↔ NamesDirectory w name := by
    rw [documented.join, documented.basename]
    exact gBuildFilename_eq_dot (ordinary name described.named).component
  constructor
  · intro right name sizestr hash described
    obtain ⟨refuses, accepts⟩ := parseOffer_described env w described
    refine ⟨fun elsewhere => ?_, fun here valid => ?_⟩
    · by_contra unreadable
      simp only [ReadableSize, not_or, Int.not_lt] at unreadable
      obtain ⟨natural, invalid⟩ := unreadable
      obtain ⟨ft, parsed, _⟩ := accepts natural (fun dot => elsewhere ((isDot described).mp dot))
      obtain ⟨err, refused⟩ := right.refused (fun other => by
        obtain ⟨name', sizestr', size, hash', described', valid⟩ := other
        obtain ⟨_, rfl, _⟩ := described.unique described'
        exact invalid ⟨size, valid⟩)
      cases refused.symm.trans (newFromMessage_accepted parsed)
    · obtain ⟨size, valid⟩ := valid
      obtain ⟨ft, accepted, _⟩ := right.accepted name sizestr size hash described valid
      obtain ⟨err, parsed⟩ := refuses (.inr ((isDot described).mpr here))
      cases accepted.symm.trans (newFromMessage_refused parsed)
  · intro readable
    constructor
    · intro name sizestr size hash described valid
      have elsewhere : ¬NamesDirectory w name := fun here =>
        (readable name sizestr hash described).2 here ⟨size, valid⟩
      obtain ⟨ft, parsed, sized, hashed, nothing⟩ :=
        (parseOffer_described env w described).2
          (by rw [valid.strtoll]; exact Int.natCast_nonneg size)
          (fun dot => elsewhere ((isDot described).mp dot))
      rw [valid.strtoll, Int.toNat_natCast] at sized
      exact ⟨ft, newFromMessage_accepted parsed, sized, hashed, nothing, s.infoList.below⟩
    · intro invalid
      have refused : ∃ err, FileTransfer.parseOffer env w cn = .error err := by
        by_cases some : ∃ name sizestr hash, Described cn name sizestr hash
        · obtain ⟨name, sizestr, hash, described⟩ := some
          obtain ⟨refuses, _⟩ := parseOffer_described env w described
          by_cases here : NamesDirectory w name
          · exact refuses (.inr ((isDot described).mpr here))
          · obtain negative | valid := (readable name sizestr hash described).1 here
            · exact refuses (.inl negative)
            · obtain ⟨size, valid⟩ := valid
              exact absurd ⟨name, sizestr, size, hash, described, valid⟩ invalid
        · exact parseOffer_undescribed some
      obtain ⟨err, parsed⟩ := refused
      exact ⟨err, newFromMessage_refused parsed⟩

/-- A content that offers a file of this size. -/
def sizedOffer (sizestr : String) : JingleContent :=
  { namedOffer "notes" with
    description := element "description" [("xmlns", NS_JINGLE_APP_FT)]
      [element "offer" [] [element "file"
        [("xmlns", NS_SI_FT), ("name", "notes"), ("size", sizestr)] []]] }

theorem sizedOffer_named {sizestr name : String}
    (named : offeredName (sizedOffer sizestr) = some name)
    : OrdinaryName name := by
  have same : offeredName (sizedOffer sizestr) = some "notes" := rfl
  cases same.symm.trans named
  exact ⟨by decide, by decide, 'n', by decide, by decide⟩

theorem sizedOffer_described (sizestr : String)
    : Described (sizedOffer sizestr) "notes" sizestr none :=
  ⟨⟨_, rfl, rfl, rfl, rfl, rfl⟩, fun _ same => by cases same⟩

theorem offer_parsed_four : ReadsRightly pathEnv plainWorld loaded (sizedOffer "4") := by
  refine (offer_parsed pathEnv_documented plainWorld loaded (sizedOffer "4")
    (fun _ named => sizedOffer_named named)).mpr ?_
  intro name sizestr hash described
  obtain ⟨rfl, rfl, rfl⟩ := (sizedOffer_described "4").unique described
  refine ⟨fun _ => .inr ⟨4, by decide +kernel, by decide⟩, fun here => ?_⟩
  exact absurd here.1 (by decide)

/-- A size that is no number is taken for 0. -/
theorem wordless_size_accepted
    : FileTransfer.newFromMessage pathEnv plainWorld (sizedOffer "abc") loaded
        = .done (.ok 1) (loaded.listing { offeredFile 0 with name := "/tmp/notes" })
      ∧ ¬ReadsRightly pathEnv plainWorld loaded (sizedOffer "abc") := by
  have accepted : FileTransfer.newFromMessage pathEnv plainWorld (sizedOffer "abc") loaded
      = .done (.ok 1) (loaded.listing { offeredFile 0 with name := "/tmp/notes" }) := rfl
  refine ⟨accepted, fun right => ?_⟩
  obtain ⟨err, refused⟩ := right.refused (fun other => by
    obtain ⟨name, sizestr, size, hash, described, valid⟩ := other
    obtain ⟨_, rfl, _⟩ := (sizedOffer_described "abc").unique described
    have wordless : decimalInteger "abc" = none := by decide +kernel
    cases wordless.symm.trans valid.1)
  cases accepted.symm.trans refused

end McabberJingle
