import McabberJingle.Guarantees.Verification
import McabberJingle.Jingle.Invitation
import McabberJingle.Program.Paths

/-! Where a peer's file is put. The code keeps only the last component of the offered name, and
tests the joined path where it should test that component.
-/

namespace McabberJingle

open Program Program.Prog

variable {env : Env} {s s' : State} {d : FtPtr} {ft : JingleFT}

-----------------------------------------------------------------------------------------
-- GLib's file names
-----------------------------------------------------------------------------------------

/-- `g_path_get_basename`. -/
def gPathGetBasename (name : String) : String :=
  String.ofList (Path.basename '/' ['.'] name.toList)

/-- `g_build_filename` of two elements. -/
def gBuildFilename (dir name : String) : String :=
  String.ofList (Path.join '/' dir.toList name.toList)

/-- The library's file name functions do what their documentation says. -/
structure PathsDocumented (env : Env) : Prop where
  basename : ∀ name, env.pathGetBasename name = gPathGetBasename name
  join : ∀ dir name, env.buildFilename dir name = gBuildFilename dir name

/-- A name that denotes an entry of the directory it is looked up in. -/
structure PlainName (name : String) : Prop where
  component : Path.IsComponent '/' name.toList
  notDot : name ≠ "."
  notDotDot : name ≠ ".."

/-- A directory joined with a single component. -/
def Confined (dir path : String) : Prop :=
  ∃ name, PlainName name ∧ path = gBuildFilename dir name

/-- What `g_path_get_basename` gives that is no name of a file. -/
def specialNames : List String := [".", "..", "/"]

/-- A base name that is not special is the name of a file. -/
theorem plainName_of_basename {name : String} (plain : gPathGetBasename name ∉ specialNames)
    : PlainName (gPathGetBasename name) := by
  simp only [specialNames, List.mem_cons, List.not_mem_nil, or_false, not_or] at plain
  obtain ⟨notDot, notDotDot, notRoot⟩ := plain
  refine ⟨?_, notDot, notDotDot⟩
  rw [gPathGetBasename, String.toList_ofList]
  obtain dot | root | component := Path.basename_cases '/' ['.'] name.toList
  · exact absurd (congrArg String.ofList dot) notDot
  · exact absurd (congrArg String.ofList root) notRoot
  · exact component

/-- Joined with a special name, a directory gives no path of an entry. -/
theorem not_confined_of_special {dir special : String} (isSpecial : special ∈ specialNames)
    : ¬ Confined dir (gBuildFilename dir special) := by
  intro confined
  obtain ⟨name, plain, same⟩ := confined
  have joined : Path.join '/' dir.toList special.toList = Path.join '/' dir.toList name.toList :=
    String.ofList_injective same
  simp only [specialNames, List.mem_cons, List.not_mem_nil, or_false] at isSpecial
  obtain rfl | rfl | rfl := isSpecial
  · have dot : Path.IsComponent '/' ".".toList := ⟨by decide, by decide⟩
    exact plain.notDot
      (String.toList_injective (Path.join_injective dot plain.component joined)).symm
  · have dots : Path.IsComponent '/' "..".toList := ⟨by decide, by decide⟩
    exact plain.notDotDot
      (String.toList_injective (Path.join_injective dots plain.component joined)).symm
  · exact Path.join_sep_ne dir.toList plain.component joined

theorem confined_iff (dir name : String)
    : Confined dir (gBuildFilename dir (gPathGetBasename name))
      ↔ gPathGetBasename name ∉ specialNames :=
  ⟨fun confined special => not_confined_of_special special confined,
    fun plain => ⟨_, plainName_of_basename plain, rfl⟩⟩

-----------------------------------------------------------------------------------------
-- The file a transfer creates
-----------------------------------------------------------------------------------------

theorem received_name (w : World) (d : FtPtr) (bytes : List UInt8) (ft : JingleFT)
    : (received w d bytes ft).ft.name = ft.name := by
  unfold received receivedWrite
  grind

/-- Only the transfer's own path is ever created. -/
theorem received_created {w : World} {bytes : List UInt8} {p : FtPtr} {path : String}
    (created : .created p path ∈ (received w d bytes ft).ops)
    : path = ft.name := by
  unfold received receivedWrite at created
  grind

/-- By induction on the calls. -/
theorem callsEffect_created {calls : List TransferCall} {p : FtPtr} {path : String}
    (created : .created p path ∈ (callsEffect d ft calls).2)
    : path = ft.name := by
  induction calls generalizing ft with
  | nil => cases created
  | cons call rest ih =>
      cases List.mem_append.mp created with
      | inl now =>
          cases call with
          | data w bytes => exact received_created now
          | info child => cases now
      | inr later =>
          refine (ih later).trans ?_
          cases call with
          | data w bytes => exact received_name w d bytes ft
          | info child => exact effect_info_keeps child JingleFT.name rfl

-----------------------------------------------------------------------------------------
-- The path of an accepted offer
-----------------------------------------------------------------------------------------

/-- The name a peer gives the file it offers. -/
def offeredName (cn : JingleContent) : Option String :=
  ((cn.description.getChild "offer").bind (fun offer => offer.getChild "file")).bind
    (fun file => file.getAttribute "name")

/-- What `newfrommessage` reads from an offer that it accepts. -/
structure Offered (env : Env) (w : World) (cn : JingleContent) (ft : JingleFT) : Prop where
  untouched : Untouched ft
  name : ∃ name, offeredName cn = some name
    ∧ ft.name = env.buildFilename (FileTransfer.downloadDir w) (env.pathGetBasename name)

theorem parseOffer_offered {w : World} {cn : JingleContent}
    (parsed : FileTransfer.parseOffer env w cn = .ok ft)
    : Offered env w cn ft := by
  unfold FileTransfer.parseOffer at parsed
  split at parsed
  · cases parsed
  rename_i offer offerFound
  split at parsed
  · cases parsed
  rename_i file fileFound
  split at parsed
  · cases parsed
  split at parsed
  · rename_i name sizestr nameFound sizeFound
    have named : offeredName cn = some name := by
      rw [offeredName, offerFound, Option.bind_some, fileFound, Option.bind_some, nameFound]
    dsimp only at parsed
    split at parsed
    · cases parsed
    split at parsed
    · cases parsed
    split at parsed
    · cases parsed
    cases parsed
    exact ⟨⟨rfl, rfl, rfl, rfl⟩, name, named, rfl⟩
  · cases parsed

/-- An accepted offer leaves its transfer listed. -/
theorem newFromMessage_offered {w : World} {cn : JingleContent}
    (accepted : FileTransfer.newFromMessage env w cn s = .done (.ok d) s')
    : ∃ ft, Offered env w cn ft ∧ s'.infoList.get? d = some ft := by
  rw [FileTransfer.newFromMessage] at accepted
  cases parsed : FileTransfer.parseOffer env w cn with
  | error err =>
      rw [parsed] at accepted
      cases accepted
  | ok jft =>
      rw [parsed] at accepted
      cases accepted
      exact ⟨jft, parseOffer_offered parsed, Pool.get?_alloc_self _ _⟩

/-- Whatever happens to the transfer then, every file it creates is an entry of the download
directory.
-/
def OpensConfined (env : Env) (w : World) (d : FtPtr) (s : State) : Prop :=
  ∀ w' calls s' ops path, runCalls env w' d calls s = .done () s' → s'.disk = s.disk ++ ops →
    .created d path ∈ ops → Confined (FileTransfer.downloadDir w) path

/-- Shutting a channel down creates no file. -/
theorem created_notMem_shutdownOps (w : World) (d : FtPtr) (ft : JingleFT) (path : String)
    : DiskOp.created d path ∉ shutdownOps w d ft := by
  unfold shutdownOps
  cases ft.waiting <;> simp

/-- A packet that finds the file openable creates it. -/
theorem opensConfined_iff (env : Env) (w : World) (there : s.infoList.get? d = some ft)
    (untouched : Untouched ft)
    : OpensConfined env w d s ↔ Confined (FileTransfer.downloadDir w) ft.name := by
  constructor
  · intro confined
    let call : TransferCall := .data { w with write :=
      { opened := true, encoded := true, status := true, written := 0, flushed := true,
        reached := 0 } } []
    refine confined w [call] _ _ ft.name (runCalls_eq env w there untouched.summable [call])
      (State.stopFt_disk w _ _) (List.mem_append_left _ ?_)
    rw [callsEffect, TransferCall.effect]
    simp [received, untouched.outfile]
  · intro confined w' calls s' ops path ends disk created
    have runs := runCalls_eq env w' there untouched.summable calls
    obtain ⟨-, rfl⟩ := Outcome.done.inj (runs.symm.trans ends)
    rw [State.stopFt_disk] at disk
    cases List.append_cancel_left disk
    rcases List.mem_append.mp created with earlier | last
    · rw [callsEffect_created earlier]
      exact confined
    · exact absurd last (created_notMem_shutdownOps w' d _ path)

/-- A downloaded file stays in the download directory exactly if the last component of the
offered name is none of ".", ".." and "/".
-/
theorem download_path_confined (env : Env) (documented : PathsDocumented env) {w : World}
    {cn : JingleContent} {name : String} {d : FtPtr} {s s' : State}
    (named : offeredName cn = some name)
    (accepted : FileTransfer.newFromMessage env w cn s = .done (.ok d) s')
    : OpensConfined env w d s' ↔ gPathGetBasename name ∉ specialNames := by
  obtain ⟨ft, offered, there⟩ := newFromMessage_offered accepted
  obtain ⟨name', named', path⟩ := offered.name
  cases named.symm.trans named'
  rw [opensConfined_iff env w there offered.untouched, path, documented.join,
    documented.basename, confined_iff]

/-- GLib's own file name functions. -/
def pathEnv : Env :=
  { plainEnv with pathGetBasename := gPathGetBasename, buildFilename := gBuildFilename }

theorem pathEnv_documented : PathsDocumented pathEnv :=
  ⟨fun _ => rfl, fun _ _ => rfl⟩

/-- A content that offers four bytes under this name. -/
def namedOffer (name : String) : JingleContent where
  creator := some .initiator
  disposition := none
  name := "file"
  senders := .both
  description := element "description" [("xmlns", NS_JINGLE_APP_FT)]
    [element "offer" [] [element "file"
      [("xmlns", NS_SI_FT), ("name", name), ("size", "4")] []]]
  transport := element "transport" [("xmlns", NS_JINGLE_TRANSPORT_IBB)] []

theorem download_path_confined_notes
    : OpensConfined pathEnv plainWorld 1 (loaded.listing
        { offeredFile 4 with name := gBuildFilename "/tmp" (gPathGetBasename "a/../notes") }) := by
  have accepted : FileTransfer.newFromMessage pathEnv plainWorld (namedOffer "a/../notes") loaded
      = .done (.ok 1) (loaded.listing
        { offeredFile 4 with name := gBuildFilename "/tmp" (gPathGetBasename "a/../notes") }) := by
    rfl
  exact (download_path_confined pathEnv pathEnv_documented rfl accepted).mpr (by decide +kernel)

/-- The name ".." leaves the download directory. -/
theorem download_path_escapes
    : ¬ ∀ (env : Env) (w : World) (cn : JingleContent) (d : FtPtr) (s s' : State),
        PathsDocumented env → FileTransfer.newFromMessage env w cn s = .done (.ok d) s' →
        OpensConfined env w d s' := by
  intro claim
  let ft := { offeredFile 4 with name := gBuildFilename "/tmp" ".." }
  have accepted : FileTransfer.newFromMessage pathEnv plainWorld (namedOffer "..") loaded
      = .done (.ok 1) (loaded.listing ft) := by
    rfl
  have confined := claim pathEnv plainWorld (namedOffer "..") 1 loaded _ pathEnv_documented accepted
  have entry := (opensConfined_iff pathEnv plainWorld (Pool.get?_alloc_self _ ft)
    ⟨rfl, rfl, rfl, rfl⟩).mp confined
  exact not_confined_of_special (by decide) entry

end McabberJingle
