import Mathlib.Data.List.Induction
import Mathlib.Logic.Function.Basic

/-! Files by path, written through channels that each keep their own place in a file. Opening a path
creates its file, or empties it under the channels that already write there; a write behind the end
of a file fills the gap. What a channel makes of a file depends on that channel alone while no other
one opens the path.
-/

namespace Program

/-- One step on a disk: channels `κ`, paths `ρ`, bytes `β`. -/
inductive FileOp (κ ρ β : Type) where
  | opened (channel : κ) (path : ρ)
  | wrote (channel : κ) (bytes : List β)

/-- The files that a log of steps has made, and where each channel writes next. -/
structure Files (κ ρ β : Type) where
  file : ρ → Option (List β)
  place : κ → Option (ρ × Nat)

section Replaying

variable {κ ρ β : Type}

def FileOp.channel : FileOp κ ρ β → κ
  | .opened channel _ => channel
  | .wrote channel _ => channel

/-- The same step where paths lead elsewhere. -/
def FileOp.mapPath {ρ' : Type} (f : ρ → ρ') : FileOp κ ρ β → FileOp κ ρ' β
  | .opened channel path => .opened channel (f path)
  | .wrote channel bytes => .wrote channel bytes

/-- A write of nothing leaves a file alone, wherever it is. -/
def splice (gap : β) (content : List β) (offset : Nat) (bytes : List β) : List β :=
  if bytes.isEmpty then
    content
  else
    content.take offset ++ List.replicate (offset - content.length) gap ++ bytes
      ++ content.drop (offset + bytes.length)

variable [DecidableEq κ] [DecidableEq ρ]

def Files.apply (gap : β) (files : Files κ ρ β) : FileOp κ ρ β → Files κ ρ β
  | .opened channel path =>
      { file := Function.update files.file path (some [])
        place := Function.update files.place channel (some (path, 0)) }
  | .wrote channel bytes =>
      match files.place channel with
      | none => files
      | some (path, offset) =>
          let written := (files.file path).map (fun content => splice gap content offset bytes)
          { file := Function.update files.file path written
            place := Function.update files.place channel (some (path, offset + bytes.length)) }

/-- The files after a log. -/
def replay (gap : β) (log : List (FileOp κ ρ β)) : Files κ ρ β :=
  log.foldl (Files.apply gap) { file := fun _ => none, place := fun _ => none }

end Replaying

-----------------------------------------------------------------------------------------
-- One step
-----------------------------------------------------------------------------------------

section Steps

variable {κ ρ β : Type} {gap : β} {log ops : List (FileOp κ ρ β)} {channel : κ} {path : ρ}

/-- At the end of a file a write appends. -/
theorem splice_end (content bytes : List β)
    : splice gap content content.length bytes = content ++ bytes := by
  unfold splice
  cases bytes <;> simp

/-- No channel but `channel` was opened on the path. -/
def Owns (channel : κ) (path : ρ) (log : List (FileOp κ ρ β)) : Prop :=
  ∀ other, .opened other path ∈ log → other = channel

theorem Owns.left (owns : Owns channel path (log ++ ops)) : Owns channel path log :=
  fun other opened => owns other (List.mem_append_left ops opened)

variable [DecidableEq κ] [DecidableEq ρ]

theorem replay_append (op : FileOp κ ρ β)
    : replay gap (log ++ [op]) = (replay gap log).apply gap op := by
  simp [replay]

/-- A channel writes where it was opened. -/
theorem opened_of_place {offset : Nat}
    (place : (replay gap log).place channel = some (path, offset))
    : .opened channel path ∈ log := by
  induction log using List.reverseRecOn generalizing offset with
  | nil => cases place
  | append_singleton log op ih =>
      rw [List.mem_append]
      rw [replay_append] at place
      cases op with
      | opened other path' =>
          simp only [Files.apply, Function.update_apply] at place
          split at place
          · rename_i same
            cases place
            exact Or.inr (same ▸ List.mem_singleton.mpr rfl)
          · exact Or.inl (ih place)
      | wrote other bytes =>
          unfold Files.apply at place
          dsimp only at place
          split at place
          · exact Or.inl (ih place)
          · rename_i known
            simp only [Function.update_apply] at place
            split at place
            · rename_i same
              cases place
              exact Or.inl (ih (same ▸ known))
            · exact Or.inl (ih place)

/-- The other channels write elsewhere. -/
theorem Owns.other (gap : β) {op : FileOp κ ρ β} (owns : Owns channel path (log ++ [op]))
    (other : op.channel ≠ channel)
    : (replay gap (log ++ [op])).file path = (replay gap log).file path
      ∧ (replay gap (log ++ [op])).place channel = (replay gap log).place channel := by
  rw [replay_append]
  cases op with
  | opened c path' =>
      have elsewhere : path ≠ path' := by
        rintro rfl
        exact other (owns c (List.mem_append_right log (List.mem_singleton.mpr rfl)))
      exact ⟨Function.update_of_ne elsewhere _ _, Function.update_of_ne (Ne.symm other) _ _⟩
  | wrote c bytes =>
      unfold Files.apply
      dsimp only
      split
      · exact ⟨rfl, rfl⟩
      · rename_i path' offset known
        have elsewhere : path ≠ path' := by
          rintro rfl
          exact other (owns.left c (opened_of_place known))
        exact ⟨Function.update_of_ne elsewhere _ _, Function.update_of_ne (Ne.symm other) _ _⟩

end Steps

-----------------------------------------------------------------------------------------
-- A channel on its own
-----------------------------------------------------------------------------------------

section Growing

variable {κ ρ β : Type}

/-- A file that is created and appended to. -/
def grow (content : Option (List β)) : FileOp κ ρ β → Option (List β)
  | .opened _ _ => some []
  | .wrote _ bytes => content.map (· ++ bytes)

/-- What these steps make of a file that nothing else touches. -/
def grown (ops : List (FileOp κ ρ β)) : Option (List β) := ops.foldl grow none

theorem grown_append (ops more : List (FileOp κ ρ β))
    : grown (ops ++ more) = more.foldl grow (grown ops) :=
  List.foldl_append

/-- Where the paths lead is nothing to what a file that they all lead to becomes. -/
theorem grown_mapPath {ρ' : Type} (f : ρ → ρ') (ops : List (FileOp κ ρ β))
    : grown (ops.map (FileOp.mapPath f)) = grown ops := by
  have same (content : Option (List β)) (op : FileOp κ ρ β)
      : grow content (op.mapPath f) = grow content op := by
    cases op <;> rfl
  simp only [grown, List.foldl_map, same]

variable {gap : β} {log : List (FileOp κ ρ β)} {channel : κ} {path : ρ} [DecidableEq κ]

/-- The steps of one channel. -/
def stepsOf (channel : κ) (log : List (FileOp κ ρ β)) : List (FileOp κ ρ β) :=
  log.filter (fun op => op.channel = channel)

theorem stepsOf_append (log more : List (FileOp κ ρ β))
    : stepsOf channel (log ++ more) = stepsOf channel log ++ stepsOf channel more :=
  List.filter_append ..

theorem stepsOf_mapPath {ρ' : Type} (f : ρ → ρ') (log : List (FileOp κ ρ β))
    : stepsOf channel (log.map (FileOp.mapPath f))
      = (stepsOf channel log).map (FileOp.mapPath f) := by
  have same : (fun op : FileOp κ ρ' β => decide (op.channel = channel)) ∘ FileOp.mapPath f
      = fun op => decide (op.channel = channel) := by
    funext op
    cases op <;> rfl
  rw [stepsOf, List.filter_map, same]
  rfl

variable [DecidableEq ρ]

/-- A channel writes at the end of the file at `path`, once that is there. -/
structure AtEnd (files : Files κ ρ β) (channel : κ) (path : ρ) (content : Option (List β))
    : Prop where
  file : files.file path = content
  place : files.place channel = content.map (fun content => (path, content.length))

/-- What the channel does there lets the file grow. -/
theorem AtEnd.own {files : Files κ ρ β} {content : Option (List β)} {op : FileOp κ ρ β}
    (atEnd : AtEnd files channel path content) (gap : β) (ours : op.channel = channel)
    (here : ∀ path', op = .opened channel path' → path' = path)
    : AtEnd (files.apply gap op) channel path (grow content op) := by
  cases op with
  | opened c path' =>
      change c = channel at ours
      subst ours
      cases here path' rfl
      exact ⟨Function.update_self .., Function.update_self ..⟩
  | wrote c bytes =>
      change c = channel at ours
      subst ours
      have file := atEnd.file
      have place := atEnd.place
      cases content with
      | none => constructor <;> simp [Files.apply, grow, place, file]
      | some content => constructor <;> simp [Files.apply, grow, place, file, splice_end]

/-- The only channel that opens a path, opening no other, makes of the file there what it would on
its own: it writes at the end, from when it is first opened on.
-/
theorem replay_file (owns : Owns channel path log)
    (only : ∀ path', .opened channel path' ∈ log → path' = path)
    : AtEnd (replay gap log) channel path (grown (stepsOf channel log)) := by
  induction log using List.reverseRecOn with
  | nil => exact ⟨rfl, rfl⟩
  | append_singleton log op ih =>
      have before := ih owns.left
        (fun path' opened => only path' (List.mem_append_left _ opened))
      rw [stepsOf_append, grown_append]
      by_cases ours : op.channel = channel
      · have alone : stepsOf channel [op] = [op] := by simp [stepsOf, ours]
        rw [alone, replay_append]
        refine before.own gap ours (fun path' opens => only path' ?_)
        exact List.mem_append_right _ (List.mem_singleton.mpr opens.symm)
      · have others : stepsOf channel [op] = [] := by simp [stepsOf, ours]
        obtain ⟨file, place⟩ := owns.other gap ours
        rw [others]
        exact ⟨file.trans before.file, place.trans before.place⟩

end Growing

end Program
