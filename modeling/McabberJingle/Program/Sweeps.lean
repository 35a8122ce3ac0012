import Mathlib.Data.List.TakeWhile
import McabberJingle.Program.Loops
import McabberJingle.Program.Pool

/-! A singly linked list that is swept in one walk: entries that match are unlinked and freed on the
way, and after each of them the walk goes back to a pointer that trails behind. The trailing pointer
starts on the head of the list, so it dangles as soon as the head itself is freed.
-/

namespace Program

-----------------------------------------------------------------------------------------
-- Links
-----------------------------------------------------------------------------------------

namespace Pool

variable {α : Type}

/-- The first node of a list in allocation order. -/
def first (pool : Pool α) : Option Nat := pool.cells.head?.map Prod.fst

/-- The node that follows another one. -/
def after (pool : Pool α) (node : Nat) : Option Nat :=
  (pool.cells.dropWhile (fun cell => cell.1 != node)).tail.head?.map Prod.fst

/-- The `next` field of a node, none when the node was freed. -/
def link? (pool : Pool α) (node : Nat) : Option (Option Nat) :=
  (pool.get? node).map (fun _ => pool.after node)

/-- Distinct addresses: what stands from a node on. -/
theorem dropWhile_eq {pool : Pool α} {front rest : List (Nat × α)} {cell : Nat × α}
    (cells : pool.cells = front ++ cell :: rest)
    : pool.cells.dropWhile (fun other => other.1 != cell.1) = cell :: rest := by
  have others : ∀ other ∈ front, (other.1 != cell.1) = true := by
    intro other member
    have distinct := pool.distinct
    rw [cells, List.map_append, List.nodup_append] at distinct
    have apart := distinct.2.2 other.1 (List.mem_map_of_mem member) cell.1 (by simp)
    simpa using apart
  have here : (cell.1 != cell.1) = false := by simp
  rw [cells, List.dropWhile_append_of_pos others, List.dropWhile_cons, here]
  rfl

/-- A node is followed by what stands behind it. -/
theorem after_eq {pool : Pool α} {front rest : List (Nat × α)} {cell : Nat × α}
    (cells : pool.cells = front ++ cell :: rest)
    : pool.after cell.1 = rest.head?.map Prod.fst := by
  rw [after, dropWhile_eq cells]
  rfl

/-- How many nodes stand from a pointer on. -/
def ahead (pool : Pool α) : Option Nat → Nat
  | none => 0
  | some node => (pool.cells.dropWhile (fun cell => cell.1 != node)).length

theorem ahead_eq {pool : Pool α} {front rest : List (Nat × α)}
    (cells : pool.cells = front ++ rest)
    : pool.ahead (rest.head?.map Prod.fst) = rest.length := by
  cases rest with
  | nil => rfl
  | cons cell rest => exact congrArg List.length (dropWhile_eq cells)

theorem ahead_of_freed {pool : Pool α} {node : Nat} (gone : pool.get? node = none)
    : pool.ahead (some node) = 0 := by
  have others : ∀ cell ∈ pool.cells, (cell.1 != node) = true := by
    intro cell member
    refine bne_iff_ne.mpr (fun same => ?_)
    have found := get?_eq_some_iff.mpr member
    rw [same, gone] at found
    cases found
  exact List.length_eq_zero_iff.mpr (List.dropWhile_eq_nil_iff.mpr others)

/-- Freeing a node closes the gap in the list. -/
theorem cells_erase {pool : Pool α} {front rest : List (Nat × α)} {cell : Nat × α}
    (cells : pool.cells = front ++ cell :: rest)
    : (pool.erase cell.1).cells = front ++ rest := by
  have distinct := pool.distinct
  rw [cells, List.map_append, List.map_cons, List.nodup_append, List.nodup_cons] at distinct
  have front' : front.filter (fun other => other.1 != cell.1) = front := by
    refine List.filter_eq_self.mpr (fun other member => ?_)
    have apart := distinct.2.2 other.1 (List.mem_map_of_mem member) cell.1 (by simp)
    simpa using apart
  have rest' : rest.filter (fun other => other.1 != cell.1) = rest := by
    refine List.filter_eq_self.mpr (fun other member => ?_)
    have apart : other.1 ≠ cell.1 := fun same =>
      distinct.2.1.1 (same ▸ List.mem_map_of_mem member)
    simpa using apart
  simp only [erase, cells, List.filter_append, front', List.filter_cons, rest']
  simp

theorem get?_of_cells {pool : Pool α} {front rest : List (Nat × α)} {cell : Nat × α}
    (cells : pool.cells = front ++ cell :: rest)
    : pool.get? cell.1 = some cell.2 :=
  get?_eq_some_iff.mpr (by rw [cells]; exact List.mem_append_right _ List.mem_cons_self)

theorem isEmpty_of_found {pool : Pool α} {node : Nat} {entry : α}
    (found : pool.get? node = some entry)
    : pool.cells.isEmpty = false := by
  have member := get?_eq_some_iff.mp found
  cases cells : pool.cells with
  | nil => simp [cells] at member
  | cons cell rest => rfl

end Pool

-----------------------------------------------------------------------------------------
-- Sweeps
-----------------------------------------------------------------------------------------

variable {α : Type}

/-- A walk on its way: the list, the node it stands on, the trailing pointer, and the entries
that were freed so far.
-/
structure Sweep (α : Type) where
  list : Pool α
  el : Option Nat
  prev : Option Nat
  removed : List (Nat × α)

namespace Sweep

/-- The walk begins with both pointers on the head. -/
def start (list : Pool α) : Sweep α where
  list
  el := list.first
  prev := list.first
  removed := []

/-- Go on from a node that stays. -/
def advance (w : Sweep α) (node : Nat) : Sweep α :=
  { w with prev := some node, el := w.list.after node }

/-- Unlink and free a node. -/
def unlink (w : Sweep α) (node : Nat) (entry : α) : Sweep α :=
  { w with list := w.list.erase node, removed := w.removed ++ [(node, entry)] }

/-- `visited` is behind the walk and `rest` before it. -/
structure At (p : α → Bool) (visited rest : List (Nat × α)) (w : Sweep α) : Prop where
  cells : w.list.cells = visited.filter (fun cell => !p cell.2) ++ rest
  el : w.el = rest.head?.map Prod.fst
  removed : w.removed = visited.filter (fun cell => p cell.2)

/-- The trailing pointer is on the last entry that was kept. -/
def Trails (p : α → Bool) (visited : List (Nat × α)) (w : Sweep α) : Prop :=
  ∃ front cell, visited.filter (fun cell => !p cell.2) = front ++ [cell]
    ∧ p cell.2 = false ∧ w.prev = some cell.1

variable {p : α → Bool} {visited rest : List (Nat × α)} {cell : Nat × α} {w : Sweep α}

theorem at_start (p : α → Bool) (list : Pool α) : At p [] list.cells (start list) where
  cells := rfl
  el := rfl
  removed := rfl

theorem At.found (stands : At p visited (cell :: rest) w) : w.list.get? cell.1 = some cell.2 :=
  Pool.get?_of_cells stands.cells

theorem At.advance (stands : At p visited (cell :: rest) w) (stays : p cell.2 = false)
    : At p (visited ++ [cell]) rest (w.advance cell.1) where
  cells := by simp [Sweep.advance, stands.cells, List.filter_append, stays]
  el := Pool.after_eq stands.cells
  removed := by simp [Sweep.advance, stands.removed, List.filter_append, stays]

theorem trails_advance (visited : List (Nat × α)) (w : Sweep α) (stays : p cell.2 = false)
    : Trails p (visited ++ [cell]) (w.advance cell.1) :=
  ⟨visited.filter (fun cell => !p cell.2), cell, by simp [List.filter_append, stays], stays, rfl⟩

/-- The list after an entry was freed. -/
theorem At.cells_unlink (stands : At p visited (cell :: rest) w)
    : (w.unlink cell.1 cell.2).list.cells = visited.filter (fun cell => !p cell.2) ++ rest :=
  Pool.cells_erase stands.cells

theorem At.unlink (stands : At p visited (cell :: rest) w) (matched : p cell.2 = true)
    : At p (visited ++ [cell]) rest
        { w.unlink cell.1 cell.2 with el := rest.head?.map Prod.fst } where
  cells := by
    rw [List.filter_append]
    simpa [matched] using stands.cells_unlink
  el := rfl
  removed := by simp [Sweep.unlink, stands.removed, List.filter_append, matched]

/-- The trailing pointer stays behind while entries are freed. -/
theorem Trails.append (trails : Trails p visited w) (matched : p cell.2 = true)
    : Trails p (visited ++ [cell]) w := by
  obtain ⟨front, last, kept, stays, prev⟩ := trails
  refine ⟨front, last, ?_, stays, prev⟩
  rw [List.filter_append, kept]
  simp [matched]

-----------------------------------------------------------------------------------------
-- Walks come to an end
-----------------------------------------------------------------------------------------

/-- A walk that is not at its end stands on the trailing pointer's node or on the one after it. -/
def Placed (w : Sweep α) : Prop :=
  ∀ node entry, w.el = some node → w.list.get? node = some entry →
    w.prev = some node
      ∨ ∃ front before rest, w.list.cells = front ++ before :: (node, entry) :: rest
        ∧ w.prev = some before.1

/-- What a walk has before it, and what it could still delete. -/
def steps (w : Sweep α) : Nat := w.list.cells.length + w.list.ahead w.el

theorem placed_start (list : Pool α) : Placed (start list) := fun _ _ here _ => .inl here

theorem steps_start (list : Pool α) : (start list).steps = 2 * list.cells.length := by
  have split : list.cells = [] ++ list.cells := rfl
  have all : list.ahead list.first = list.cells.length := Pool.ahead_eq split
  rw [steps, start, all, Nat.two_mul]

section OneStep

variable {node : Nat} {entry : α}

theorem advance_placed (there : w.list.get? node = some entry)
    : Placed (w.advance node) := by
  intro node' entry' here' there'
  obtain ⟨front, rest, cells⟩ := List.append_of_mem (Pool.get?_eq_some_iff.mp there)
  have next : rest.head?.map Prod.fst = some node' := (Pool.after_eq cells).symm.trans here'
  cases rest with
  | nil => cases next
  | cons cell rest =>
      cases next
      have split : w.list.cells = (front ++ [(node, entry)]) ++ cell :: rest := by
        simpa using cells
      cases (Pool.get?_of_cells split).symm.trans there'
      exact .inr ⟨front, (node, entry), rest, cells, rfl⟩

theorem steps_advance (here : w.el = some node) (there : w.list.get? node = some entry)
    : (w.advance node).steps < w.steps := by
  obtain ⟨front, rest, cells⟩ := List.append_of_mem (Pool.get?_eq_some_iff.mp there)
  have before : w.list.ahead (some node) = rest.length + 1 := Pool.ahead_eq cells
  have behind : w.list.ahead (w.list.after node) = rest.length := by
    have split : w.list.cells = (front ++ [(node, entry)]) ++ rest := by simpa using cells
    rw [Pool.after_eq cells]
    exact Pool.ahead_eq split
  simp only [steps, advance, here, before, behind]
  omega

theorem back_placed : Placed { w.unlink node entry with el := w.prev } :=
  fun _ _ here _ => .inl here

/-- A deleted node brings the walk back by one node at most. -/
theorem steps_back (placed : Placed w) (here : w.el = some node)
    (there : w.list.get? node = some entry)
    : Sweep.steps { w.unlink node entry with el := w.prev } < w.steps := by
  obtain ⟨front, rest, cells⟩ := List.append_of_mem (Pool.get?_eq_some_iff.mp there)
  have before : w.list.ahead (some node) = rest.length + 1 := Pool.ahead_eq cells
  have length : w.list.cells.length = (w.list.erase node).cells.length + 1 := by
    rw [Pool.cells_erase cells, cells]
    simp only [List.length_append, List.length_cons]
    omega
  have behind : (w.list.erase node).ahead w.prev ≤ rest.length + 1 := by
    rcases placed node entry here there with level | ⟨front', trailing, rest', cells', prev⟩
    · rw [level, Pool.ahead_of_freed (Pool.get?_erase_self _ _)]
      exact Nat.zero_le _
    · have split : w.list.cells = (front' ++ [trailing]) ++ (node, entry) :: rest' := by
        simpa using cells'
      have rest_eq : rest' = rest := by
        have drop := Pool.dropWhile_eq split
        exact (List.cons.inj (drop.symm.trans (Pool.dropWhile_eq cells))).2
      have left : (w.list.erase node).cells = front' ++ trailing :: rest' := by
        simpa using Pool.cells_erase split
      have trails : (w.list.erase node).ahead (some trailing.1) = rest'.length + 1 :=
        Pool.ahead_eq left
      exact (prev ▸ rest_eq ▸ trails).le
  simp only [steps, unlink, here, before]
  omega

end OneStep

end Sweep

-----------------------------------------------------------------------------------------
-- Loops that sweep
-----------------------------------------------------------------------------------------

variable {σ ε : Type}

/-- What the rounds of a loop do to the walk in its state, if the entries can be freed. Behind a
freed entry the walk goes on from the node that follows the trailing one; a freed trailing node
makes the loop fail.
-/
structure Sweeps (p : α → Bool) (fine : α → Prop) (view : σ → Sweep α)
    (body : σ → Round σ (Except ε σ))
    : Prop where
  ends : ∀ s, (view s).el = none → Loops body s (.ok s)
  keeps : ∀ s node entry, (view s).el = some node → (view s).list.get? node = some entry →
    p entry = false →
    ∃ s', (∀ r, Loops body s' r → Loops body s r) ∧ view s' = (view s).advance node
  clears : ∀ s node entry, (view s).el = some node → (view s).list.get? node = some entry →
    p entry = true → fine entry → ((view s).list.erase node).cells = [] →
    ∃ s', Loops body s (.ok s') ∧ (view s').list = ((view s).unlink node entry).list
      ∧ (view s').removed = ((view s).unlink node entry).removed
  goesBack : ∀ s node entry before kept, (view s).el = some node →
    (view s).list.get? node = some entry → p entry = true → fine entry →
    (view s).prev = some before → ((view s).list.erase node).get? before = some kept →
    p kept = false →
    ∃ s', (∀ r, Loops body s' r → Loops body s r)
      ∧ view s' = { (view s).unlink node entry with
          el := ((view s).list.erase node).after before }
  dangles : ∀ s node entry, (view s).el = some node → (view s).list.get? node = some entry →
    p entry = true → ((view s).list.erase node).cells ≠ [] → (view s).prev = some node →
    ∃ error, Loops body s (.error error)

/-- The head of the list matches and is not alone. -/
def headMatches (p : α → Bool) (list : Pool α) : Bool :=
  match list.cells with
  | head :: _ :: _ => p head.2
  | _ => false

namespace Sweeps

variable {p : α → Bool} {fine : α → Prop} {view : σ → Sweep α}
  {body : σ → Round σ (Except ε σ)}

/-- What a sweep of `cells` should leave. -/
structure Swept (p : α → Bool) (cells : List (Nat × α)) (w : Sweep α) : Prop where
  kept : w.list.cells = cells.filter (fun cell => !p cell.2)
  removed : w.removed = cells.filter (fun cell => p cell.2)

/-- By induction on the entries before the walk: while the trailing pointer is on an entry that
was kept, the rest is swept.
-/
theorem rest_swept (sweeps : Sweeps p fine view body) (rest : List (Nat × α))
    (good : ∀ cell ∈ rest, p cell.2 = true → fine cell.2) {visited : List (Nat × α)} {s : σ}
    (stands : Sweep.At p visited rest (view s)) (trails : Sweep.Trails p visited (view s))
    : ∃ s', Loops body s (.ok s') ∧ Swept p (visited ++ rest) (view s') := by
  induction rest generalizing visited s with
  | nil =>
      refine ⟨s, sweeps.ends s stands.el, ?_, ?_⟩
      · simpa using stands.cells
      · simpa using stands.removed
  | cons cell rest ih =>
      have split : visited ++ cell :: rest = (visited ++ [cell]) ++ rest := by simp
      obtain ⟨fineCell, fineRest⟩ := List.forall_mem_cons.mp good
      cases matched : p cell.2 with
      | false =>
          obtain ⟨s', back, view'⟩ := sweeps.keeps s cell.1 cell.2 stands.el stands.found matched
          have stands' := stands.advance matched
          have trails' := Sweep.trails_advance visited (view s) matched
          rw [← view'] at stands' trails'
          obtain ⟨r, loops, swept⟩ := ih fineRest stands' trails'
          exact ⟨r, back _ loops, split ▸ swept⟩
      | true =>
          obtain ⟨front, last, kept, stays, prev⟩ := id trails
          have cells : ((view s).list.erase cell.1).cells = front ++ last :: rest := by
            have left := stands.cells_unlink
            rw [kept] at left
            simpa [Sweep.unlink] using left
          obtain ⟨s', back, view'⟩ := sweeps.goesBack s cell.1 cell.2 last.1 last.2 stands.el
            stands.found matched (fineCell matched) prev (Pool.get?_of_cells cells) stays
          have stands' := stands.unlink matched
          rw [← Pool.after_eq cells, ← view'] at stands'
          have behind : Sweep.Trails p (visited ++ [cell]) (view s') := by
            rw [view']
            exact Sweep.Trails.append (w := { (view s).unlink cell.1 cell.2 with
              el := ((view s).list.erase cell.1).after last.1 }) trails matched
          obtain ⟨r, loops, swept⟩ := ih fineRest stands' behind
          exact ⟨r, back _ loops, split ▸ swept⟩

/-- The loop sweeps the list unless its head matches and is followed by other entries. -/
theorem swept (sweeps : Sweeps p fine view body) {list : Pool α} {s : σ}
    (begins : view s = Sweep.start list)
    (good : ∀ cell ∈ list.cells, p cell.2 = true → fine cell.2)
    (safe : headMatches p list = false)
    : ∃ s', Loops body s (.ok s') ∧ Swept p list.cells (view s') := by
  have stands : Sweep.At p [] list.cells (view s) := begins ▸ Sweep.at_start p list
  unfold headMatches at safe
  generalize list.cells = rest at stands safe good
  cases rest with
  | nil =>
      refine ⟨s, sweeps.ends s stands.el, ?_, ?_⟩
      · simpa using stands.cells
      · simpa using stands.removed
  | cons cell rest =>
      cases matched : p cell.2 with
      | false =>
          obtain ⟨s', back, view'⟩ := sweeps.keeps s cell.1 cell.2 stands.el stands.found matched
          have stands' := stands.advance matched
          have trails' := Sweep.trails_advance [] (view s) matched
          rw [← view'] at stands' trails'
          obtain ⟨r, loops, swept⟩ := sweeps.rest_swept rest
            (List.forall_mem_cons.mp good).2 stands' trails'
          exact ⟨r, back _ loops, swept⟩
      | true =>
          cases rest with
          | nil =>
              obtain ⟨r, loops, left, gone⟩ := sweeps.clears s cell.1 cell.2 stands.el stands.found
                matched (good cell List.mem_cons_self matched) stands.cells_unlink
              refine ⟨r, loops, ?_, ?_⟩
              · rw [left, stands.cells_unlink]
                simp [matched]
              · rw [gone]
                simp [Sweep.unlink, stands.removed, matched]
          | cons next more => cases safe.symm.trans matched

/-- Otherwise the trailing pointer dangles. -/
theorem fails (sweeps : Sweeps p fine view body) {list : Pool α} {s : σ}
    (begins : view s = Sweep.start list) (matching : headMatches p list = true)
    : ∃ error, Loops body s (.error error) := by
  have stands : Sweep.At p [] list.cells (view s) := begins ▸ Sweep.at_start p list
  unfold headMatches at matching
  split at matching
  · rename_i cell next more cells
    rw [cells] at stands
    have prev : (view s).prev = some cell.1 := by
      rw [begins]
      simp [Sweep.start, Pool.first, cells]
    have others : ((view s).list.erase cell.1).cells ≠ [] := by
      have left := stands.cells_unlink
      simp only [Sweep.unlink] at left
      simp [left]
    exact sweeps.dangles s cell.1 cell.2 stands.el stands.found matching others prev
  · cases matching

end Sweeps

end Program
