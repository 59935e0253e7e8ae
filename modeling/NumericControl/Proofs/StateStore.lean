import NumericControl.Proofs.StateRecord
import NumericControl.Simulator.StateStore

/-!
# What was saved is loaded

A file that is written at a path stands at the end of that path afterwards.  The path
leads through directories, and a file takes the place of no directory, so the write does
not change where the path leads.

## Main results

* `FileTree.find?_put_of_directory` — directories stay where a file is put elsewhere.
* `FileTree.entry_of_write` — what is written at a path stands there.
* `loadState_of_saveState` — **what was saved is loaded**.
-/

namespace NumericControl

/-! ### Directories stay -/

namespace FileNode

theorem lookup_filter_ne {name other : List Char} (h : other ≠ name)
    (entries : List (List Char × FileNode)) :
    (entries.filter (·.1 ≠ name)).lookup other = entries.lookup other := by
  induction entries with
  | nil => rfl
  | cons entry entries ih =>
    by_cases hname : entry.1 = name
    · have hother : (other == entry.1) = false := by simp [hname, h]
      rw [List.filter_cons_of_neg (by simp [hname]), ih, List.lookup_cons, hother]
    · rw [List.filter_cons_of_pos (by simp [hname]), List.lookup_cons, List.lookup_cons, ih]

theorem find?_put_same (node : FileNode) (name : List Char) (place other : Place)
    (new : FileNode) :
    (node.put (name :: place) new).find? (name :: other) =
      (((node.entries.lookup name).getD (.directory [])).put place new).find? other := by
  rw [put, find?, entries, List.lookup_cons, beq_self_eq_true]
  rfl

theorem find?_put_ne (node : FileNode) {name name' : List Char} (h : name' ≠ name)
    (place other : Place) (new : FileNode) :
    (node.put (name :: place) new).find? (name' :: other) = node.find? (name' :: other) := by
  have hne : (name' == name) = false := by simp [h]
  rw [put, find?, entries, List.lookup_cons, hne, lookup_filter_ne h]
  rfl

/-- A file that is put where no directory is leaves every directory where it is. -/
theorem entry_find?_put_file {node : FileNode} {place other : Place} (content : List UInt8)
    (hplace : (node.find? place).map entry ≠ some .directory)
    (hother : (node.find? other).map entry = some .directory) :
    ((node.put place (.file content)).find? other).map entry = some .directory := by
  -- along the place where the file is put; the other place leaves it sooner or later,
  -- since below the file there is nothing
  induction place generalizing node other with
  | nil =>
    cases node with
    | file bytes => cases other <;> simp [find?, entry, entries] at hother
    | directory es => exact absurd rfl hplace
  | cons name place ih =>
    cases other with
    | nil => rfl
    | cons name' other =>
      by_cases hname : name' = name
      · subst hname
        rw [find?] at hplace hother
        rw [find?_put_same]
        cases hchild : node.entries.lookup name' with
        | none => simp [hchild] at hother
        | some child =>
          rw [hchild] at hplace hother
          exact ih hplace hother
      · rw [find?_put_ne node hname]
        exact hother

end FileNode

namespace FileTree

theorem find?_put_of_directory {t : FileTree} {place other : Place} (content : List UInt8)
    (hplace : t.find? place ≠ some .directory) (hother : t.find? other = some .directory) :
    (t.put place (.file content)).find? other = some .directory :=
  FileNode.entry_find?_put_file content hplace hother

/-! ### Paths stay -/

/-- A step that leads on does so in every tree with the same directories. -/
theorem follow_mono {t t' : FileTree} {place next : Place} {name : List Char}
    (hdir : ∀ q, t.find? q = some .directory → t'.find? q = some .directory)
    (h : t.follow place name = .ok next) : t'.follow place name = .ok next := by
  cases he : t.find? place with
  | none => simp [follow, he] at h
  | some e =>
    cases e with
    | file content => simp [follow, he] at h
    | directory =>
      rw [follow, he] at h
      rw [follow, hdir place he]
      exact h

theorem foldlM_follow_mono {t t' : FileTree}
    (hdir : ∀ q, t.find? q = some .directory → t'.find? q = some .directory)
    {names : List (List Char)} {place last : Place}
    (h : names.foldlM t.follow place = .ok last) : names.foldlM t'.follow place = .ok last := by
  induction names generalizing place with
  | nil => exact h
  | cons name names ih =>
    rw [List.foldlM_cons] at h ⊢
    cases hstep : t.follow place name with
    | error fault => simp [hstep, bind, Except.bind] at h
    | ok next =>
      rw [hstep] at h
      rw [follow_mono hdir hstep]
      exact ih h

/-- A path that leads somewhere leads there in every tree with the same directories. -/
theorem walk_mono {t t' : FileTree} {path : List Char} {place : Place}
    (hdir : ∀ q, t.find? q = some .directory → t'.find? q = some .directory)
    (hwork : t'.workingPlace = t.workingPlace) (h : t.walk path = .ok place) :
    t'.walk path = .ok place := by
  have hsteps : t'.steps path = t.steps path := by
    unfold steps
    split <;> simp [hwork]
  unfold walk at h ⊢
  rw [hsteps]
  cases htext : textFault? path with
  | some fault => simp [htext] at h
  | none =>
    rw [htext] at h
    by_cases hempty : path = []
    · simp [hempty] at h
    · simp only [hempty, if_false] at h ⊢
      exact foldlM_follow_mono hdir h

/-- **What is written at a path stands there.** -/
theorem entry_of_write {t t' : FileTree} {path : List Char} {content : List UInt8}
    (h : t.write path content = .ok t') : t'.entry path = .ok (.file content) := by
  unfold write at h
  cases hwalk : t.walk path with
  | error fault => simp [hwalk, bind, Except.bind] at h
  | ok place =>
    rw [hwalk] at h
    by_cases hplace : t.find? place = some .directory
    · simp [hplace, bind, Except.bind] at h
    · simp only [hplace, bind, Except.bind, if_false, Except.ok.injEq] at h
      subst h
      -- the path leads to the same place, where the file is now
      have hwalk' := walk_mono (fun q => find?_put_of_directory content hplace) rfl hwalk
      rw [entry, hwalk']
      simp only [bind, Except.bind, find?_put]

end FileTree

/-! ### The state file -/

/-- A record of the current version is what its bytes hold. -/
theorem StoredState.ofBytes?_encode (state : State Binary64) (now : UInt64) :
    StoredState.ofBytes? (StateRecord.ofState state now).encode
      = some (.stored (.ofState state now)) := by
  have hdecode := StateRecord.decode?_encode_append (.ofState state now) []
  rw [List.append_nil] at hdecode
  rw [StoredState.ofBytes?, hdecode]
  rfl

/-- What was saved stands in the state file, if it could be saved. -/
theorem entry_of_saveState {t : FileTree} {path : List Char} {state : State Binary64}
    {now : UInt64} (h : (saveState t path state now).2 = none) :
    (saveState t path state now).1.entry path =
      .ok (.file (StateRecord.ofState state now).encode) := by
  unfold saveState at h ⊢
  generalize t.createDirectories path = made at h ⊢
  rcases made with ⟨t', _ | fault⟩
  · cases hw : t'.write path (StateRecord.ofState state now).encode with
    | error fault => simp [hw] at h
    | ok t'' =>
      simp only [hw]
      exact FileTree.entry_of_write hw
  · exact absurd h (by simp)

/-- **What was saved is loaded**, if it could be saved. -/
theorem loadState_of_saveState {t : FileTree} {path : List Char} {state : State Binary64}
    {now : UInt64} (h : (saveState t path state now).2 = none) :
    loadState (saveState t path state now).1 path = .ok (.stored (.ofState state now)) := by
  rw [loadState, entry_of_saveState h]
  simp only [StoredState.ofBytes?_encode]

end NumericControl
