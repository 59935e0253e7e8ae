import NumericControl.Block.Normal
import NumericControl.Block.Proposal

/-!
# The words of a command

A command is read and gathered in one go: each word is looked at as soon as it is
read, and the first fault ends both.  Here the two are taken apart.  A command has
words, or its text is at fault, and a proposal is what all of its words together make
of the one the machine carries.

## Main definitions

* `WordReader.words` — the words that a reader still has to read.
* `BlockFault.OfText` — a fault that the text of a line has by itself.

## Main results

* `Proposal.applyAll_eq_ok_iff` — a command is a block exactly if all of it is read and
  every word has a meaning.
* `Proposal.ofText_of_applyAll`, `ofText_of_normalize` — what is wrong with a line
  before its block is executed is wrong with its text.
-/

namespace NumericControl

/-- A fault that the text of a line has by itself, whatever the machine. -/
def BlockFault.OfText {α : Type} : BlockFault α → Prop
  | .machine _ => False
  | _ => True

variable {α : Type}

/-- A run of one kind in front of something of another kind is found by its kind. -/
theorem span_append {p : α → Bool} {run rest : List α} (hrun : ∀ a ∈ run, p a = true)
    (hrest : ∀ a ∈ rest.head?, p a = false) :
    (run ++ rest).takeWhile p = run ∧ (run ++ rest).dropWhile p = rest := by
  rw [List.takeWhile_append_of_pos hrun, List.dropWhile_append_of_pos hrun]
  cases rest with
  | nil => simp
  | cons a rest =>
    have ha : p a = false := hrest a rfl
    simp [ha]

/-! ### Reading -/

namespace WordReader

variable [Number α]

/-- The words that a reader still has to read, or the first fault of the text. -/
def words (r : WordReader) : Except (BlockFault α) (List (Word α)) :=
  match _h : next (α := α) r with
  | (.done, _) => .ok []
  | (.fault f, _) => .error f
  | (.word w, r') =>
    match words r' with
    | .error f => .error f
    | .ok ws => .ok (w :: ws)
  termination_by r.rest.length
  decreasing_by
    have hlt := length_rest_lt_of_word (r := r) (w := w) (by rw [_h])
    rwa [_h] at hlt

theorem words_of_done {r r' : WordReader} (h : next (α := α) r = (.done, r')) :
    words (α := α) r = .ok [] := by
  rw [words]
  split
  · rfl
  · next heq => rw [heq] at h; exact absurd h (by simp)
  · next heq => rw [heq] at h; exact absurd h (by simp)

theorem words_of_fault {r r' : WordReader} {f : BlockFault α} (h : r.next = (.fault f, r')) :
    r.words = .error f := by
  rw [words]
  split
  · next heq => rw [heq] at h; exact absurd h (by simp)
  · next heq =>
    rw [heq] at h
    rw [ReadStep.fault.inj (Prod.mk.inj h).1]
  · next heq => rw [heq] at h; exact absurd h (by simp)

/-- Behind a word come the words of the rest. -/
theorem words_of_word {r r' : WordReader} {w : Word α} (h : r.next = (.word w, r')) :
    r.words = (r'.words).map (w :: ·) := by
  rw [words]
  split
  · next heq => rw [heq] at h; exact absurd h (by simp)
  · next heq => rw [heq] at h; exact absurd h (by simp)
  · next heq =>
    rw [heq] at h
    obtain ⟨hw, rfl⟩ := Prod.mk.inj h
    rw [ReadStep.word.inj hw]
    cases words (α := α) _ <;> rfl

theorem toEnd_of_done {r r' : WordReader} (h : next (α := α) r = (.done, r')) :
    toEnd (α := α) r = [(.done, r'.cursor)] := by
  rw [toEnd]
  split
  · next heq => rw [heq] at h; exact absurd h (by simp)
  · next heq => rw [heq] at h; exact absurd h (by simp)
  · next heq =>
    rw [heq] at h
    rw [(Prod.mk.inj h).2]

/-- Behind a word come the steps of the rest. -/
theorem toEnd_of_word {r r' : WordReader} {w : Word α} (h : r.next = (.word w, r')) :
    r.toEnd = (.word w, r'.cursor) :: r'.toEnd := by
  rw [toEnd]
  split
  · next heq =>
    rw [heq] at h
    obtain ⟨hw, rfl⟩ := Prod.mk.inj h
    rw [ReadStep.word.inj hw]
  · next heq => rw [heq] at h; exact absurd h (by simp)
  · next heq => rw [heq] at h; exact absurd h (by simp)

/-- A text without words is at its end. -/
theorem exists_next_of_nil {r : WordReader} (h : words (α := α) r = .ok []) :
    ∃ r', next (α := α) r = (.done, r') := by
  rcases hnext : next (α := α) r with ⟨w | f | _, r'⟩
  · rw [words_of_word hnext] at h
    cases hr : words (α := α) r' <;> rw [hr] at h <;> exact absurd h (by simp [Except.map])
  · rw [words_of_fault hnext] at h
    exact absurd h (by simp)
  · exact ⟨r', rfl⟩

/-- The first of the words is read first. -/
theorem exists_next_of_cons {r : WordReader} {w : Word α} {ws : List (Word α)}
    (h : r.words = .ok (w :: ws)) : ∃ r', r.next = (.word w, r') ∧ r'.words = .ok ws := by
  rcases hnext : next (α := α) r with ⟨w' | f | _, r'⟩
  · rw [words_of_word hnext] at h
    cases hr : words (α := α) r' with
    | error fault => rw [hr] at h; exact absurd h (by simp [Except.map])
    | ok ws' =>
      rw [hr] at h
      obtain ⟨rfl, rfl⟩ := List.cons.inj (Except.ok.inj h)
      exact ⟨r', rfl, hr⟩
  · rw [words_of_fault hnext] at h
    exact absurd h (by simp)
  · rw [words_of_done hnext] at h
    exact absurd h (by simp)

theorem rest_of_done {r r' : WordReader} (h : next (α := α) r = (.done, r')) :
    r.rest = [] := by
  unfold next at h
  split at h
  · assumption
  · split at h
    · split at h <;> exact absurd h (by simp)
    · exact absurd h (by simp)

/-- At the end of its text a reader stays. -/
theorem eq_of_done {r r' : WordReader} (h : next (α := α) r = (.done, r')) : r' = r := by
  have hsnd := congrArg Prod.snd h
  rw [next, rest_of_done h] at hsnd
  exact hsnd.symm

/-- A reader finds fault with a text only. -/
theorem ofText_of_next {r r' : WordReader} {f : BlockFault α} (h : r.next = (.fault f, r')) :
    f.OfText := by
  unfold next at h
  split at h
  · exact absurd h (by simp)
  · split at h
    · split at h
      · simp only [Prod.mk.injEq, ReadStep.fault.injEq] at h
        rw [← h.1]
        trivial
      · exact absurd h (by simp)
    · simp only [Prod.mk.injEq, ReadStep.fault.injEq] at h
      rw [← h.1]
      trivial

end WordReader

/-! ### Gathering -/

namespace Proposal

variable [Number α]

/-- A word without a meaning is a fault of the text. -/
theorem ofText_of_apply {p : Proposal α} {w : Word α} {f : BlockFault α}
    (h : p.apply w = .error f) : f.OfText := by
  unfold apply at h
  split at h
  · exact absurd h (by simp)
  · rw [← Except.error.inj h]
    trivial

/-- **A command is a block exactly if all of its words are read and each of them has a
meaning**, and the proposal is then what the words make of the one before them. -/
theorem applyAll_eq_ok_iff (p q : Proposal α) (r : WordReader) :
    p.applyAll r = .ok q ↔ ∃ ws, r.words = .ok ws ∧ ws.foldlM apply p = .ok q := by
  -- along the gathering: at the end, at a fault of the text, at a word without a meaning,
  -- and behind a word that has one
  fun_induction applyAll p r with
  | case1 p r r' h =>
    simp [WordReader.words_of_done h, pure, Except.pure]
  | case2 p r f r' h =>
    simp [WordReader.words_of_fault h]
  | case3 p r w r' h f hw =>
    rw [WordReader.words_of_word h]
    simp only [reduceCtorEq, false_iff, not_exists, not_and]
    intro ws hws
    cases hr : WordReader.words (α := α) r' with
    | error f' => rw [hr] at hws; exact absurd hws (by simp [Except.map])
    | ok rest =>
      rw [hr] at hws
      obtain rfl : w :: rest = ws := Except.ok.inj hws
      simp [hw, bind, Except.bind]
  | case4 p r w r' h p' hw ih =>
    rw [ih, WordReader.words_of_word h]
    cases hr : WordReader.words (α := α) r' with
    | error f' => simp [Except.map]
    | ok rest => simp [Except.map, hw, bind, Except.bind]

/-- If all of a text can be read, its words are gathered one after another, up to the first
without a meaning. -/
theorem applyAll_of_words {p : Proposal α} {r : WordReader} {ws : List (Word α)}
    (h : r.words = .ok ws) : p.applyAll r = ws.foldlM apply p := by
  fun_induction applyAll p r generalizing ws with
  | case1 p r r' hr =>
    rw [WordReader.words_of_done hr] at h
    rw [← Except.ok.inj h]
    rfl
  | case2 p r f r' hr =>
    rw [WordReader.words_of_fault hr] at h
    exact absurd h (by simp)
  | case3 p r w r' hr f hw =>
    rw [WordReader.words_of_word hr] at h
    cases hrest : WordReader.words (α := α) r' with
    | error f' => rw [hrest] at h; exact absurd h (by simp [Except.map])
    | ok rest =>
      rw [hrest] at h
      rw [← Except.ok.inj h, List.foldlM_cons, hw]
      rfl
  | case4 p r w r' hr p' hw ih =>
    rw [WordReader.words_of_word hr] at h
    cases hrest : WordReader.words (α := α) r' with
    | error f' => rw [hrest] at h; exact absurd h (by simp [Except.map])
    | ok rest =>
      rw [hrest] at h
      rw [← Except.ok.inj h, List.foldlM_cons, hw]
      exact ih hrest

/-- Reading and gathering find fault with the text only. -/
theorem ofText_of_applyAll {p : Proposal α} {r : WordReader} {f : BlockFault α}
    (h : p.applyAll r = .error f) : f.OfText := by
  fun_induction applyAll p r with
  | case1 p r r' hr => exact absurd h (by simp)
  | case2 p r f' r' hr =>
    rw [← Except.error.inj h]
    exact WordReader.ofText_of_next hr
  | case3 p r w r' hr f' hw =>
    rw [← Except.error.inj h]
    exact ofText_of_apply hw
  | case4 p r w r' hr p' hw ih => exact ih h

end Proposal

/-! ### Normal forms -/

theorem ofText_of_normalizeFrom {room : Nat} {begun : Bool} {raw : List Char}
    {f : BlockFault α} (h : normalizeFrom room begun raw = .error f) : f.OfText := by
  -- the room and the beginning change from one character to the next
  induction raw generalizing room begun with
  | nil => exact absurd h (by simp [normalizeFrom])
  | cons c raw ih =>
    unfold normalizeFrom at h
    dsimp only at h
    split at h
    · exact absurd h (by simp)
    · exact ih h
    · split at h
      · exact absurd h (by simp)
      · cases room with
        | zero => rw [← Except.error.inj h]; trivial
        | succ room =>
          cases hr : normalizeFrom (α := α) room true raw with
          | error f' =>
            simp only [hr, bind, Except.bind] at h
            exact ih (hr.trans h)
          | ok b => simp [hr, bind, Except.bind, pure, Except.pure] at h

/-- A line without a normal form is at fault by itself. -/
theorem ofText_of_normalize {raw : List Char} {f : BlockFault α}
    (h : normalize raw = .error f) : f.OfText :=
  ofText_of_normalizeFrom h

end NumericControl
