import NumericControl.Proofs.NormalForm

/-!
# Commands are clean

What is kept of a line holds no small letter, no parenthesis and nothing that has no place in a
command.  If it is a command, it is short enough and does not begin with a slash either.  Here
it is shown that nothing else is true of all commands: every text like that is a command, as it
is its own normal form.  So to normalize a command once more changes nothing.

A slash may stand anywhere in a command but at its head.  The second pass sees the head of the
command where the first one saw the first character it kept, and had that been a slash, the
whole line would have been deleted.

## Main definitions

* `IsClean` — what is true of all commands.

## Main results

* `mem_keptText` — the characters that are kept of a line.
* `keptText_of_isClean` — of a clean text everything is kept.
* `commands_are_clean` — **the commands are the clean texts**, and each of them is its own
  normal form.
-/

namespace NumericControl

/-- A text is short enough for a command, it holds no small letter, no opening parenthesis and
nothing that has no place in a command, and it does not begin with a slash. -/
structure IsClean (text : List Char) : Prop where
  length_le : text.length ≤ 255
  isLower_eq : ∀ c ∈ text, c.isLower = false
  ne_paren : ∀ c ∈ text, c ≠ '('
  not_isLeftOut : ∀ c ∈ text, ¬ IsLeftOut c
  head?_ne : text.head? ≠ some '/'

/-- One look at each character tells whether a text is clean. -/
theorem isClean_iff (text : List Char) :
    IsClean text ↔ text.length ≤ 255 ∧ text.head? ≠ some '/' ∧
      text.all fun c => !c.isLower && c != '(' && !decide (IsLeftOut c) := by
  simp only [List.all_eq_true, Bool.and_eq_true, Bool.not_eq_true', bne_iff_ne,
    decide_eq_false_iff_not]
  constructor
  · intro h
    exact ⟨h.length_le, h.head?_ne, fun c hc =>
      ⟨⟨h.isLower_eq c hc, h.ne_paren c hc⟩, h.not_isLeftOut c hc⟩⟩
  · rintro ⟨hlength, hhead, hall⟩
    exact ⟨hlength, fun c hc => (hall c hc).1.1, fun c hc => (hall c hc).1.2,
      fun c hc => (hall c hc).2, hhead⟩

instance (text : List Char) : Decidable (IsClean text) :=
  decidable_of_iff _ (isClean_iff text).symm

/-! ### What is kept of a line -/

/-- **The characters that are kept of a line.** -/
theorem mem_keptText {raw : List Char} {c : Char} (hc : c ∈ keptText raw) :
    c.isLower = false ∧ c ≠ '(' ∧ ¬ IsLeftOut c := by
  obtain ⟨hmem, hout⟩ := List.mem_filter.mp hc
  obtain ⟨d, hd, rfl⟩ := List.mem_map.mp hmem
  have hparen : d ≠ '(' := by
    simpa using List.all_eq_true.mp List.all_takeWhile d hd
  exact ⟨Char.isLower_toUpper_eq_false d, fun h => hparen (eq_paren_of_toUpper h), by simpa using hout⟩

/-- **Of a clean text everything is kept**, and there is no comment. -/
theorem keptText_of_isClean {text : List Char} (h : IsClean text) :
    keptText text = text ∧ comment? text = none := by
  have hparen : ∀ c ∈ text, (c != '(') = true := fun c hc => by simpa using h.ne_paren c hc
  have hcommand : commandPart text = text := List.takeWhile_eq_self_iff.mpr hparen
  have hrest : text.dropWhile (· != '(') = [] := List.dropWhile_eq_nil_iff.mpr hparen
  have hupper : text.map Char.toUpper = text :=
    (List.map_congr_left fun c hc =>
      Char.toUpper_eq_of_not_isLower (by simp [h.isLower_eq c hc])).trans (List.map_id text)
  constructor
  · rw [keptText, hcommand, hupper, List.filter_eq_self]
    exact fun c hc => by simpa using h.not_isLeftOut c hc
  · rw [comment?, hrest]
    rfl

/-! ### Normal forms -/

variable {α : Type}

/-- The command of a line is clean. -/
theorem isClean_of_normalize {raw : List Char} {b : NormalBlock}
    (h : normalize (α := α) raw = .ok b) : IsClean b.command := by
  rw [normalize, normalizeFrom_eq] at h
  split at h
  · -- of a line that is deleted there is no command
    rw [← Except.ok.inj h]
    decide
  · next hslash =>
    split at h
    · exact absurd h (by simp)
    · next hlength =>
      obtain rfl := Except.ok.inj h
      exact ⟨Nat.le_of_not_lt hlength, fun c hc => (mem_keptText hc).1,
        fun c hc => (mem_keptText hc).2.1, fun c hc => (mem_keptText hc).2.2,
        fun hhead => hslash ⟨rfl, hhead⟩⟩

/-- A clean text is its own normal form. -/
theorem normalize_of_isClean {text : List Char} (h : IsClean text) :
    normalize (α := α) text = .ok ⟨text, none⟩ := by
  obtain ⟨hkept, hcomment⟩ := keptText_of_isClean h
  have hlong : ¬ blockCapacity < text.length := Nat.not_lt_of_le h.length_le
  rw [normalize, normalizeFrom_eq, hkept, hcomment, if_neg fun hhead => h.head?_ne hhead.2,
    if_neg hlong]
  rfl

/-- **The commands are the clean texts.**

The command of a line has at most 255 characters, none of them a small letter, an opening
parenthesis or one that has no place in a command, and it does not begin with a slash.
Normalized once more it is the same command, and there is no message.  The other way round,
every text of which all this is true is the command of a line, namely of itself. -/
theorem commands_are_clean :
    (∀ raw b, normalize (α := α) raw = .ok b →
      IsClean b.command ∧ normalize (α := α) b.command = .ok ⟨b.command, none⟩) ∧
    ∀ text, IsClean text → normalize (α := α) text = .ok ⟨text, none⟩ := by
  refine ⟨fun raw b h => ?_, fun text h => normalize_of_isClean h⟩
  have hclean := isClean_of_normalize h
  exact ⟨hclean, normalize_of_isClean hclean⟩

/-- A slash behind the head of a command divides; one at its head would delete the block. -/
example : IsClean "X1/2#1=[2*-.5]".toList ∧ ¬ IsClean "/X1".toList ∧ ¬ IsClean "X1(2)".toList := by
  decide

end NumericControl
