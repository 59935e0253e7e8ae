import NumericControl.Proofs.Words

/-!
# How words are spelled

A word is spelled by a letter and a numeral, and a command by the spellings of its words,
one behind another.  No blank has to stand between them: a numeral ends before the next
letter, so what is read does not depend on what comes behind.  The other way round, every
command that can be read is taken apart into such spellings.  And whatever is put together
from spellings, in any order, is in normal form already.

## Main definitions

* `Numeral`, `Numeral.text`, `Numeral.value` — the numerals that a word may hold.
* `Numeral.EndsBefore` — a numeral does not go on with a text.
* `Spelling`, `Spelling.spell` — the spelling of a word, and the text of words.
* `StandsForItself` — a character that a command keeps as it is.

## Main results

* `Numeral.read?_text`, `Numeral.exists_of_read?` — a numeral is read where it ends, and what is
  read is a numeral up to its end.
* `Spelling.words_spell`, `Spelling.exists_spell` — **reading takes apart what spelling puts
  together**.
* `Spelling.normalize_spell` — a text of words that is not too long is a line in normal form.
-/

namespace NumericControl

/-! ### Numerals -/

/-- A numeral: a sign or none, digits, and digits behind a point or no point.  There is at
least one digit. -/
structure Numeral where
  sign : List Char
  whole : List Char
  /-- The digits behind the point, if there is a point. -/
  fraction : Option (List Char)
  sign_eq : sign = [] ∨ sign = ['-'] ∨ sign = ['+']
  isDigit_whole : ∀ c ∈ whole, c.isDigit = true
  isDigit_fraction : ∀ c ∈ fraction.getD [], c.isDigit = true
  nonempty : whole ++ fraction.getD [] ≠ []
  deriving DecidableEq

namespace Numeral

/-- The point and the digits behind it. -/
def pointText (n : Numeral) : List Char :=
  match n.fraction with
  | none => []
  | some digits => '.' :: digits

/-- The characters of a numeral. -/
def text (n : Numeral) : List Char :=
  n.sign ++ (n.whole ++ n.pointText)

theorem text_ne_nil (n : Numeral) : n.text ≠ [] := by
  intro h
  obtain ⟨-, h⟩ := List.append_eq_nil_iff.mp h
  obtain ⟨hwhole, hpoint⟩ := List.append_eq_nil_iff.mp h
  refine n.nonempty ?_
  cases hfraction : n.fraction with
  | none => simp [hwhole]
  | some digits => simp [pointText, hfraction] at hpoint

/-- The number that a numeral writes. -/
def value (n : Numeral) : Decimal where
  negative := decide (n.sign = ['-'])
  digits := Decimal.ofDigits (n.whole ++ n.fraction.getD [])
  exponent := -((n.fraction.getD []).length : Int)

/-- A numeral does not go on with a text: the text begins with no digit, and with a point only
if the numeral has a point already. -/
def EndsBefore (n : Numeral) (rest : List Char) : Prop :=
  ∀ c ∈ rest.head?, c.isDigit = false ∧ (c = '.' → n.fraction.isSome)

/-- The digits at the head of a text, and what stands behind them. -/
theorem exists_digits (s : List Char) :
    ∃ digits rest, s = digits ++ rest ∧ (∀ c ∈ digits, c.isDigit = true) ∧
      ∀ c ∈ rest.head?, c.isDigit = false := by
  induction s with
  | nil => exact ⟨[], [], rfl, by simp, by simp⟩
  | cons c s ih =>
    cases hc : c.isDigit with
    | false => exact ⟨[], c :: s, rfl, by simp, by simpa using hc⟩
    | true =>
      obtain ⟨digits, rest, rfl, hdigits, hrest⟩ := ih
      exact ⟨c :: digits, rest, rfl, by simpa [hc] using hdigits, hrest⟩

/-- A sign is taken off what begins without one. -/
theorem takeSign_append (n : Numeral) {s : List Char} (hs : ∀ c ∈ s.head?, c ≠ '-' ∧ c ≠ '+') :
    Decimal.takeSign (n.sign ++ s) = (decide (n.sign = ['-']), s) := by
  rcases n.sign_eq with h | h | h
  · rw [h, List.nil_append]
    unfold Decimal.takeSign
    split
    · exact absurd rfl (hs _ rfl).1
    · exact absurd rfl (hs _ rfl).2
    · rfl
  · rw [h]
    rfl
  · rw [h]
    rfl

theorem exists_sign (s : List Char) :
    ∃ sign, (sign = [] ∨ sign = ['-'] ∨ sign = ['+']) ∧ s = sign ++ (Decimal.takeSign s).2 ∧
      (Decimal.takeSign s).1 = decide (sign = ['-']) := by
  unfold Decimal.takeSign
  split
  · exact ⟨['-'], by simp, rfl, rfl⟩
  · exact ⟨['+'], by simp, rfl, rfl⟩
  · exact ⟨[], by simp, rfl, rfl⟩

/-- Behind its sign a numeral goes on with a digit or a point. -/
theorem head?_ne_sign (n : Numeral) (rest : List Char) :
    ∀ c ∈ (n.whole ++ (n.pointText ++ rest)).head?, c ≠ '-' ∧ c ≠ '+' := by
  intro c hc
  cases hwhole : n.whole with
  | cons d whole =>
    obtain rfl : d = c := by simpa [hwhole] using hc
    have hdigit := n.isDigit_whole d (by simp [hwhole])
    constructor <;> rintro rfl <;> exact absurd hdigit (by decide)
  | nil =>
    have hfraction := n.nonempty
    rw [hwhole, List.nil_append] at hc hfraction
    cases hpoint : n.fraction with
    | none => exact absurd rfl (hpoint ▸ hfraction)
    | some digits =>
      rw [pointText, hpoint] at hc
      obtain rfl : '.' = c := by simpa using hc
      decide

/-- What is read of a point and of digits behind it. -/
theorem takeFraction_append (n : Numeral) {rest : List Char} (hrest : n.EndsBefore rest) :
    Decimal.takeFraction (n.pointText ++ rest) = (n.fraction.getD [], rest) := by
  unfold pointText
  cases h : n.fraction with
  | none =>
    change Decimal.takeFraction rest = ([], rest)
    unfold Decimal.takeFraction
    split
    · exact absurd ((hrest '.' rfl).2 rfl) (by simp [h])
    · rfl
  | some digits =>
    have hdigits : ∀ c ∈ digits, c.isDigit = true := by
      simpa [h] using n.isDigit_fraction
    obtain ⟨htake, hdrop⟩ := span_append hdigits fun c hc => (hrest c hc).1
    change ((digits ++ rest).takeWhile Char.isDigit, (digits ++ rest).dropWhile Char.isDigit) = _
    rw [htake, hdrop]
    rfl

/-- **A numeral is read where it ends.** -/
theorem read?_text (n : Numeral) {rest : List Char} (hrest : n.EndsBefore rest) :
    Decimal.read? (n.text ++ rest) = some (n.value, rest) := by
  have hpoint : ∀ c ∈ (n.pointText ++ rest).head?, c.isDigit = false := by
    unfold pointText
    cases n.fraction with
    | none => exact fun c hc => (hrest c hc).1
    | some digits =>
      intro c hc
      obtain rfl : '.' = c := by simpa using hc
      decide
  obtain ⟨htake, hdrop⟩ := span_append n.isDigit_whole hpoint
  rw [text, List.append_assoc, List.append_assoc, Decimal.read?,
    takeSign_append n (n.head?_ne_sign rest)]
  dsimp only
  rw [htake, hdrop, n.takeFraction_append hrest, if_neg n.nonempty]
  rfl

/-- **What is read is a numeral up to its end.** -/
theorem exists_of_read? {s rest : List Char} {d : Decimal}
    (h : Decimal.read? s = some (d, rest)) :
    ∃ n : Numeral, s = n.text ++ rest ∧ d = n.value ∧ n.EndsBefore rest := by
  obtain ⟨sign, hsign, hs, hnegative⟩ := exists_sign s
  obtain ⟨whole, behind, hunsigned, hwhole, hbehind⟩ := exists_digits (Decimal.takeSign s).2
  obtain ⟨htake, hdrop⟩ := span_append hwhole hbehind
  rw [Decimal.read?] at h
  dsimp only at h
  rw [hunsigned, htake, hdrop] at h
  -- a point goes with the digits behind it
  have hpoint : ∃ fraction : Option (List Char),
      (∀ c ∈ fraction.getD [], c.isDigit = true) ∧
      behind = (match fraction with | none => [] | some digits => '.' :: digits)
        ++ (Decimal.takeFraction behind).2 ∧
      (Decimal.takeFraction behind).1 = fraction.getD [] ∧
      ∀ c ∈ (Decimal.takeFraction behind).2.head?,
        c.isDigit = false ∧ (c = '.' → fraction.isSome) := by
    unfold Decimal.takeFraction
    split
    · next t =>
      obtain ⟨digits, tail, rfl, hdigits, htail⟩ := exists_digits t
      obtain ⟨htake', hdrop'⟩ := span_append hdigits htail
      refine ⟨some digits, hdigits, by rw [hdrop']; rfl, by rw [htake']; rfl, ?_⟩
      rw [hdrop']
      exact fun c hc => ⟨htail c hc, fun _ => rfl⟩
    · next hno =>
      refine ⟨none, by simp, rfl, rfl, fun c hc => ⟨hbehind c hc, ?_⟩⟩
      rintro rfl
      obtain ⟨tail, rfl⟩ := List.head?_eq_some_iff.mp hc
      exact absurd rfl (hno tail)
  obtain ⟨fraction, hfraction, hsplit, hdigits, hends⟩ := hpoint
  split at h
  · exact absurd h (by simp)
  · next hne =>
    obtain ⟨hd, hrest⟩ := Prod.mk.inj (Option.some.inj h)
    rw [hdigits] at hne
    refine ⟨⟨sign, whole, fraction, hsign, hwhole, hfraction, hne⟩, ?_, ?_, ?_⟩
    · rw [text, pointText, List.append_assoc, List.append_assoc, ← hrest, ← hsplit, ← hunsigned]
      exact hs
    · rw [← hd, hdigits, hnegative]
      rfl
    · rw [← hrest]
      exact hends

end Numeral

/-! ### Words -/

/-- The codes of the capitals. -/
theorem toNat_of_isUpper {c : Char} (hc : c.isUpper = true) : 65 ≤ c.toNat ∧ c.toNat ≤ 90 := by
  have hrange : 'A'.val ≤ c.val ∧ c.val ≤ 'Z'.val := of_decide_eq_true hc
  exact hrange

/-- The spelling of a word: its letter and its numeral. -/
structure Spelling where
  letter : Char
  numeral : Numeral
  isUpper_letter : letter.isUpper = true
  deriving DecidableEq

namespace Spelling

/-- The characters of a word. -/
def text (t : Spelling) : List Char :=
  t.letter :: t.numeral.text

/-- The word that is spelled. -/
def word (α : Type) [Number α] (t : Spelling) : Word α :=
  ⟨t.letter, Number.ofDecimal t.numeral.value⟩

/-- The text of words, one behind another. -/
def spell (ts : List Spelling) : List Char :=
  ts.flatMap text

@[simp] theorem spell_cons (t : Spelling) (ts : List Spelling) :
    spell (t :: ts) = t.text ++ spell ts :=
  List.flatMap_cons

/-- Every word begins with a letter, so the numeral before it ends there. -/
theorem head?_spell (ts : List Spelling) :
    ∀ c ∈ (spell ts).head?, c.isDigit = false ∧ c ≠ '.' := by
  cases ts with
  | nil => simp [spell]
  | cons t ts =>
    intro c hc
    obtain rfl : t.letter = c := by simpa [text] using hc
    obtain ⟨hcode, -⟩ := toNat_of_isUpper t.isUpper_letter
    constructor
    · rw [Bool.eq_false_iff, ne_eq, Char.isDigit_iff_toNat]
      rintro ⟨-, hdigit⟩
      have hlast : '9'.toNat = 57 := rfl
      omega
    · rintro hpoint
      rw [hpoint] at hcode
      exact absurd hcode (by decide)

theorem endsBefore_spell (n : Numeral) (ts : List Spelling) : n.EndsBefore (spell ts) :=
  fun c hc => ⟨(head?_spell ts c hc).1, fun hpoint => absurd hpoint (head?_spell ts c hc).2⟩

variable {α : Type} [Number α]

/-- A word is read where its numeral ends. -/
theorem next_text (t : Spelling) {rest : List Char} (h : t.numeral.EndsBefore rest)
    (cursor : Nat) :
    WordReader.next ⟨t.text ++ rest, cursor⟩ =
      (.word (t.word α), ⟨rest, cursor + t.text.length⟩) := by
  have hlength : (t.text ++ rest).length - rest.length = t.text.length := by
    rw [List.length_append, Nat.add_sub_cancel]
  rw [← hlength, text, List.cons_append, WordReader.next]
  dsimp only
  rw [if_pos t.isUpper_letter, t.numeral.read?_text h]
  rfl

/-- **The words of a text are those that it spells.** -/
theorem words_spell (ts : List Spelling) (cursor : Nat) :
    WordReader.words ⟨spell ts, cursor⟩ = .ok (ts.map (word α)) := by
  induction ts generalizing cursor with
  | nil => exact WordReader.words_of_done rfl
  | cons t ts ih =>
    rw [spell_cons, WordReader.words_of_word (t.next_text (endsBefore_spell _ ts) cursor), ih]
    rfl

/-- A word that is read stands there spelled, and its numeral ends where the reader stops. -/
theorem exists_of_next {r r' : WordReader} {w : Word α} (h : r.next = (.word w, r')) :
    ∃ t : Spelling, r.rest = t.text ++ r'.rest ∧ t.word α = w ∧
      t.numeral.EndsBefore r'.rest ∧ r'.cursor = r.cursor + t.text.length := by
  unfold WordReader.next at h
  split at h
  · exact absurd h (by simp)
  · next letter tail hrest =>
    split at h
    · next hupper =>
      split at h
      · exact absurd h (by simp)
      · next value rest hvalue =>
        obtain ⟨hw, rfl⟩ := Prod.mk.inj h
        obtain ⟨n, rfl, rfl, hends⟩ := Numeral.exists_of_read? hvalue
        refine ⟨⟨letter, n, hupper⟩, hrest, ReadStep.word.inj hw, hends, ?_⟩
        simp only [hrest, text, List.length_cons, List.length_append]
        omega
    · exact absurd h (by simp)

/-- **A text that is read as words spells them.** -/
theorem exists_spell {r : WordReader} {ws : List (Word α)} (h : r.words = .ok ws) :
    ∃ ts, spell ts = r.rest ∧ ts.map (word α) = ws := by
  induction ws generalizing r with
  | nil =>
    obtain ⟨r', hnext⟩ := WordReader.exists_next_of_nil h
    exact ⟨[], (WordReader.rest_of_done hnext).symm, rfl⟩
  | cons w ws ih =>
    obtain ⟨r', hnext, hr⟩ := WordReader.exists_next_of_cons h
    obtain ⟨t, hrest, rfl, -⟩ := exists_of_next hnext
    obtain ⟨ts, hspell, rfl⟩ := ih hr
    exact ⟨t :: ts, by rw [spell_cons, hspell, hrest], rfl⟩

end Spelling

/-! ### Normal forms -/

/-- A character that a command keeps as it is, wherever it stands. -/
def StandsForItself (c : Char) : Prop :=
  c.toUpper = c ∧ roleOf c = .kept ∧ c ≠ '/'

instance (c : Char) : Decidable (StandsForItself c) :=
  inferInstanceAs (Decidable (_ ∧ _ ∧ _))

section

variable {α : Type}

/-- A command has at most as many characters as there is room. -/
theorem length_le_of_normalizeFrom {room : Nat} {begun : Bool} {raw : List Char}
    {b : NormalBlock} (h : normalizeFrom (α := α) room begun raw = .ok b) :
    b.command.length ≤ room := by
  -- the room and the beginning change from one character to the next
  induction raw generalizing room begun b with
  | nil =>
    rw [normalizeFrom, Except.ok.injEq] at h
    simp [← h, NormalBlock.empty]
  | cons c raw ih =>
    unfold normalizeFrom at h
    dsimp only at h
    split at h
    · simp [← Except.ok.inj h]
    · exact ih h
    · split at h
      · simp [← Except.ok.inj h, NormalBlock.empty]
      · cases room with
        | zero => exact absurd h (by simp)
        | succ room =>
          cases hr : normalizeFrom (α := α) room true raw with
          | error f => exact absurd h (by simp [hr, bind, Except.bind])
          | ok b' =>
            have hb : b = ⟨c.toUpper :: b'.command, b'.message⟩ := by
              simpa [hr, bind, Except.bind, pure, Except.pure] using h.symm
            have hlength : b'.command.length ≤ room := ih hr
            simpa [hb] using hlength

theorem normalizeFrom_of_standsForItself {room : Nat} {begun : Bool} {text : List Char}
    (htext : ∀ c ∈ text, StandsForItself c) (hroom : text.length ≤ room) :
    normalizeFrom (α := α) room begun text = .ok ⟨text, none⟩ := by
  induction text generalizing room begun with
  | nil => rfl
  | cons c text ih =>
    obtain ⟨⟨hupper, hrole, hslash⟩, htext⟩ := List.forall_mem_cons.mp htext
    cases room with
    | zero => exact absurd hroom (by simp)
    | succ room =>
      rw [normalizeFrom, hupper, hrole]
      dsimp only
      rw [if_neg (by simp [hslash]), ih htext (by simpa using hroom)]
      rfl

end

/-- Digits and capitals stand for themselves. -/
theorem standsForItself_of_toNat_mem {c : Char}
    (h : c.toNat ∈ List.range' 48 10 ++ List.range' 65 26) : StandsForItself c := by
  have hcodes : ∀ n ∈ List.range' 48 10 ++ List.range' 65 26, StandsForItself (Char.ofNat n) := by
    decide
  simpa only [Char.ofNat_toNat] using hcodes c.toNat h

theorem standsForItself_of_isDigit {c : Char} (hc : c.isDigit = true) : StandsForItself c := by
  have hcode : 48 ≤ c.toNat ∧ c.toNat ≤ 57 := Char.isDigit_iff_toNat.mp hc
  refine standsForItself_of_toNat_mem (List.mem_append_left _ ?_)
  rw [List.mem_range'_1]
  omega

theorem standsForItself_of_isUpper {c : Char} (hc : c.isUpper = true) : StandsForItself c := by
  have hcode := toNat_of_isUpper hc
  refine standsForItself_of_toNat_mem (List.mem_append_right _ ?_)
  rw [List.mem_range'_1]
  omega

/-- A numeral is made of signs, digits and points. -/
theorem Numeral.standsForItself (n : Numeral) : ∀ c ∈ n.text, StandsForItself c := by
  intro c hc
  rw [text, List.mem_append, List.mem_append] at hc
  rcases hc with hc | hc | hc
  · have hsign : c = '-' ∨ c = '+' := by
      rcases n.sign_eq with h | h | h
      · simp [h] at hc
      · exact .inl (by simpa [h] using hc)
      · exact .inr (by simpa [h] using hc)
    rcases hsign with rfl | rfl <;> decide
  · exact standsForItself_of_isDigit (n.isDigit_whole c hc)
  · unfold pointText at hc
    cases hfraction : n.fraction with
    | none => simp [hfraction] at hc
    | some digits =>
      rw [hfraction, List.mem_cons] at hc
      rcases hc with rfl | hc
      · decide
      · exact standsForItself_of_isDigit (n.isDigit_fraction c (by simpa [hfraction] using hc))

/-- A word is made of a capital and a numeral. -/
theorem Spelling.standsForItself (t : Spelling) : ∀ c ∈ t.text, StandsForItself c := by
  intro c hc
  rcases List.mem_cons.mp hc with rfl | hc
  · exact standsForItself_of_isUpper t.isUpper_letter
  · exact t.numeral.standsForItself c hc

/-- **A text of words is a line in normal form**, if it is not too long. -/
theorem Spelling.normalize_spell {α : Type} {ts : List Spelling}
    (h : (spell ts).length ≤ blockCapacity) :
    normalize (α := α) (spell ts) = .ok ⟨spell ts, none⟩ := by
  refine normalizeFrom_of_standsForItself (fun c hc => ?_) h
  obtain ⟨t, -, hc⟩ := List.mem_flatMap.mp hc
  exact t.standsForItself c hc

end NumericControl
