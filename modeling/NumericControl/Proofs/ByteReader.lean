import NumericControl.Proofs.ExactNumber
import NumericControl.Proofs.Slices

/-!
# Reading words by bytes

A reader of words keeps what is still to be read.  One that keeps a whole text and a place in it
looks at single bytes instead: it takes a byte for a letter, a sign, a digit or a point, goes on to
the next place, and cuts the numeral out between two places.  This is right only as long as a place
does not come to lie inside a character, and nothing about the reader itself says so, since it may
be asked again after any fault and behind the end.

Here both readers are run side by side.  What is in front of the place and what is still to be read
are the two parts of the text at that place; every step keeps this, because a step goes over ASCII
characters only.  So the reader by bytes has an answer however often it is asked, and it is the
answer of the other reader, whose steps can be told apart easily.

## Main definitions

* `charAt?`, `signEnd`, `digitsEnd`, `fractionEnd`, `scanDecimal` — a numeral found by bytes.
* `ByteReader`, `ByteReader.next?`, `ByteReader.steps?` — a reader that cuts its text by places.
* `WordReader.Moves` — the four kinds of steps.
* `WordReader.after` — a reader behind a number of steps.
* `WordReader.IsSafeIn` — what is true of a reader of a text, however often it was asked.

## Main results

* `scanDecimal_spec` — the numeral that is found by bytes is the one that is read.
* `WordReader.moves_of_next`, `WordReader.StandsIn.of_moves` — what a step does.
* `WordReader.StandsIn.next?_eq`, `WordReader.StandsIn.steps?_eq` — steps by bytes are steps.
* `WordReader.exists_still` — a reader comes to a stand.
* `slices_are_in_place` — **no text makes a slice fall out of place**, and reading ends.
-/

namespace NumericControl

/-! ### Bytes of a text -/

/-- The character whose code a byte is. -/
def charOfByte (b : UInt8) : Char :=
  Char.ofNat b.toNat

/-- The byte at a place, taken for a character. -/
def charAt? (bytes : List UInt8) (place : Nat) : Option Char :=
  (bytes.drop place).head?.map charOfByte

theorem toNat_charOfByte (b : UInt8) : (charOfByte b).toNat = b.toNat := by
  have hb : b.toNat < 256 := b.toNat_lt
  rw [charOfByte, Char.toNat_ofNat, if_pos (.inl (by omega))]

/-- The first byte of a character is its code, or is beyond ASCII as the character is. -/
theorem exists_lead (c : Char) :
    ∃ b more, String.utf8EncodeChar c = b :: more ∧
      (charOfByte b = c ∧ more = [] ∨ 128 ≤ c.toNat ∧ 128 ≤ (charOfByte b).toNat) := by
  rcases Nat.lt_or_ge c.toNat 128 with hascii | hbeyond
  · refine ⟨UInt8.ofNat c.toNat, [], utf8EncodeChar_of_lt hascii, .inl ⟨?_, rfl⟩⟩
    rw [charOfByte, UInt8.toNat_ofNat', Nat.mod_eq_of_lt (by omega), Char.ofNat_toNat]
  · obtain ⟨b, more, hbytes⟩ := List.exists_cons_of_ne_nil (String.utf8EncodeChar_ne_nil (c := c))
    refine ⟨b, more, hbytes, .inr ⟨hbeyond, ?_⟩⟩
    rw [toNat_charOfByte]
    exact le_of_mem_utf8EncodeChar hbeyond (hbytes ▸ List.mem_cons_self)

section

variable {bytes : List UInt8} {place : Nat} {s : List Char}

theorem charAt?_of_nil (h : bytes.drop place = encodeUtf8 []) : charAt? bytes place = none := by
  rw [charAt?, h]
  rfl

/-- **A byte tells of a character what ASCII tells.** -/
theorem charAt?_of_cons {c : Char} (h : bytes.drop place = encodeUtf8 (c :: s)) :
    ∃ d, charAt? bytes place = some d ∧
      (d = c ∧ bytes.drop (place + 1) = encodeUtf8 s ∨ 128 ≤ c.toNat ∧ 128 ≤ d.toNat) := by
  obtain ⟨b, more, hbytes, hlead⟩ := exists_lead c
  rw [encodeUtf8_cons, hbytes, List.cons_append] at h
  refine ⟨charOfByte b, by rw [charAt?, h]; rfl, hlead.imp_left fun ⟨hb, hmore⟩ => ⟨hb, ?_⟩⟩
  rw [← List.drop_drop, h, hmore]
  rfl

/-! ### Numerals -/

/-- The place behind a sign, if one stands at a place. -/
def signEnd (bytes : List UInt8) (place : Nat) : Nat :=
  if charAt? bytes place = some '+' ∨ charAt? bytes place = some '-' then place + 1 else place

/-- The place behind the digits that stand at a place. -/
def digitsEnd (bytes : List UInt8) (place : Nat) : Nat :=
  place + ((bytes.drop place).takeWhile fun b => (charOfByte b).isDigit).length

/-- The place behind a point and the digits behind it, if a point stands at a place. -/
def fractionEnd (bytes : List UInt8) (place : Nat) : Nat :=
  if charAt? bytes place = some '.' then digitsEnd bytes (place + 1) else place

/-- The place behind the longest numeral that stands at a place, or the place itself if there is
none. -/
def scanDecimal (bytes : List UInt8) (start : Nat) : Nat :=
  let whole := signEnd bytes start
  let point := digitsEnd bytes whole
  let last := fractionEnd bytes point
  let digits := (point - whole) + (last - (point + 1))
  if digits = 0 then start else last

/-- An ASCII character stands at a place exactly if its byte does. -/
theorem charAt?_eq_some_iff {e : Char} (he : e.toNat < 128)
    (h : bytes.drop place = encodeUtf8 s) : charAt? bytes place = some e ↔ s.head? = some e := by
  cases s with
  | nil => simp [charAt?_of_nil h]
  | cons c s =>
    obtain ⟨d, hd, hlead⟩ := charAt?_of_cons h
    rw [hd, List.head?_cons, Option.some.injEq, Option.some.injEq]
    rcases hlead with ⟨rfl, -⟩ | ⟨hc, hd⟩
    · rfl
    · constructor <;> rintro rfl <;> omega

theorem drop_of_cons {c : Char} (hc : c.toNat < 128)
    (h : bytes.drop place = encodeUtf8 (c :: s)) : bytes.drop (place + 1) = encodeUtf8 s := by
  obtain ⟨d, -, ⟨-, hdrop⟩ | ⟨hbeyond, -⟩⟩ := charAt?_of_cons h
  · exact hdrop
  · omega

theorem signEnd_spec (h : bytes.drop place = encodeUtf8 s) :
    signEnd bytes place + (Decimal.takeSign s).2.length = place + s.length ∧
      bytes.drop (signEnd bytes place) = encodeUtf8 (Decimal.takeSign s).2 := by
  have hplus : charAt? bytes place = some '+' ↔ s.head? = some '+' :=
    charAt?_eq_some_iff (by decide) h
  have hminus : charAt? bytes place = some '-' ↔ s.head? = some '-' :=
    charAt?_eq_some_iff (by decide) h
  fun_cases Decimal.takeSign s with
  | case1 t =>
    rw [signEnd, if_pos (.inr (hminus.mpr rfl))]
    exact ⟨Nat.add_right_comm place 1 t.length, drop_of_cons (by decide) h⟩
  | case2 t =>
    rw [signEnd, if_pos (.inl (hplus.mpr rfl))]
    exact ⟨Nat.add_right_comm place 1 t.length, drop_of_cons (by decide) h⟩
  | case3 s hnoMinus hnoPlus =>
    rw [signEnd, if_neg]
    · exact ⟨rfl, h⟩
    · rintro (hhead | hhead)
      · obtain ⟨t, rfl⟩ := List.head?_eq_some_iff.mp (hplus.mp hhead)
        exact hnoPlus t rfl
      · obtain ⟨t, rfl⟩ := List.head?_eq_some_iff.mp (hminus.mp hhead)
        exact hnoMinus t rfl

/-- Digits take up one byte each, and the byte behind them is no digit. -/
theorem takeWhile_encodeUtf8 (s : List Char) :
    ((encodeUtf8 s).takeWhile fun b => (charOfByte b).isDigit).length =
      (s.takeWhile Char.isDigit).length := by
  induction s with
  | nil => rfl
  | cons c s ih =>
    obtain ⟨b, more, hbytes, ⟨hb, rfl⟩ | ⟨hc, hb⟩⟩ := exists_lead c
    · rw [encodeUtf8_cons, hbytes, List.singleton_append]
      cases hdigit : c.isDigit with
      | true =>
        rw [List.takeWhile_cons_of_pos (by rwa [hb]), List.takeWhile_cons_of_pos hdigit,
          List.length_cons, List.length_cons, ih]
      | false =>
        rw [List.takeWhile_cons_of_neg (by simp [hb, hdigit]),
          List.takeWhile_cons_of_neg (by simp [hdigit])]
        rfl
    · have hno {d : Char} (hd : 128 ≤ d.toNat) : ¬ d.isDigit = true := by
        rw [Char.isDigit_iff_toNat]
        rintro ⟨-, hlast⟩
        have hnine : '9'.toNat = 57 := rfl
        omega
      rw [encodeUtf8_cons, hbytes, List.cons_append, List.takeWhile_cons_of_neg (by simp [hno hb]),
        List.takeWhile_cons_of_neg (hno hc)]
      rfl

theorem drop_of_digits {digits : List Char} (hdigits : ∀ c ∈ digits, c.isDigit = true)
    (h : bytes.drop place = encodeUtf8 (digits ++ s)) :
    bytes.drop (place + digits.length) = encodeUtf8 s := by
  induction digits generalizing place with
  | nil => exact h
  | cons c digits ih =>
    obtain ⟨hc, hdigits⟩ := List.forall_mem_cons.mp hdigits
    have hascii : c.toNat < 128 := by
      have hlast := (Char.isDigit_iff_toNat.mp hc).2
      have hnine : '9'.toNat = 57 := rfl
      omega
    rw [List.length_cons, Nat.add_comm digits.length, ← Nat.add_assoc]
    exact ih hdigits (drop_of_cons hascii h)

theorem digitsEnd_spec (h : bytes.drop place = encodeUtf8 s) :
    digitsEnd bytes place = place + (s.takeWhile Char.isDigit).length ∧
      bytes.drop (digitsEnd bytes place) = encodeUtf8 (s.dropWhile Char.isDigit) := by
  have hend : digitsEnd bytes place = place + (s.takeWhile Char.isDigit).length := by
    rw [digitsEnd, h, takeWhile_encodeUtf8]
  refine ⟨hend, ?_⟩
  rw [← List.takeWhile_append_dropWhile (p := Char.isDigit) (l := s)] at h
  rw [hend]
  exact drop_of_digits (fun c hc => List.all_eq_true.mp List.all_takeWhile c hc) h

theorem fractionEnd_spec (h : bytes.drop place = encodeUtf8 s) :
    fractionEnd bytes place + (Decimal.takeFraction s).2.length = place + s.length ∧
      fractionEnd bytes place - (place + 1) = (Decimal.takeFraction s).1.length := by
  have hpoint : charAt? bytes place = some '.' ↔ s.head? = some '.' :=
    charAt?_eq_some_iff (by decide) h
  fun_cases Decimal.takeFraction s with
  | case1 t =>
    obtain ⟨hend, -⟩ := digitsEnd_spec (drop_of_cons (by decide) h)
    have hlength := Decimal.length_takeWhile_add_dropWhile Char.isDigit t
    rw [fractionEnd, if_pos (hpoint.mpr rfl), hend, List.length_cons]
    constructor <;> dsimp only <;> omega
  | case2 s hno =>
    rw [fractionEnd, if_neg]
    · exact ⟨rfl, by rw [List.length_nil]; omega⟩
    · intro hhead
      obtain ⟨t, rfl⟩ := List.head?_eq_some_iff.mp (hpoint.mp hhead)
      exact hno t rfl

/-- **The numeral that is found by bytes is the one that is read**, and where none is read the
place stays. -/
theorem scanDecimal_spec (h : bytes.drop place = encodeUtf8 s) :
    match Decimal.read? s with
    | none => scanDecimal bytes place = place
    | some (_, rest) => scanDecimal bytes place + rest.length = place + s.length := by
  obtain ⟨hsign, hunsigned⟩ := signEnd_spec h
  obtain ⟨hwhole, hpoint⟩ := digitsEnd_spec hunsigned
  obtain ⟨hlast, hfraction⟩ := fractionEnd_spec hpoint
  have hlength :=
    Decimal.length_takeWhile_add_dropWhile Char.isDigit (Decimal.takeSign s).2
  rw [Decimal.read?, scanDecimal]
  dsimp only
  rw [hfraction]
  -- the digits that are counted are those that are read
  split
  · next heq =>
    split at heq
    · next hnil =>
      obtain ⟨hwholeNil, hfractionNil⟩ := List.append_eq_nil_iff.mp hnil
      rw [hwholeNil] at hwhole
      rw [if_pos]
      rw [hwhole, hfractionNil]
      simp
    · exact absurd heq (by simp)
  · next heq =>
    split at heq
    · exact absurd heq (by simp)
    · next hne =>
      obtain ⟨-, rfl⟩ := Prod.mk.inj (Option.some.inj heq)
      rw [if_neg]
      · omega
      · intro hzero
        refine hne (List.append_eq_nil_iff.mpr ⟨?_, ?_⟩) <;>
          refine List.eq_nil_of_length_eq_zero ?_ <;> omega

end

/-- The byte at a place is a capital exactly if the character that stands there is, and it is the
same capital then. -/
theorem charAt?_of_letter {bytes : List UInt8} {place : Nat} {letter : Char} {s : List Char}
    (h : bytes.drop place = encodeUtf8 (letter :: s)) :
    ∃ d, charAt? bytes place = some d ∧ d.isUpper = letter.isUpper ∧
      (letter.isUpper = true → d = letter) := by
  have hno {c : Char} (hc : 128 ≤ c.toNat) : c.isUpper = false := by
    refine Bool.eq_false_iff.mpr fun hupper => ?_
    have hlast := (toNat_of_isUpper hupper).2
    omega
  obtain ⟨d, hd, ⟨rfl, -⟩ | ⟨hletter, hbeyond⟩⟩ := charAt?_of_cons h
  · exact ⟨d, hd, rfl, fun _ => rfl⟩
  · refine ⟨d, hd, (hno hbeyond).trans (hno hletter).symm, fun hupper => ?_⟩
    exact absurd hupper (by simp [hno hletter])

theorem drop_encodeUtf8 (front s : List Char) :
    (encodeUtf8 (front ++ s)).drop (byteLength front) = encodeUtf8 s := by
  rw [encodeUtf8_append]
  exact List.drop_left' rfl

theorem Numeral.endsBefore_nil (n : Numeral) : n.EndsBefore [] :=
  fun _ hc => absurd hc (by simp)

/-- **Between the two places stands the numeral that is read**, or nothing. -/
theorem slice?_scanDecimal (front s : List Char) :
    match Decimal.read? s with
    | none => scanDecimal (encodeUtf8 (front ++ s)) (byteLength front) = byteLength front ∧
        slice? (front ++ s) (byteLength front) (byteLength front) = some []
    | some (d, rest) => ∃ n : Numeral, s = n.text ++ rest ∧ d = n.value ∧
        scanDecimal (encodeUtf8 (front ++ s)) (byteLength front) =
          byteLength front + n.text.length ∧
        slice? (front ++ s) (byteLength front) (byteLength front + n.text.length) =
          some n.text := by
  have hscan := scanDecimal_spec (drop_encodeUtf8 front s)
  cases hread : Decimal.read? s with
  | none =>
    rw [hread] at hscan
    exact ⟨hscan, slice?_append front [] s⟩
  | some found =>
    obtain ⟨d, rest⟩ := found
    obtain ⟨n, rfl, rfl, -⟩ := Numeral.exists_of_read? hread
    have hcut := slice?_append front n.text rest
    rw [byteLength_of_standsForItself n.standsForItself] at hcut
    rw [hread] at hscan
    dsimp only at hscan
    rw [List.length_append] at hscan
    exact ⟨n, rfl, rfl, by omega, hcut⟩

/-! ### Readers -/

/-- A text that is being read, and the place in it where the next word is looked for. -/
structure ByteReader where
  line : List Char
  cursor : Nat

namespace ByteReader

variable {α : Type} [Number α]

/-- Reads one word, with the numeral cut out between two places, and with the character that is at
fault at the head of what is cut off.  A part of the text that does not exist ends the reading
without a result. -/
def next? (r : ByteReader) : Option (ReadStep α × ByteReader) :=
  match charAt? (encodeUtf8 r.line) r.cursor with
  | none => some (.done, r)
  | some letter =>
    if letter.isUpper then
      let start := r.cursor + 1
      let last := scanDecimal (encodeUtf8 r.line) start
      (slice? r.line start last).map fun token =>
        match Decimal.read? token with
        | some (value, []) => (.word ⟨letter, Number.ofDecimal value⟩, { r with cursor := last })
        | _ => (.fault (.badNumber letter start), { r with cursor := start })
    else
      (sliceFrom? r.line r.cursor).map fun rest =>
        (.fault (.expectedLetter (rest.headD '\x00') r.cursor), r)

/-- A given number of steps, each with the cursor behind it. -/
def steps? (r : ByteReader) : Nat → Option (List (ReadStep α × Nat))
  | 0 => some []
  | n + 1 => (next? r).bind fun (step, r') => (steps? r' n).map ((step, r'.cursor) :: ·)

end ByteReader

namespace WordReader

/-- The four kinds of steps: a word is taken, a capital without a numeral is taken, or the reader
stays before what is no capital or at the end. -/
inductive Moves {α : Type} [Number α] : WordReader → ReadStep α → WordReader → Prop
  | word {r r' : WordReader} (t : Spelling) : r.rest = t.text ++ r'.rest →
      r'.cursor = r.cursor + byteLength t.text → Moves r (.word (t.word α)) r'
  | badNumber {r r' : WordReader} {letter : Char} : letter.isUpper = true →
      r.rest = letter :: r'.rest → r'.cursor = r.cursor + 1 →
      Moves r (.fault (.badNumber letter (r.cursor + 1))) r'
  | expectedLetter {r : WordReader} {c : Char} : c.isUpper = false → c ∈ r.rest.head? →
      Moves r (.fault (.expectedLetter c r.cursor)) r
  | done {r : WordReader} : r.rest = [] → Moves r .done r

/-- A reader stands in a text: its cursor is a place of the text, and what is behind it is what is
still to be read. -/
def StandsIn (text : List Char) (r : WordReader) : Prop :=
  sliceFrom? text r.cursor = some r.rest

variable {text : List Char} {r : WordReader}

theorem standsIn_iff :
    StandsIn text r ↔ ∃ front, text = front ++ r.rest ∧ byteLength front = r.cursor := by
  simp [StandsIn, sliceFrom?, splitAtByte?_eq_some_iff]

theorem StandsIn.ofText (text : List Char) : StandsIn text (.ofText text) :=
  standsIn_iff.mpr ⟨[], rfl, rfl⟩

variable {α : Type} [Number α]

/-- **Every step is of one of the four kinds.** -/
theorem moves_of_next {r' : WordReader} {step : ReadStep α} (h : r.next = (step, r')) :
    Moves r step r' := by
  cases step with
  | word w =>
    obtain ⟨t, hrest, rfl, -, hcursor⟩ := Spelling.exists_of_next h
    rw [← byteLength_of_standsForItself t.standsForItself] at hcursor
    exact .word t hrest hcursor
  | fault f =>
    unfold next at h
    split at h
    · exact absurd h (by simp)
    · next letter tail hrest =>
      split at h
      · next hupper =>
        split at h
        · obtain ⟨hf, rfl⟩ := Prod.mk.inj h
          rw [← ReadStep.fault.inj hf]
          exact .badNumber hupper hrest rfl
        · exact absurd h (by simp)
      · next hupper =>
        obtain ⟨hf, rfl⟩ := Prod.mk.inj h
        rw [← ReadStep.fault.inj hf]
        exact .expectedLetter (by simpa using hupper) (by rw [hrest]; rfl)
  | done =>
    rw [eq_of_done h]
    exact .done (rest_of_done h)

theorem moves_next (α : Type) [Number α] (r : WordReader) :
    Moves r (next (α := α) r).1 (next (α := α) r).2 :=
  moves_of_next (Prod.eta _).symm

theorem two_le_length_text (t : Spelling) : 2 ≤ t.text.length := by
  have hpos : 0 < t.numeral.text.length := List.length_pos_iff.mpr t.numeral.text_ne_nil
  rw [Spelling.text, List.length_cons]
  omega

namespace Moves

variable {r' : WordReader} {step : ReadStep α}

theorem le_cursor (h : Moves r step r') : r.cursor ≤ r'.cursor := by
  cases h with
  | word t hrest hcursor => rw [hcursor]; exact Nat.le_add_right _ _
  | badNumber hupper hrest hcursor => rw [hcursor]; exact Nat.le_succ _
  | expectedLetter => exact Nat.le_refl _
  | done => exact Nat.le_refl _

theorem cursor_of_word {w : Word α} (h : Moves r (.word w) r') : r.cursor + 2 ≤ r'.cursor := by
  cases h with
  | word t hrest hcursor =>
    rw [hcursor, byteLength_of_standsForItself t.standsForItself]
    exact Nat.add_le_add_left (two_le_length_text t) _

theorem length_of_word {w : Word α} (h : Moves r (.word w) r') :
    r'.rest.length + 2 ≤ r.rest.length := by
  cases h with
  | word t hrest =>
    have htwo := two_le_length_text t
    rw [hrest, List.length_append]
    omega

theorem cursor_of_badNumber {letter : Char} {position : Nat}
    (h : Moves (α := α) r (.fault (.badNumber letter position)) r') :
    r'.cursor = r.cursor + 1 := by
  cases h with
  | badNumber hupper hrest hcursor => exact hcursor

theorem eq_of_expectedLetter {c : Char} {position : Nat}
    (h : Moves (α := α) r (.fault (.expectedLetter c position)) r') : r' = r := by
  cases h with
  | expectedLetter => rfl

theorem eq_of_done (h : Moves (α := α) r .done r') : r' = r := by
  cases h with
  | done => rfl

/-- A step takes something off the text, or leaves the reader as it is. -/
theorem length_lt_or_eq (h : Moves r step r') : r'.rest.length < r.rest.length ∨ r' = r := by
  cases h with
  | word t hrest hcursor =>
    have hshort := (Moves.word (α := α) t hrest hcursor).length_of_word
    exact .inl (by omega)
  | badNumber hupper hrest =>
    rw [hrest]
    exact .inl (Nat.lt_succ_self _)
  | expectedLetter => exact .inr rfl
  | done => exact .inr rfl

end Moves

theorem byteLength_of_isUpper {c : Char} (h : c.isUpper = true) : byteLength [c] = 1 :=
  byteLength_of_standsForItself (by simpa using standsForItself_of_isUpper h)

/-- **A step goes over whole characters**, so a reader goes on standing in its text. -/
theorem StandsIn.of_moves {r' : WordReader} {step : ReadStep α} (h : StandsIn text r)
    (hmoves : Moves r step r') : StandsIn text r' := by
  obtain ⟨front, htext, hfront⟩ := standsIn_iff.mp h
  cases hmoves with
  | word t hrest hcursor =>
    refine standsIn_iff.mpr ⟨front ++ t.text, ?_, ?_⟩
    · rw [htext, hrest, List.append_assoc]
    · rw [byteLength_append, hfront, hcursor]
  | @badNumber _ letter hupper hrest hcursor =>
    refine standsIn_iff.mpr ⟨front ++ [letter], ?_, ?_⟩
    · rw [htext, hrest, List.append_assoc]
      rfl
    · rw [byteLength_append, byteLength_of_isUpper hupper, hfront, hcursor]
  | expectedLetter => exact h
  | done => exact h

/-- **A step by bytes is a step**, wherever a reader stands in its text. -/
theorem StandsIn.next?_eq (h : StandsIn text r) :
    ByteReader.next? (α := α) ⟨text, r.cursor⟩ =
      some (r.next.1, ⟨text, (next (α := α) r).2.cursor⟩) := by
  obtain ⟨front, htext, hfront⟩ := standsIn_iff.mp h
  have hdrop := htext ▸ hfront ▸ drop_encodeUtf8 front r.rest
  rw [ByteReader.next?]
  dsimp only
  cases hrest : r.rest with
  | nil =>
    rw [hrest] at hdrop
    rw [charAt?_of_nil hdrop, next, hrest]
  | cons letter tail =>
    rw [hrest] at hdrop htext
    obtain ⟨d, hd, hsame, hletter⟩ := charAt?_of_letter hdrop
    rw [hd, next, hrest]
    dsimp only
    rw [hsame]
    cases hupper : letter.isUpper with
    | false =>
      have hcut : sliceFrom? text r.cursor = some (letter :: tail) := hrest ▸ h
      rw [hcut]
      rfl
    | true =>
      obtain rfl := hletter hupper
      have hstart : byteLength (front ++ [d]) = r.cursor + 1 := by
        rw [byteLength_append, byteLength_of_isUpper hupper, hfront]
      have hscan := slice?_scanDecimal (front ++ [d]) tail
      rw [hstart, ← List.append_cons, ← htext] at hscan
      rw [if_pos rfl, if_pos rfl]
      cases hread : Decimal.read? tail with
      | none =>
        rw [hread] at hscan
        obtain ⟨hlast, hcut⟩ := hscan
        rw [hlast, hcut]
        rfl
      | some found =>
        obtain ⟨value, rest⟩ := found
        rw [hread] at hscan
        obtain ⟨n, rfl, rfl, hlast, hcut⟩ := hscan
        have htoken : Decimal.read? n.text = some (n.value, []) := by
          simpa using n.read?_text n.endsBefore_nil
        have hcursor : r.cursor + ((d :: (n.text ++ rest)).length - rest.length) =
            r.cursor + 1 + n.text.length := by
          rw [List.length_cons, List.length_append]
          omega
        rw [hlast, hcut, Option.map_some, htoken]
        dsimp only
        rw [hcursor]

/-! ### Asked again and again -/

/-- **However often a reader by bytes is asked, it answers**, and its answers are those of the
reader. -/
theorem StandsIn.steps?_eq (h : StandsIn text r) (n : Nat) :
    ByteReader.steps? (α := α) ⟨text, r.cursor⟩ n = some (r.steps n) := by
  induction n generalizing r with
  | zero => rfl
  | succ n ih =>
    have hbehind := h.of_moves (moves_next α r)
    rw [ByteReader.steps?, h.next?_eq, Option.bind_some]
    dsimp only
    rw [ih hbehind]
    rfl

section

variable (α)

/-- A reader behind a number of steps, whatever they found. -/
def after (r : WordReader) : Nat → WordReader
  | 0 => r
  | n + 1 => after (next (α := α) r).2 n

/-- A reader that stays in one step stays for ever. -/
theorem after_of_still {r : WordReader} (h : (next (α := α) r).2 = r) (n : Nat) :
    r.after α n = r := by
  induction n with
  | zero => rfl
  | succ n ih => rw [after, h, ih]

theorem StandsIn.after (h : StandsIn text r) (n : Nat) : StandsIn text (r.after α n) := by
  induction n generalizing r with
  | zero => exact h
  | succ n ih => exact ih (h.of_moves (moves_next α r))

/-- What is true of a reader of a text, however often it was asked, and of its next step.  The
cursor is a place of the text.  A word takes it on by two bytes or more, a capital without a
numeral by one byte; where there is no capital and at the end it stays, and so does everything
that is answered from then on. -/
structure IsSafeIn (text : List Char) (r : WordReader) : Prop where
  standsIn : StandsIn text r
  cursor_le : r.cursor ≤ byteLength text
  le_cursor : r.cursor ≤ (next (α := α) r).2.cursor
  of_word : ∀ w : Word α, r.next.1 = .word w → r.cursor + 2 ≤ (next (α := α) r).2.cursor
  of_badNumber : ∀ letter position, (next (α := α) r).1 = .fault (.badNumber letter position) →
    (next (α := α) r).2.cursor = r.cursor + 1
  of_still : (next (α := α) r).1 = .done ∨
      (∃ c position, (next (α := α) r).1 = .fault (.expectedLetter c position)) →
    ∀ n, r.after α n = r

theorem StandsIn.isSafeIn (h : StandsIn text r) : IsSafeIn α text r := by
  have hmoves {step : ReadStep α} (hstep : r.next.1 = step) : Moves r step (next (α := α) r).2 :=
    moves_of_next (Prod.ext hstep rfl)
  obtain ⟨front, htext, hfront⟩ := standsIn_iff.mp h
  refine ⟨h, ?_, (moves_next α r).le_cursor, fun w hw => (hmoves hw).cursor_of_word,
    fun letter position hf => (hmoves hf).cursor_of_badNumber, ?_⟩
  · rw [htext, byteLength_append, hfront]
    exact Nat.le_add_right _ _
  · rintro (hdone | ⟨c, position, hf⟩)
    · exact after_of_still α (hmoves hdone).eq_of_done
    · exact after_of_still α (hmoves hf).eq_of_expectedLetter

/-- **A reader comes to a stand**: behind some number of steps, no more than it has characters to
read, it stays where it is. -/
theorem exists_still (r : WordReader) :
    ∃ k ≤ r.rest.length, ∀ n, r.after α (k + n) = r.after α k := by
  induction hlength : r.rest.length using Nat.strong_induction_on generalizing r with
  | _ length ih =>
    rcases (moves_next α r).length_lt_or_eq with hlt | hstill
    · obtain ⟨k, hk, hstill⟩ := ih _ (hlength ▸ hlt) _ rfl
      refine ⟨k + 1, by omega, fun n => ?_⟩
      rw [Nat.add_right_comm]
      exact hstill n
    · refine ⟨0, Nat.zero_le _, fun n => ?_⟩
      rw [Nat.zero_add]
      exact after_of_still α hstill n

/-- **Reading words ends**: behind some number of words there is no further one, and each word took
up two characters or more. -/
theorem exists_no_word (r : WordReader) :
    ∃ k, 2 * k ≤ r.rest.length ∧ (∀ j < k, ∃ w, (next (α := α) (r.after α j)).1 = .word w) ∧
      ∀ w, (next (α := α) (r.after α k)).1 ≠ .word w := by
  induction hlength : r.rest.length using Nat.strong_induction_on generalizing r with
  | _ length ih =>
    by_cases hword : ∃ w, (next (α := α) r).1 = .word w
    · obtain ⟨w, hw⟩ := hword
      have hshort : (next (α := α) r).2.rest.length + 2 ≤ r.rest.length :=
        (moves_of_next (Prod.ext hw rfl)).length_of_word
      obtain ⟨k, hk, hwords, hno⟩ := ih (next (α := α) r).2.rest.length (by omega) _ rfl
      refine ⟨k + 1, by omega, fun j hj => ?_, hno⟩
      cases j with
      | zero => exact ⟨w, hw⟩
      | succ j => exact hwords j (Nat.lt_of_succ_lt_succ hj)
    · exact ⟨0, Nat.zero_le _, by simp, fun w hw => hword ⟨w, hw⟩⟩

end

end WordReader

/-- **No text makes a slice fall out of place**, and reading ends.

Of every raw line the normal form can be made with the comment and the message cut out by places:
no slice lies beyond its text or ends inside a character.  And every text can be read by bytes: a
reader that cuts it up by places has an answer however often it is asked, and the answers and the
cursors are those of the reader.  Wherever this one has come to, be it behind words, behind faults
or behind the end, its cursor is a place of the text.  A word takes it on by at least two bytes, a
capital without a numeral by exactly one, and at a character that is no capital and at the end it
stays for ever.  So words come to an end, and behind some number of questions nothing changes any
more. -/
theorem slices_are_in_place {α : Type} [Number α] :
    (∀ raw, normalizeBySlices? (α := α) raw = some (normalize raw)) ∧
    ∀ text,
      (∀ n, ByteReader.steps? (α := α) ⟨text, 0⟩ n = some ((WordReader.ofText text).steps n)) ∧
      (∀ n, WordReader.IsSafeIn α text ((WordReader.ofText text).after α n)) ∧
      (∃ k, 2 * k ≤ text.length ∧
        (∀ j < k, ∃ w, (((WordReader.ofText text).after α j).next (α := α)).1 = .word w) ∧
        ∀ w, (((WordReader.ofText text).after α k).next (α := α)).1 ≠ .word w) ∧
      ∃ k ≤ text.length, ∀ n,
        (WordReader.ofText text).after α (k + n) = (WordReader.ofText text).after α k := by
  refine ⟨normalizeBySlices?_eq, fun text => ?_⟩
  have hstands := WordReader.StandsIn.ofText text
  exact ⟨hstands.steps?_eq, fun n => (hstands.after α n).isSafeIn α,
    WordReader.exists_no_word α (.ofText text), WordReader.exists_still α (.ofText text)⟩

/-- Behind a capital without a numeral a reader may stand at a character of several bytes, and it
stays there. -/
example : ByteReader.steps? (α := ℚ) ⟨"X1Yé".toList, 0⟩ 4 =
    some [(.word ⟨'X', 1⟩, 2), (.fault (.badNumber 'Y' 3), 3), (.fault (.expectedLetter 'é' 3), 3),
      (.fault (.expectedLetter 'é' 3), 3)] := by
  decide +kernel

end NumericControl
