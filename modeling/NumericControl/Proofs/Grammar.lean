import NumericControl.Proofs.Lines
import NumericControl.Proofs.Spelling

/-!
# The grammar of a command

A command is a sequence of words, and a word is a capital with a numeral behind it.  A
reader knows nothing of this: it takes a capital, then a sign, digits, a point and digits as
far as they go, and asks afterwards whether there was a digit among them.  Here its steps
are told by the grammar alone.  Of the heads of a text that are sequences of words one is
the longest; the reader finds the words of this one in order, and a fault right behind it
unless it is the whole text.

That the reader does not stop too early is the longer half.  A numeral that stands at the
head of a text may be shorter than the one that is read, and then no further word can follow
it, because what follows it is a digit or a point.

## Main definitions

* `LongestWords` — the longest sequence of words at the head of a text, and what follows.
* `wordSteps`, `lastSteps` — the steps through words, and those behind the last word.
* `WordStream` — a reader that is asked for words over and over.

## Main results

* `Numeral.isPrefix_of_endsBefore`, `Numeral.read?_ne_none` — the numeral that is read is the
  longest one, and where one stands one is read.
* `Spelling.isPrefix_of_endsBefore` — how words at the head of a text begin.
* `WordReader.toEnd_eq` — the steps of a reader.
* `WordReader.reads_longest_words` — **a text is read by its grammar**, and its first fault is
  located.
-/

namespace NumericControl

/-- What a command keeps takes up one byte a character. -/
theorem byteLength_of_standsForItself {s : List Char} (hs : ∀ c ∈ s, StandsForItself c) :
    byteLength s = s.length := by
  induction s with
  | nil => rfl
  | cons c s ih =>
    obtain ⟨⟨-, hrole, -⟩, hs⟩ := List.forall_mem_cons.mp hs
    have hascii : c.toNat < 128 := by
      rcases Nat.lt_or_ge c.toNat 128 with hsmall | hlarge
      · exact hsmall
      · have hdel : 0x7F ≤ c.toNat := Nat.le_of_succ_le hlarge
        have hparen : c ≠ '(' := by
          rintro rfl
          exact absurd hlarge (by decide)
        rw [roleOf, if_neg hparen, if_pos (by simp [hdel])] at hrole
        exact absurd hrole (by decide)
    rw [byteLength_cons, utf8Size_of_lt hascii, ih hs, List.length_cons, Nat.add_comm]

/-! ### The longest numeral -/

namespace Numeral

/-- Behind its sign a numeral holds digits and a point. -/
theorem isDigit_or_point (n : Numeral) :
    ∀ c ∈ n.whole ++ n.pointText, c.isDigit = true ∨ c = '.' := by
  intro c hc
  rcases List.mem_append.mp hc with hwhole | hpoint
  · exact .inl (n.isDigit_whole c hwhole)
  · unfold pointText at hpoint
    cases hfraction : n.fraction with
    | none => simp [hfraction] at hpoint
    | some digits =>
      rw [hfraction, List.mem_cons] at hpoint
      rcases hpoint with rfl | hdigit
      · exact .inr rfl
      · exact .inl (n.isDigit_fraction c (by simpa [hfraction] using hdigit))

/-- Behind the first character of a numeral stand digits and a point. -/
theorem isDigit_or_point_of_mem_tail (n : Numeral) :
    ∀ c ∈ n.text.tail, c.isDigit = true ∨ c = '.' := by
  intro c hc
  refine n.isDigit_or_point c ?_
  rcases n.sign_eq with h | h | h
  · rw [text, h, List.nil_append] at hc
    exact List.mem_of_mem_tail hc
  · simpa [text, h] using hc
  · simpa [text, h] using hc

/-- A numeral has one point, or none. -/
theorem count_point (n : Numeral) : n.text.count '.' = if n.fraction.isSome then 1 else 0 := by
  have hdigits {s : List Char} (hs : ∀ c ∈ s, c.isDigit = true) : s.count '.' = 0 := by
    refine List.count_eq_zero.mpr fun hpoint => ?_
    exact absurd (hs '.' hpoint) (by decide)
  have hsign : n.sign.count '.' = 0 := by
    rcases n.sign_eq with h | h | h <;> rw [h] <;> decide
  rw [text, List.count_append, List.count_append, hsign, hdigits n.isDigit_whole, pointText]
  cases hfraction : n.fraction with
  | none => rfl
  | some digits =>
    have hbehind : digits.count '.' = 0 := hdigits (by simpa [hfraction] using n.isDigit_fraction)
    simp [hbehind]

/-- **A numeral that ends is the longest one** at the head of its text. -/
theorem isPrefix_of_endsBefore {n n' : Numeral} {rest : List Char} (hends : n.EndsBefore rest)
    (h : n'.text <+: n.text ++ rest) : n'.text <+: n.text := by
  rcases List.prefix_or_prefix_of_prefix h (List.prefix_append n.text rest) with hshort | hlong
  · exact hshort
  · obtain ⟨more, hmore⟩ := hlong
    cases more with
    | nil =>
      have hsame : n'.text = n.text := by rw [← hmore, List.append_nil]
      exact hsame ▸ List.prefix_rfl
    | cons c more =>
      -- a longer numeral would go on with a digit, or with a second point
      have hhead : c ∈ rest.head? := by
        rw [← hmore, List.prefix_append_right_inj] at h
        obtain ⟨behind, rfl⟩ := h
        rfl
      have htail : c ∈ n'.text.tail := by
        rw [← hmore, List.tail_append_of_ne_nil n.text_ne_nil]
        simp
      obtain ⟨hdigit, hpoint⟩ := hends c hhead
      rcases n'.isDigit_or_point_of_mem_tail c htail with hisDigit | rfl
      · exact absurd hisDigit (by simp [hdigit])
      · have hone := n.count_point
        have htwo := n'.count_point
        rw [← hmore, List.count_append, hone, if_pos (hpoint rfl), List.count_cons_self] at htwo
        split at htwo <;> omega

/-- Where a numeral stands one is read, whatever follows. -/
theorem read?_ne_none (n : Numeral) (behind : List Char) :
    Decimal.read? (n.text ++ behind) ≠ none := by
  rw [text, List.append_assoc, List.append_assoc, Decimal.read?,
    takeSign_append n (n.head?_ne_sign behind)]
  dsimp only
  rw [List.takeWhile_append_of_pos n.isDigit_whole, List.dropWhile_append_of_pos n.isDigit_whole]
  rw [if_neg]
  · simp
  -- there is a digit before the point or behind it
  · intro hnone
    obtain ⟨hwhole, hfraction⟩ := List.append_eq_nil_iff.mp hnone
    obtain ⟨hwhole, -⟩ := List.append_eq_nil_iff.mp hwhole
    have hdigits := n.nonempty
    rw [hwhole, List.nil_append] at hdigits
    cases hpoint : n.fraction with
    | none => exact absurd rfl (hpoint ▸ hdigits)
    | some digits =>
      have hbehind : ∀ c ∈ digits, c.isDigit = true := by
        simpa [hpoint] using n.isDigit_fraction
      simp only [pointText, hpoint, List.cons_append] at hfraction
      rw [List.dropWhile_cons_of_neg (by decide), Decimal.takeFraction,
        List.takeWhile_append_of_pos hbehind] at hfraction
      rw [hpoint] at hdigits
      exact hdigits (List.append_eq_nil_iff.mp hfraction).1

end Numeral

/-! ### The longest sequence of words -/

namespace Spelling

/-- **Words at the head of a text that begins with a word** do not go beyond this word, or
begin with it. -/
theorem isPrefix_of_endsBefore {t t' : Spelling} {ts : List Spelling} {rest : List Char}
    (hends : t.numeral.EndsBefore rest) (h : spell (t' :: ts) <+: t.text ++ rest) :
    spell (t' :: ts) <+: t.text ∨ t'.text = t.text ∧ spell ts <+: rest := by
  rw [spell_cons, text, text, List.cons_append, List.cons_append, List.cons_prefix_cons] at h
  obtain ⟨hletter, hnumeral⟩ := h
  obtain ⟨more, hmore⟩ :=
    Numeral.isPrefix_of_endsBefore hends ((List.prefix_append _ _).trans hnumeral)
  rw [← hmore, List.append_assoc, List.prefix_append_right_inj] at hnumeral
  cases more with
  | nil =>
    rw [List.append_nil] at hmore
    exact .inr ⟨by rw [text, text, hletter, hmore], hnumeral⟩
  | cons c more =>
    cases ts with
    | nil =>
      refine .inl ⟨c :: more, ?_⟩
      rw [spell_cons, spell, List.flatMap_nil, List.append_nil, text, text, hletter,
        List.cons_append, hmore]
    | cons t'' ts =>
      -- a second word would begin inside the numeral
      have hhead : c ∈ (spell (t'' :: ts)).head? := by
        rw [spell_cons, text, List.cons_append, List.cons_append, List.cons_prefix_cons] at hnumeral
        rw [spell_cons, text, List.cons_append, List.head?_cons, hnumeral.1]
        rfl
      have htail : c ∈ t.numeral.text.tail := by
        rw [← hmore, List.tail_append_of_ne_nil t'.numeral.text_ne_nil]
        simp
      obtain ⟨hdigit, hpoint⟩ := head?_spell _ c hhead
      rcases t.numeral.isDigit_or_point_of_mem_tail c htail with hisDigit | hisPoint
      · exact absurd hisDigit (by simp [hdigit])
      · exact absurd hisPoint hpoint

end Spelling

/-- The longest sequence of words at the head of a text, and what follows it. -/
structure LongestWords (text : List Char) (ts : List Spelling) (rest : List Char) : Prop where
  text_eq : text = Spelling.spell ts ++ rest
  longest : ∀ ts', Spelling.spell ts' <+: text →
    (Spelling.spell ts').length ≤ (Spelling.spell ts).length

namespace LongestWords

open Spelling

variable {text rest : List Char} {ts : List Spelling}

/-- A text that does not begin with a word has no words at its head. -/
theorem of_no_word (h : ∀ t : Spelling, ¬ t.text <+: text) : LongestWords text [] text where
  text_eq := rfl
  longest ts' hhead := by
    cases ts' with
    | nil => exact Nat.le_refl _
    | cons t ts' =>
      rw [spell_cons] at hhead
      exact absurd ((List.prefix_append _ _).trans hhead) (h t)

/-- A word whose numeral ends is the first of the words. -/
theorem cons {t : Spelling} (hends : t.numeral.EndsBefore text) (h : LongestWords text ts rest) :
    LongestWords (t.text ++ text) (t :: ts) rest where
  text_eq := by rw [spell_cons, List.append_assoc, ← h.text_eq]
  longest ts' hhead := by
    rw [spell_cons, List.length_append]
    cases ts' with
    | nil => exact Nat.zero_le _
    | cons t' ts' =>
      rcases isPrefix_of_endsBefore hends hhead with hshort | ⟨hsame, hrest⟩
      · exact Nat.le_trans hshort.length_le (Nat.le_add_right _ _)
      · rw [spell_cons, List.length_append, hsame]
        exact Nat.add_le_add_left (h.longest ts' hrest) _

/-- Nothing but one sequence of words is the longest at the head of a text. -/
theorem words_eq {α : Type} [Number α] {rest' : List Char} {ts' : List Spelling}
    (h : LongestWords text ts rest) (h' : LongestWords text ts' rest') :
    rest' = rest ∧ ts'.map (word α) = ts.map (word α) := by
  have hprefix : spell ts <+: text := ⟨rest, h.text_eq.symm⟩
  have hprefix' : spell ts' <+: text := ⟨rest', h'.text_eq.symm⟩
  have hsame : spell ts' = spell ts :=
    (List.prefix_of_prefix_length_le hprefix' hprefix (h.longest ts' hprefix')).eq_of_length_le
      (h'.longest ts hprefix)
  constructor
  · have htexts := h'.text_eq.symm.trans h.text_eq
    rw [hsame] at htexts
    exact List.append_cancel_left htexts
  · have hwords := words_spell (α := α) ts' 0
    rw [hsame, words_spell] at hwords
    exact (Except.ok.inj hwords).symm

end LongestWords

/-! ### Steps -/

section

variable (α : Type) [Number α]

/-- The steps of a reader through words, each with the cursor behind it. -/
def wordSteps (cursor : Nat) : List Spelling → List (ReadStep α × Nat)
  | [] => []
  | t :: ts =>
    (.word (t.word α), cursor + byteLength t.text) :: wordSteps (cursor + byteLength t.text) ts

/-- The steps of a reader behind the last word: the end of the text is reached, or the
character that stands there is at fault.  A capital at fault lacks its numeral. -/
def lastSteps (cursor : Nat) : List Char → List (ReadStep α × Nat)
  | [] => [(.done, cursor)]
  | c :: _ =>
    if c.isUpper then [(.fault (.badNumber c (cursor + 1)), cursor + 1), (.done, cursor + 1)]
    else [(.fault (.expectedLetter c cursor), cursor), (.done, cursor)]

end

namespace WordReader

variable {α : Type} [Number α]

/-- A reader finds fault where no word stands, and a capital that it takes lacks its
numeral. -/
theorem exists_of_fault {r r' : WordReader} {f : BlockFault α} (h : r.next = (.fault f, r')) :
    (∀ t : Spelling, ¬ t.text <+: r.rest) ∧
      [(.fault f, r'.cursor), (.done, r'.cursor)] = lastSteps α r.cursor r.rest := by
  unfold next at h
  split at h
  · exact absurd h (by simp)
  · next letter tail hrest =>
    rw [hrest, lastSteps]
    split at h
    · next hupper =>
      split at h
      · next hnone =>
        obtain ⟨hf, rfl⟩ := Prod.mk.inj h
        rw [if_pos hupper, ReadStep.fault.inj hf]
        refine ⟨fun t ht => ?_, rfl⟩
        rw [Spelling.text, List.cons_prefix_cons] at ht
        obtain ⟨-, behind, rfl⟩ := ht
        exact t.numeral.read?_ne_none behind hnone
      · exact absurd h (by simp)
    · next hupper =>
      obtain ⟨hf, rfl⟩ := Prod.mk.inj h
      rw [if_neg hupper, ReadStep.fault.inj hf]
      refine ⟨fun t ht => ?_, rfl⟩
      rw [Spelling.text, List.cons_prefix_cons] at ht
      exact hupper (ht.1 ▸ t.isUpper_letter)

/-- **The steps of a reader** go through the longest sequence of words ahead, and end behind
it. -/
theorem toEnd_eq (r : WordReader) :
    ∃ ts rest, LongestWords r.rest ts rest ∧
      r.toEnd = wordSteps α r.cursor ts
        ++ lastSteps α (r.cursor + byteLength (Spelling.spell ts)) rest := by
  -- along the reading: behind a word, at a fault, and at the end
  fun_induction toEnd (α := α) r with
  | case1 r w r' h ih =>
    obtain ⟨t, hrest, rfl, hends, hcursor⟩ := Spelling.exists_of_next h
    obtain ⟨ts, rest, hlongest, hsteps⟩ := ih
    rw [← byteLength_of_standsForItself t.standsForItself] at hcursor
    refine ⟨t :: ts, rest, hrest ▸ hlongest.cons hends, ?_⟩
    rw [hsteps, wordSteps, Spelling.spell_cons, byteLength_append, ← hcursor, List.cons_append,
      ← Nat.add_assoc, ← hcursor]
  | case2 r f r' h =>
    obtain ⟨hno, hlast⟩ := exists_of_fault h
    exact ⟨[], r.rest, .of_no_word hno, hlast⟩
  | case3 r r' h =>
    have hno (t : Spelling) : ¬ t.text <+: r.rest := by
      intro ht
      rw [rest_of_done h, List.prefix_nil] at ht
      exact absurd ht (by simp [Spelling.text])
    refine ⟨[], r.rest, .of_no_word hno, ?_⟩
    rw [rest_of_done h, eq_of_done h]
    rfl

end WordReader

/-! ### Asking for more -/

/-- A reader that is asked for words over and over.  Once it has failed it is not asked any
more. -/
structure WordStream where
  reader : WordReader
  failed : Bool

namespace WordStream

variable {α : Type} [Number α]

/-- The stream of the words of a text. -/
def ofText (s : List Char) : WordStream :=
  ⟨.ofText s, false⟩

/-- The answer to one question, and the stream behind it. -/
def ask (s : WordStream) : ReadStep α × WordStream :=
  if s.failed then (.done, s)
  else match s.reader.next (α := α) with
    | (.fault f, r) => (.fault f, ⟨r, true⟩)
    | (step, r) => (step, ⟨r, false⟩)

/-- The answers to a number of questions, each with the cursor behind it. -/
def answers (s : WordStream) : Nat → List (ReadStep α × Nat)
  | 0 => []
  | n + 1 => ((ask s).1, (ask (α := α) s).2.reader.cursor) :: answers (ask (α := α) s).2 n

/-- A stream that answers with its end, and is left as it is, has come to its end for good. -/
theorem answers_of_ended {s : WordStream} (h : ask (α := α) s = (.done, s)) (n : Nat) :
    answers (α := α) s n = List.replicate n (.done, s.reader.cursor) := by
  induction n with
  | zero => rfl
  | succ n ih => rw [answers, h, ih, List.replicate_succ]

/-- **Whoever asks on gets the steps of the reader, and then nothing more.** -/
theorem answers_eq (r : WordReader) :
    ∃ cursor, ∀ n, answers ⟨r, false⟩ ((r.toEnd (α := α)).length + n) =
      r.toEnd (α := α) ++ List.replicate n (.done, cursor) := by
  fun_induction WordReader.toEnd (α := α) r with
  | case1 r w r' h ih =>
    obtain ⟨cursor, ih⟩ := ih
    have hask : ask ⟨r, false⟩ = (.word w, ⟨r', false⟩) := by simp [ask, h]
    refine ⟨cursor, fun n => ?_⟩
    rw [List.length_cons, Nat.add_right_comm, answers, hask]
    dsimp only
    rw [ih, List.cons_append]
  | case2 r f r' h =>
    have hask : ask ⟨r, false⟩ = (.fault f, ⟨r', true⟩) := by simp [ask, h]
    have hended : ask (α := α) ⟨r', true⟩ = (.done, ⟨r', true⟩) := rfl
    refine ⟨r'.cursor, fun n => ?_⟩
    rw [List.length_cons, Nat.add_right_comm, answers, hask]
    dsimp only
    rw [answers_of_ended hended, List.length_singleton, Nat.add_comm, List.replicate_succ]
    rfl
  | case3 r r' h =>
    obtain rfl := WordReader.eq_of_done h
    have hended : ask (α := α) ⟨r', false⟩ = (.done, ⟨r', false⟩) := by simp [ask, h]
    refine ⟨r'.cursor, fun n => ?_⟩
    rw [answers_of_ended hended, List.length_singleton, Nat.add_comm, List.replicate_succ]
    rfl

end WordStream

/-- **A text is read by its grammar, and its first fault is located.**

Of the sequences of words at the head of a text one is the longest.  The reader finds its
words in order, each with its letter and the number that its whole numeral writes, and the
cursor stands behind the bytes of the word.  Behind the last word the text is at its end, or
there is one fault: a character that is no capital, where it stands, or a capital without a
numeral, at the place of the numeral.  Whoever asks on gets nothing more. -/
theorem WordReader.reads_longest_words {α : Type} [Number α] (text : List Char) :
    ∃ ts rest, LongestWords text ts rest ∧
      (∀ ts' rest', LongestWords text ts' rest' →
        rest' = rest ∧ ts'.map (Spelling.word α) = ts.map (Spelling.word α)) ∧
      (ofText text).toEnd =
        wordSteps α 0 ts ++ lastSteps α (byteLength (Spelling.spell ts)) rest ∧
      (∀ t ∈ ts, (t.word α).letter = t.letter ∧
        (t.word α).value = Number.ofDecimal t.numeral.value ∧
        (t.word α).fraction = (t.word α).value - Number.trunc (t.word α).value) ∧
      ∃ cursor, ∀ n, (WordStream.ofText text).answers (((ofText text).toEnd (α := α)).length + n) =
          (ofText text).toEnd (α := α) ++ List.replicate n (.done, cursor) := by
  obtain ⟨ts, rest, hlongest, hsteps⟩ := toEnd_eq (α := α) (ofText text)
  refine ⟨ts, rest, hlongest, fun ts' rest' h => hlongest.words_eq h, ?_,
    fun t _ => ⟨rfl, rfl, rfl⟩, WordStream.answers_eq (ofText text)⟩
  rw [hsteps, ofText, Nat.zero_add]

end NumericControl
