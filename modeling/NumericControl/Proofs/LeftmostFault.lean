import NumericControl.Proofs.Grammar
import NumericControl.Proofs.WordOrder

/-!
# The leftmost fault counts

A command is read and gathered in one go, and two kinds of faults can end this: the text is no
word where one has to begin, or a word has no meaning.  Here the interleaving is undone.  A
command is at fault at the first place that is neither a word with a meaning nor the end of the
text, whatever the machine, and what the fault is can be told from this place alone.

So nothing behind the place matters, as long as the place stays what it is.  A text that is put
behind it may make another place of it in one way only, namely by going on with it: a numeral
may get more digits, and a capital without a numeral may get one.

## Main definitions

* `Apart` — a text does not go on with a place.
* `IsFault` — the three kinds of places at fault.
* `FaultAt` — a text is at fault at a place behind words with a meaning.

## Main results

* `apart_word_iff`, `apart_capital_iff`, `apart_of_not_isUpper` — what goes on with a place.
* `FaultAt.exists_or` — a text is made of words with a meaning, or is at fault at a place.
* `Proposal.applyAll_eq_error` — a text that is at fault at a place fails with this fault.
* `Proposal.leftmost_fault_reported` — **the leftmost fault is reported**.
-/

namespace NumericControl

/-! ### Places that stand apart -/

/-- A text does not go on with the place in front of it: the words that stand at the head of
both do not go beyond the place. -/
def Apart (place behind : List Char) : Prop :=
  ∀ t : Spelling, t.text <+: place ++ behind → t.text <+: place

namespace Numeral

/-- Of numerals with the same text both have a point or none has. -/
theorem isSome_fraction_eq {n n' : Numeral} (h : n'.text = n.text) :
    n'.fraction.isSome = n.fraction.isSome := by
  have hcount := n'.count_point
  rw [h, n.count_point] at hcount
  cases hn : n.fraction.isSome <;> cases hn' : n'.fraction.isSome <;> simp [hn, hn'] at hcount ⊢

/-- Whether a numeral ends before a text is told by the head of the text. -/
theorem endsBefore_append_iff {n : Numeral} {place : List Char} (hne : place ≠ [])
    (behind : List Char) : n.EndsBefore (place ++ behind) ↔ n.EndsBefore place := by
  cases place with
  | nil => exact absurd rfl hne
  | cons c place => rfl

end Numeral

section

variable {behind : List Char}

/-- **A text does not go on with a word if the numeral ends before it.** -/
theorem apart_word_iff {t : Spelling} : Apart t.text behind ↔ t.numeral.EndsBefore behind := by
  constructor
  · intro h
    -- the numeral that is read is as long as that of the word
    obtain ⟨⟨d, rest⟩, hread⟩ :=
      Option.ne_none_iff_exists'.mp (t.numeral.read?_ne_none behind)
    obtain ⟨n, htext, -, hends⟩ := Numeral.exists_of_read? hread
    have hlong : t.numeral.text <+: n.text :=
      Numeral.isPrefix_of_endsBefore hends (htext ▸ List.prefix_append _ _)
    have hword : (t.letter :: n.text) <+: t.text := by
      refine h ⟨t.letter, n, t.isUpper_letter⟩ ⟨rest, ?_⟩
      rw [Spelling.text, Spelling.text, List.cons_append, List.cons_append, htext]
    have hshort : n.text <+: t.numeral.text := (List.prefix_cons_inj _).mp hword
    have hsame : n.text = t.numeral.text := hshort.eq_of_length_le hlong.length_le
    rw [hsame] at htext
    obtain rfl := List.append_cancel_left htext
    intro c hc
    obtain ⟨hdigit, hpoint⟩ := hends c hc
    exact ⟨hdigit, fun h => Numeral.isSome_fraction_eq hsame ▸ hpoint h⟩
  · intro hends t' ht'
    rw [Spelling.text, Spelling.text, List.cons_append, List.cons_prefix_cons] at ht'
    rw [Spelling.text, Spelling.text, List.cons_prefix_cons]
    exact ⟨ht'.1, Numeral.isPrefix_of_endsBefore hends ht'.2⟩

variable {c : Char}

/-- **A text does not go on with a capital if no numeral stands at its head.** -/
theorem apart_capital_iff (hc : c.isUpper = true) :
    Apart [c] behind ↔ ∀ n : Numeral, ¬ n.text <+: behind := by
  constructor
  · intro h n hn
    have hword : (c :: n.text) <+: [c] := h ⟨c, n, hc⟩ ((List.prefix_cons_inj c).mpr hn)
    rw [List.prefix_cons_inj, List.prefix_nil] at hword
    exact n.text_ne_nil hword
  · intro h t ht
    rw [Spelling.text, List.singleton_append, List.cons_prefix_cons] at ht
    exact absurd ht.2 (h t.numeral)

/-- No text goes on with a character that is no capital. -/
theorem apart_of_not_isUpper (hc : c.isUpper = false) : Apart [c] behind := by
  intro t ht
  rw [Spelling.text, List.singleton_append, List.cons_prefix_cons] at ht
  exact absurd t.isUpper_letter (by simp [ht.1, hc])

end

/-! ### Places at fault -/

variable {α : Type} [Number α]

/-- A place is at fault: where a word has to begin stands a character that is no capital, or a
capital alone, or a word without a meaning.  The place begins at a byte of the text. -/
inductive IsFault (position : Nat) : List Char → BlockFault α → Prop
  | expectedLetter {c : Char} : c.isUpper = false →
      IsFault position [c] (.expectedLetter c position)
  | badNumber {c : Char} : c.isUpper = true →
      IsFault position [c] (.badNumber c (position + 1))
  | unsupportedWord {t : Spelling} : (t.word α).isSupported = false →
      IsFault position t.text (.unsupportedWord t.letter (t.word α).value)

theorem IsFault.place_ne_nil {position : Nat} {place : List Char} {f : BlockFault α}
    (h : IsFault position place f) : place ≠ [] := by
  cases h <;> simp [Spelling.text]

/-- A text is at fault at a place: in front of it stand words with a meaning, with which it does
not go on, and what stands behind it does not go on with it.  The text begins at a byte. -/
structure FaultAt (position : Nat) (text : List Char) (ts : List Spelling)
    (place behind : List Char) (f : BlockFault α) : Prop where
  text_eq : text = Spelling.spell ts ++ (place ++ behind)
  isSupported : ∀ t ∈ ts, (t.word α).isSupported = true
  endsBefore : ∀ t ∈ ts.getLast?, t.numeral.EndsBefore place
  isFault : IsFault (position + byteLength (Spelling.spell ts)) place f
  apart : Apart place behind

namespace FaultAt

variable {position : Nat} {text : List Char} {ts : List Spelling} {place behind : List Char}
  {f : BlockFault α}

/-- A place at the head of a text. -/
theorem head (hfault : IsFault position place f) (hapart : Apart place behind) :
    FaultAt position (place ++ behind) [] place behind f where
  text_eq := rfl
  isSupported t ht := absurd ht (by simp)
  endsBefore t ht := absurd ht (by simp)
  isFault := hfault
  apart := hapart

/-- A place behind one more word. -/
theorem cons {t : Spelling} (hsupported : (t.word α).isSupported = true)
    (hends : t.numeral.EndsBefore text)
    (h : FaultAt (position + byteLength t.text) text ts place behind f) :
    FaultAt position (t.text ++ text) (t :: ts) place behind f where
  text_eq := by rw [Spelling.spell_cons, List.append_assoc, ← h.text_eq]
  isSupported := List.forall_mem_cons.mpr ⟨hsupported, h.isSupported⟩
  endsBefore := by
    cases ts with
    | nil =>
      have htext : text = place ++ behind := h.text_eq
      rw [htext, Numeral.endsBefore_append_iff h.isFault.place_ne_nil] at hends
      simpa using hends
    | cons t' ts =>
      rw [List.getLast?_cons_cons]
      exact h.endsBefore
  isFault := by
    rw [Spelling.spell_cons, byteLength_append, ← Nat.add_assoc]
    exact h.isFault
  apart := h.apart

/-- A place stays at fault if another text stands behind it that does not go on with it. -/
theorem replace (h : FaultAt position text ts place behind f) {behind' : List Char}
    (hapart : Apart place behind') :
    FaultAt position (Spelling.spell ts ++ (place ++ behind')) ts place behind' f :=
  { h with text_eq := rfl, apart := hapart }

/-- **A text is made of words with a meaning, or is at fault at a place.** -/
theorem exists_or (r : WordReader) :
    (∃ ts, Spelling.spell ts = r.rest ∧ ∀ t ∈ ts, (t.word α).isSupported = true) ∨
      ∃ ts place behind, ∃ f : BlockFault α, FaultAt r.cursor r.rest ts place behind f := by
  -- along the reading: behind a word, at a fault of the text, and at the end
  fun_induction WordReader.toEnd (α := α) r with
  | case1 r w r' h ih =>
    obtain ⟨t, hrest, rfl, hends, hcursor⟩ := Spelling.exists_of_next h
    rw [← byteLength_of_standsForItself t.standsForItself] at hcursor
    rw [hrest]
    cases hsupported : (t.word α).isSupported with
    | false => exact .inr ⟨[], _, _, _, .head (.unsupportedWord hsupported) (apart_word_iff.mpr hends)⟩
    | true =>
      rcases ih with ⟨ts, hspell, hts⟩ | ⟨ts, place, behind, f, hfault⟩
      · refine .inl ⟨t :: ts, ?_, List.forall_mem_cons.mpr ⟨hsupported, hts⟩⟩
        rw [Spelling.spell_cons, hspell]
      · rw [hcursor] at hfault
        exact .inr ⟨t :: ts, place, behind, f, hfault.cons hsupported hends⟩
  | case2 r f r' h =>
    obtain ⟨hno, -⟩ := WordReader.exists_of_fault h
    cases hrest : r.rest with
    | nil =>
      rw [WordReader.next, hrest] at h
      exact absurd h (by simp)
    | cons c behind =>
      cases hupper : c.isUpper with
      | false =>
        exact .inr ⟨[], [c], behind, _,
          .head (.expectedLetter hupper) (apart_of_not_isUpper hupper)⟩
      | true =>
        have hapart : Apart [c] behind := fun t ht => absurd (hrest ▸ ht) (hno t)
        exact .inr ⟨[], [c], behind, _, .head (.badNumber hupper) hapart⟩
  | case3 r r' h => exact .inl ⟨[], (WordReader.rest_of_done h).symm, by simp⟩

end FaultAt

/-! ### Gathering -/

namespace Proposal

variable {p : Proposal α} {r r' : WordReader}

theorem applyAll_of_fault {f : BlockFault α} (h : r.next = (.fault f, r')) :
    p.applyAll r = .error f := by
  rw [applyAll]
  split
  · next heq => rw [heq] at h; exact absurd h (by simp)
  · next heq =>
    rw [heq] at h
    rw [ReadStep.fault.inj (Prod.mk.inj h).1]
  · next heq => rw [heq] at h; exact absurd h (by simp)

/-- Behind a word the rest is gathered, if the word has a meaning. -/
theorem applyAll_of_word {w : Word α} (h : r.next = (.word w, r')) :
    p.applyAll r = (p.apply w).bind (·.applyAll r') := by
  rw [applyAll]
  split
  · next heq => rw [heq] at h; exact absurd h (by simp)
  · next heq => rw [heq] at h; exact absurd h (by simp)
  · next heq =>
    rw [heq] at h
    obtain ⟨hw, rfl⟩ := Prod.mk.inj h
    rw [← ReadStep.word.inj hw]
    cases p.apply _ <;> rfl

/-- **Words with a meaning are gathered, and the rest behind them.** -/
theorem applyAll_spell {ts : List Spelling} {rest : List Char}
    (hsupported : ∀ t ∈ ts, (t.word α).isSupported = true)
    (hends : ∀ t ∈ ts.getLast?, t.numeral.EndsBefore rest) (p : Proposal α) (cursor : Nat) :
    p.applyAll ⟨Spelling.spell ts ++ rest, cursor⟩ =
      (ts.foldl (fun p t => p.assign (t.word α).changes) p).applyAll
        ⟨rest, cursor + byteLength (Spelling.spell ts)⟩ := by
  induction ts generalizing p cursor with
  | nil => rfl
  | cons t ts ih =>
    obtain ⟨ht, hsupported⟩ := List.forall_mem_cons.mp hsupported
    have hword : t.numeral.EndsBefore (Spelling.spell ts ++ rest) := by
      cases ts with
      | nil => exact hends t rfl
      | cons t' ts => exact Spelling.endsBefore_spell t.numeral (t' :: ts)
    have hlast : ∀ t' ∈ ts.getLast?, t'.numeral.EndsBefore rest := by
      cases ts with
      | nil => simp
      | cons t' ts => rwa [List.getLast?_cons_cons] at hends
    rw [Spelling.spell_cons, List.append_assoc,
      applyAll_of_word (t.next_text hword cursor), apply_of_isSupported ht, byteLength_append,
      ← Nat.add_assoc, byteLength_of_standsForItself t.standsForItself]
    exact ih hsupported hlast _ _

/-- A place at fault ends the gathering with its fault. -/
theorem applyAll_of_isFault {cursor : Nat} {place behind : List Char} {f : BlockFault α}
    (hfault : IsFault cursor place f) (hapart : Apart place behind) (p : Proposal α) :
    p.applyAll ⟨place ++ behind, cursor⟩ = .error f := by
  cases hfault with
  | @expectedLetter c hc =>
    have hnext : WordReader.next (α := α) ⟨[c] ++ behind, cursor⟩ =
        (.fault (.expectedLetter c cursor), ⟨[c] ++ behind, cursor⟩) := by
      rw [List.singleton_append, WordReader.next]
      dsimp only
      rw [if_neg (by simp [hc])]
    exact applyAll_of_fault hnext
  | @badNumber c hc =>
    have hread : Decimal.read? behind = none := by
      rw [Option.eq_none_iff_forall_ne_some]
      rintro ⟨d, rest⟩ hread
      obtain ⟨n, rfl, -⟩ := Numeral.exists_of_read? hread
      exact (apart_capital_iff hc).mp hapart n (List.prefix_append _ _)
    have hnext : WordReader.next (α := α) ⟨[c] ++ behind, cursor⟩ =
        (.fault (.badNumber c (cursor + 1)), ⟨behind, cursor + 1⟩) := by
      rw [List.singleton_append, WordReader.next]
      dsimp only
      rw [if_pos hc, hread]
    exact applyAll_of_fault hnext
  | @unsupportedWord t ht =>
    have happly : p.apply (t.word α) = .error (.unsupportedWord t.letter (t.word α).value) := by
      rw [apply, applied?_eq, if_neg (by simp [ht])]
      rfl
    rw [applyAll_of_word (t.next_text (apart_word_iff.mp hapart) cursor), happly]
    rfl

/-- **A text that is at fault at a place fails with this fault**, whatever was gathered before. -/
theorem applyAll_eq_error {position : Nat} {text : List Char} {ts : List Spelling}
    {place behind : List Char} {f : BlockFault α}
    (h : FaultAt position text ts place behind f) (p : Proposal α) :
    p.applyAll ⟨text, position⟩ = .error f := by
  have hends : ∀ t ∈ ts.getLast?, t.numeral.EndsBefore (place ++ behind) := fun t ht =>
    (Numeral.endsBefore_append_iff h.isFault.place_ne_nil behind).mpr (h.endsBefore t ht)
  rw [h.text_eq, applyAll_spell h.isSupported hends]
  exact applyAll_of_isFault h.isFault h.apart _

section

variable {σ : Type} [Machine σ α] (m : σ)

/-- Words are applied one behind another. -/
theorem ofCommand_spell (ts : List Spelling) :
    ofCommand (Spelling.spell ts) m =
      (ts.map (Spelling.word α)).foldlM apply (ofMachine m) :=
  applyAll_of_words (Spelling.words_spell ts 0)

/-- **The leftmost fault is reported**, and nothing behind it matters.

A command makes a proposal exactly if it is a sequence of words, each with a meaning, and then
these words are applied to the proposal of the machine, one behind another.  If it makes none, it
is at fault at a place: in front of the place stand words with a meaning only, and the place is a
character that is no capital, a capital without a numeral, or a word without a meaning.  The
fault is that of the place, be it one of the text or of a word.  It stays the same if what follows
the place is replaced by any text that does not go on with the place, that is, with the numeral of
the word, or with one for the capital. -/
theorem leftmost_fault_reported (command : List Char) :
    ((∃ p, ofCommand command m = .ok p) ↔
      ∃ ts, Spelling.spell ts = command ∧ ∀ t ∈ ts, (t.word α).isSupported = true) ∧
    (∀ ts, Spelling.spell ts = command → (∀ t ∈ ts, (t.word α).isSupported = true) →
      ofCommand command m = (ts.map (Spelling.word α)).foldlM apply (ofMachine m)) ∧
    (∀ f, ofCommand command m = .error f ↔
      ∃ ts place behind, FaultAt 0 command ts place behind f) ∧
    ∀ ts place behind f, FaultAt 0 command ts place behind f →
      ∀ behind', Apart place behind' →
        ofCommand (Spelling.spell ts ++ (place ++ behind')) m = .error f := by
  have hfault {text : List Char} {ts place behind} {f : BlockFault α}
      (h : FaultAt 0 text ts place behind f) : ofCommand text m = .error f :=
    applyAll_eq_error h (ofMachine m)
  refine ⟨⟨?_, ?_⟩, ?_, fun f => ⟨fun hf => ?_, ?_⟩, fun ts place behind f h behind' hapart => ?_⟩
  · rintro ⟨p, hp⟩
    rcases FaultAt.exists_or (α := α) (.ofText command) with hwords | ⟨_, _, _, _, h⟩
    · exact hwords
    · exact absurd (hp.symm.trans (hfault h)) (by simp)
  · rintro ⟨ts, rfl, hsupported⟩
    rw [ofCommand_spell, foldlM_apply_of_isSupported (by simpa using hsupported)]
    exact ⟨_, rfl⟩
  · rintro ts rfl -
    exact ofCommand_spell m ts
  · rcases FaultAt.exists_or (α := α) (.ofText command) with
      ⟨ts, rfl, hsupported⟩ | ⟨ts, place, behind, f', h⟩
    · rw [ofCommand_spell, foldlM_apply_of_isSupported (by simpa using hsupported)] at hf
      exact absurd hf (by simp)
    · obtain rfl := Except.error.inj (hf.symm.trans (hfault h))
      exact ⟨ts, place, behind, h⟩
  · rintro ⟨ts, place, behind, h⟩
    exact hfault h
  · exact hfault (h.replace hapart)

/-- A word without a meaning stands before a capital without a numeral. -/
example : ofCommand "G1Q2X-Y".toList (Simulator.ofState .standard (.initial : State ℚ)) =
    .error (.unsupportedWord 'Q' 2) := by
  decide +kernel

end

end Proposal

end NumericControl
