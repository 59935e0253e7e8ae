import NumericControl.Proofs.BinaryValue
import NumericControl.Proofs.ByteReader
import NumericControl.Proofs.LastAssignment
import NumericControl.Proofs.Line

/-!
# Values of a block are finite

A numeral may have any number of digits, and with three hundred and more of them the nearest
floating-point word may be an infinity.  Nobody looks for that: a reader hands over whatever word
is nearest, and a machine moves to wherever it is told.  What keeps infinities away is the length of
a command.  It has at most 255 characters, one of them the letter in front of the numeral, so a
numeral has at most 254 digits and is below `10 ^ 254`, which is far from where the floating-point
words end.

The bound goes from the text to the words that are read of it, however often the reader is asked,
and from there to everything that words leave behind: the fields that they assign, and the word in
a fault.  What is true of the values of all words that are read is true of all of these, whatever
it is.

## Main definitions

* `WordReader.ReadsOnly` — the values of all words that a reader reads are of a kind.
* `Field.numbers`, `Changes.HoldsOnly` — the fields with numbers, and all of these are of a kind.

## Main results

* `Decimal.ofDigits_lt`, `Numeral.abs_value_lt` — a numeral is bounded by its length.
* `Proposal.holdsOnly_of_applyAll` — what is true of the words of a text is true of what they
  leave behind.
* `command_values_are_finite` — **the values of a block are finite**, because its command is short.
-/

namespace NumericControl

/-! ### Numerals -/

/-- **A run of digits writes a number with no more digits.** -/
theorem Decimal.ofDigits_lt {digits : List Char} (h : ∀ c ∈ digits, c.isDigit = true) :
    ofDigits digits < 10 ^ digits.length := by
  -- the last digit is added to ten times what the others write
  induction digits using List.reverseRecOn with
  | nil => decide
  | append_singleton digits c ih =>
    have hfront : ofDigits digits < 10 ^ digits.length := ih fun d hd => h d (by simp [hd])
    have hlast : c.toNat ≤ '9'.toNat := (Char.isDigit_iff_toNat.mp (h c (by simp))).2
    have hstep : ofDigits (digits ++ [c]) = 10 * ofDigits digits + (c.toNat - '0'.toNat) := by
      rw [ofDigits, List.foldl_append]
      rfl
    have hnine : '9'.toNat = '0'.toNat + 9 := rfl
    rw [hstep, List.length_append, List.length_singleton, pow_succ]
    omega

/-- **A numeral is bounded by its length.** -/
theorem Numeral.abs_value_lt (n : Numeral) : |n.value.toRat| < 10 ^ n.text.length := by
  have hdigits : ∀ c ∈ n.whole ++ n.fraction.getD [], c.isDigit = true := by
    intro c hc
    rcases List.mem_append.mp hc with hwhole | hfraction
    · exact n.isDigit_whole c hwhole
    · exact n.isDigit_fraction c hfraction
  have hlength : (n.whole ++ n.fraction.getD []).length ≤ n.text.length := by
    rw [text, pointText, List.length_append, List.length_append, List.length_append]
    cases n.fraction with
    | none => simp
    | some digits => simp only [Option.getD_some, List.length_cons]; omega
  -- the point only moves digits to the right
  have hdown : |n.value.toRat| ≤ n.value.digits := by
    have hscaled := n.value.abs_toRat_mul
    have hexponent : n.value.exponent.toNat = 0 := Int.toNat_of_nonpos (by simp [value])
    rw [hexponent, pow_zero, mul_one] at hscaled
    rw [← hscaled]
    refine le_mul_of_one_le_right (abs_nonneg _) ?_
    exact_mod_cast Nat.one_le_pow _ _ (by decide)
  calc |n.value.toRat| ≤ n.value.digits := hdown
    _ < (10 ^ (n.whole ++ n.fraction.getD []).length : ℕ) := by
      exact_mod_cast Decimal.ofDigits_lt hdigits
    _ ≤ 10 ^ n.text.length := by
      exact_mod_cast Nat.pow_le_pow_right (by decide) hlength

/-- In a command there is room for a numeral of 254 characters. -/
theorem Spelling.abs_value_lt {t : Spelling} (h : t.text.length ≤ blockCapacity) :
    |t.numeral.value.toRat| < 10 ^ 254 := by
  have hlength : t.numeral.text.length ≤ 254 := by
    rw [text, List.length_cons, blockCapacity] at h
    omega
  exact t.numeral.abs_value_lt.trans_le (pow_le_pow_right₀ (by norm_num) hlength)

/-- A word for which a command has room is a finite one. -/
theorem Spelling.isFinite_word {t : Spelling} (h : t.text.length ≤ blockCapacity) :
    (t.word Binary64).value.isFinite = true := by
  have hbound : (10 ^ 254 : ℕ) ≤ 2 ^ 1023 := by decide +kernel
  exact Binary64.isFinite_ofDecimal ((abs_value_lt h).trans_le (by exact_mod_cast hbound))

/-! ### Words of a text -/

namespace WordReader

section

variable {α : Type} [Number α]

/-- A reader that goes on has no more to read than before. -/
theorem length_rest_after_le (r : WordReader) (n : ℕ) :
    (r.after α n).rest.length ≤ r.rest.length := by
  induction n generalizing r with
  | zero => exact Nat.le_refl _
  | succ n ih =>
    rcases (moves_next α r).length_lt_or_eq with hlt | hstill
    · exact (ih _).trans hlt.le
    · rw [after, hstill]
      exact ih r

/-- A word that is read, however often the reader was asked before, stands spelled in the text. -/
theorem exists_of_next_after {r : WordReader} {n : ℕ} {w : Word α}
    (h : (next (r.after α n)).1 = .word w) :
    ∃ t : Spelling, (r.after α n).rest = t.text ++ (next (α := α) (r.after α n)).2.rest ∧
      t.word α = w ∧ t.text.length ≤ r.rest.length := by
  obtain ⟨t, hrest, hword, -⟩ := Spelling.exists_of_next (Prod.ext h rfl)
  refine ⟨t, hrest, hword, ?_⟩
  have hlength := r.length_rest_after_le (α := α) n
  rw [hrest, List.length_append] at hlength
  omega

/-- The values of all words that a reader reads, however often it is asked, are of a kind. -/
def ReadsOnly (kind : α → Prop) (r : WordReader) : Prop :=
  ∀ n w, (next (r.after α n)).1 = .word w → kind w.value

end

/-- **A text for which a command has room has finite words only.** -/
theorem readsOnly_isFinite {r : WordReader} (h : r.rest.length ≤ blockCapacity) :
    r.ReadsOnly fun value : Binary64 => value.isFinite = true := by
  intro n w hw
  obtain ⟨t, -, rfl, hlength⟩ := exists_of_next_after hw
  exact Spelling.isFinite_word (hlength.trans h)

end WordReader

/-! ### Fields and faults -/

section

variable {α : Type}

/-- The fields with numbers: the targets and offsets of the axes, the radius, the feed rate, the
time of a dwell and the spindle speed. -/
def Field.numbers : List (Field α α) :=
  [.target .x, .target .y, .target .z, .offset .x, .offset .y, .offset .z, .radius, .feedRate,
    .dwellTime, .spindleSpeed]

/-- The numbers that are assigned to fields are of a kind. -/
def Changes.HoldsOnly (kind : α → Prop) (c : Changes α) : Prop :=
  ∀ field ∈ Field.numbers, ∀ value, c.get field = some value → kind value

/-- The numbers that are left behind by reading a command are of a kind: those of the fields, or
that of a word without a meaning. -/
def LeavesOnly (kind : α → Prop) : Except (BlockFault α) (Proposal α) → Prop
  | .ok p => p.changes.HoldsOnly kind
  | .error (.unsupportedWord _ value) => kind value
  | .error _ => True

variable {kind : α → Prop}

theorem Changes.HoldsOnly.empty : ({} : Changes α).HoldsOnly kind := by
  intro field _ value hvalue
  rw [get_empty] at hvalue
  exact absurd hvalue (by simp)

theorem Changes.HoldsOnly.over {c base : Changes α} (hc : c.HoldsOnly kind)
    (hbase : base.HoldsOnly kind) : (c.over base).HoldsOnly kind := by
  intro field hfield value hvalue
  rw [get_over, Option.or_eq_some_iff] at hvalue
  rcases hvalue with hvalue | ⟨-, hvalue⟩
  · exact hc field hfield value hvalue
  · exact hbase field hfield value hvalue

variable [Number α]

/-- **A field with a number holds the value of a word of one letter.** -/
theorem Word.exists_get_number {field : Field α α} (hfield : field ∈ Field.numbers) :
    ∃ letter, ∀ w : Word α, w.changes.get field = w.value? letter := by
  simp only [Field.numbers, List.mem_cons, List.not_mem_nil, or_false] at hfield
  rcases hfield with rfl | rfl | rfl | rfl | rfl | rfl | rfl | rfl | rfl | rfl
  exacts [⟨'X', fun _ => rfl⟩, ⟨'Y', fun _ => rfl⟩, ⟨'Z', fun _ => rfl⟩, ⟨'I', fun _ => rfl⟩,
    ⟨'J', fun _ => rfl⟩, ⟨'K', fun _ => rfl⟩, ⟨'R', fun _ => rfl⟩, ⟨'F', fun _ => rfl⟩,
    ⟨'P', fun _ => rfl⟩, ⟨'S', fun _ => rfl⟩]

theorem Word.holdsOnly_changes {w : Word α} (h : kind w.value) : w.changes.HoldsOnly kind := by
  intro field hfield value hvalue
  obtain ⟨letter, hletter⟩ := exists_get_number hfield
  rw [hletter, value?] at hvalue
  obtain ⟨-, hsame⟩ := Option.ite_none_right_eq_some.mp hvalue
  exact Option.some.inj hsame ▸ h

namespace Proposal

/-- **What is true of the words of a text is true of what they leave behind.** -/
theorem leavesOnly_of_applyAll {p : Proposal α} {r : WordReader} (hr : r.ReadsOnly kind)
    (hp : p.changes.HoldsOnly kind) : LeavesOnly kind (p.applyAll r) := by
  -- along the gathering: at the end, at a fault of the text, at a word without a meaning,
  -- and behind a word that has one
  fun_induction applyAll p r with
  | case1 p r r' h => exact hp
  | case2 p r f r' h =>
    cases WordReader.moves_of_next h with
    | badNumber => trivial
    | expectedLetter => trivial
  | case3 p r w r' h f hw =>
    have hkind : kind w.value := hr 0 w (congrArg Prod.fst h)
    unfold apply at hw
    split at hw
    · exact absurd hw (by simp)
    · rw [← Except.error.inj hw]
      exact hkind
  | case4 p r w r' h q hw ih =>
    have hkind : kind w.value := hr 0 w (congrArg Prod.fst h)
    have hrest : r'.ReadsOnly kind := by
      intro n
      have hnext := hr (n + 1)
      rwa [WordReader.after, h] at hnext
    refine ih hrest ?_
    rw [apply, applied?_eq] at hw
    cases hsupported : w.isSupported with
    | false => simp [hsupported] at hw
    | true =>
      rw [hsupported, if_pos rfl] at hw
      rw [← Except.ok.inj hw]
      exact (Word.holdsOnly_changes hkind).over hp

theorem leavesOnly_of_ofCommand {σ : Type} [Machine σ α] {command : List Char}
    (h : (WordReader.ofText command).ReadsOnly kind) (m : σ) :
    LeavesOnly kind (ofCommand command m) :=
  leavesOnly_of_applyAll h .empty

end Proposal

end

/-! ### Sessions -/

/-- A line without a normal form is too long, and nothing else is wrong with it. -/
theorem eq_tooLong_of_normalize {α : Type} {raw : List Char} {f : BlockFault α}
    (h : normalize raw = .error f) : f = .tooLong blockCapacity := by
  rw [normalize, normalizeFrom_eq] at h
  split at h
  · exact absurd h (by simp)
  · split at h
    · exact (Except.error.inj h).symm
    · exact absurd h (by simp)

/-- A word that a session reports as a fault was left behind by reading a command. -/
theorem Session.exists_of_unsupportedWord {σ α : Type} [Number α] [Machine σ α] {s : Session σ}
    {raw : List Char} {letter : Char} {value : α}
    (h : (s.step raw).2.result = .error (.unsupportedWord letter value)) :
    ∃ b, normalize (α := α) raw = .ok b ∧
      Proposal.ofCommand b.command (Machine.beginBlock s.machine) =
        .error (.unsupportedWord letter value) := by
  obtain ⟨requests, -, hexit⟩ := s.exit_step raw
  generalize s.step raw = out at hexit h
  obtain ⟨s', report⟩ := out
  cases hexit with
  | notNormal hn =>
    rw [eq_tooLong_of_normalize hn] at h
    exact absurd h (by simp)
  | empty => exact absurd h (by simp)
  | quit => exact absurd h (by simp)
  | @notBlock b fault hn hb hp =>
    obtain rfl : fault = .unsupportedWord letter value := Except.error.inj h
    exact ⟨b, hn, hp⟩
  | refused => exact absurd h (by simp)
  | executed => exact absurd h (by simp)

/-! ### Longer texts -/

/-- A one with noughts behind it writes a power of ten. -/
theorem Decimal.ofDigits_one_zeros (n : ℕ) :
    ofDigits ('1' :: List.replicate n '0') = 10 ^ n := by
  induction n with
  | zero => rfl
  | succ n ih =>
    rw [List.replicate_succ', ← List.cons_append, ofDigits, List.foldl_append]
    change 10 * ofDigits ('1' :: List.replicate n '0') + 0 = 10 ^ (n + 1)
    rw [ih, Nat.add_zero, pow_succ, Nat.mul_comm]

/-- The word of an axis with a one and noughts behind it. -/
def Spelling.powerOfTen (n : ℕ) : Spelling :=
  .ofWhole 'X' ('1' :: List.replicate n '0') (by decide) (by simp [List.all_replicate]) (by simp)

theorem Spelling.text_powerOfTen (n : ℕ) :
    (powerOfTen n).text = 'X' :: '1' :: List.replicate n '0' := by
  simp [powerOfTen, ofWhole, text, Numeral.text, Numeral.pointText]

/-- **A numeral may be read as an infinity.** -/
theorem Spelling.word_powerOfTen {n : ℕ} (hn : 309 ≤ n) :
    (powerOfTen n).word Binary64 = ⟨'X', .infinity false⟩ := by
  have hvalue : |(powerOfTen n).numeral.value.toRat| = (10 ^ n : ℕ) := by
    have hdigits : (powerOfTen n).numeral.value.digits = 10 ^ n := by
      rw [Numeral.value, powerOfTen, ofWhole, Option.getD_none, List.append_nil]
      exact Decimal.ofDigits_one_zeros n
    have hexponent : (powerOfTen n).numeral.value.exponent = 0 := rfl
    have hscaled := (powerOfTen n).numeral.value.abs_toRat_mul
    rw [hdigits, hexponent] at hscaled
    simpa using hscaled
  have hbound : (2 ^ 1024 : ℕ) ≤ 10 ^ 309 := by decide +kernel
  have hlarge : (2 ^ 1024 : ℕ) ≤ 10 ^ n := hbound.trans (pow_le_pow_right₀ (by decide) hn)
  have hinfinity : Binary64.ofDecimal (powerOfTen n).numeral.value = .infinity false :=
    Binary64.ofDecimal_eq_infinity (by rw [hvalue]; exact_mod_cast hlarge)
  rw [word]
  exact congrArg (Word.mk 'X') hinfinity

/-! ### Targets -/

/-- **A machine looks at no target of a straight move**, nor at that of an arc with a centre: it
refuses the move to one target as it refuses the move to another. -/
theorem Simulator.refusal_of_target {α : Type} [Number α] (m : Simulator α)
    (target target' : PerAxis α) :
    (m.perform (.traverse target)).2 = none ∧
    (m.perform (.feed target')).2 = (m.perform (.feed target)).2 ∧
    ∀ offset radius mode, Number.eq radius Number.zero = true →
      (m.perform (.arc target' offset radius mode)).2 =
        (m.perform (.arc target offset radius mode)).2 := by
  refine ⟨rfl, ?_, fun offset radius mode hradius => ?_⟩
  · simp only [perform]
    split <;> rfl
  · simp only [perform]
    split
    · rfl
    · split
      · rfl
      · have harc (t : PerAxis α) : m.checkArc t offset radius =
            m.checkArc (m.toMachine target) offset radius := by
          simp only [checkArc, hradius, if_true]
        rw [harc (m.toMachine target')]
        cases m.checkArc (m.toMachine target) offset radius <;> rfl

/-- **The values of a block are finite**, because its command is short.

Of a command in normal form every numeral that a reader takes, however often it is asked, writes a
number below `10 ^ 254`, and the word nearest to it is finite.  So are all numbers that a block
assigns to its fields, whatever the machine, and so is the value that a session reports of a word
without a meaning.

The length is all that this rests on.  Of a longer text a one with 309 noughts or more behind it
is read as an infinity, and a machine does not ask whether the target of a move is finite. -/
theorem command_values_are_finite :
    (∀ raw b, normalize (α := Binary64) raw = .ok b →
      (∀ n w, (WordReader.next ((WordReader.ofText b.command).after Binary64 n)).1 = .word w →
        ∃ t : Spelling, ((WordReader.ofText b.command).after Binary64 n).rest = t.text ++
            (WordReader.next (α := Binary64)
              ((WordReader.ofText b.command).after Binary64 n)).2.rest ∧
          t.word Binary64 = w ∧ |t.numeral.value.toRat| < 10 ^ 254 ∧ w.value.isFinite = true) ∧
      ∀ {σ : Type} [Machine σ Binary64] (m : σ) p, Proposal.ofCommand b.command m = .ok p →
        ∀ field ∈ Field.numbers, ∀ value, p.changes.get field = some value →
          value.isFinite = true) ∧
    (∀ {σ : Type} [Machine σ Binary64] (s : Session σ) raw letter value,
      (s.step raw).2.result = .error (.unsupportedWord letter value) → value.isFinite = true) ∧
    (∀ n, 309 ≤ n →
      (WordReader.next (.ofText ('X' :: '1' :: List.replicate n '0'))).1 =
        .word ⟨'X', Binary64.infinity false⟩) ∧
    ∀ (m : Simulator Binary64) (target target' : PerAxis Binary64),
      (m.perform (.traverse target)).2 = none ∧
      (m.perform (.feed target')).2 = (m.perform (.feed target)).2 ∧
      ∀ offset radius mode, Number.eq radius Number.zero = true →
        (m.perform (.arc target' offset radius mode)).2 =
          (m.perform (.arc target offset radius mode)).2 := by
  have hroom {raw : List Char} {b : NormalBlock} (h : normalize (α := Binary64) raw = .ok b) :
      (WordReader.ofText b.command).rest.length ≤ blockCapacity := length_le_of_normalizeFrom h
  have hleaves {raw : List Char} {b : NormalBlock} (h : normalize (α := Binary64) raw = .ok b)
      {σ : Type} [Machine σ Binary64] (m : σ) :
      LeavesOnly (fun value => value.isFinite = true) (Proposal.ofCommand b.command m) :=
    Proposal.leavesOnly_of_ofCommand (WordReader.readsOnly_isFinite (hroom h)) m
  refine ⟨fun raw b hn => ⟨fun n w hw => ?_, fun m p hp => ?_⟩, fun s raw letter value h => ?_,
    fun n hn => ?_, Simulator.refusal_of_target⟩
  · obtain ⟨t, hrest, rfl, hlength⟩ := WordReader.exists_of_next_after hw
    have hshort := hlength.trans (hroom hn)
    exact ⟨t, hrest, rfl, t.abs_value_lt hshort, t.isFinite_word hshort⟩
  · have hholds := hleaves hn m
    rw [hp] at hholds
    exact hholds
  · obtain ⟨b, hn, hp⟩ := Session.exists_of_unsupportedWord h
    have hfault := hleaves hn (Machine.beginBlock s.machine)
    rw [hp] at hfault
    exact hfault
  · have hnext :=
      (Spelling.powerOfTen n).next_text (α := Binary64) (Numeral.endsBefore_nil _) 0
    rw [List.append_nil, Spelling.word_powerOfTen hn, Spelling.text_powerOfTen] at hnext
    rw [WordReader.ofText, hnext]

/-- A numeral of 254 digits is a command with its letter, and a longer one is not. -/
example : (normalize (α := Binary64) ('X' :: List.replicate 254 '9')).isOk = true ∧
    (normalize (α := Binary64) ('X' :: List.replicate 255 '9')).isOk = false := by
  decide +kernel

end NumericControl
