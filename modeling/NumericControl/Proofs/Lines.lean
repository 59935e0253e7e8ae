import NumericControl.Text.Lines

/-!
# Lines of two texts, and of encoded ones

A text that ends with a line feed has its lines whatever follows it.  No character but
the ends of lines themselves is encoded with a byte that could end a line, so it does
not matter whether a text is cut before it is encoded or after.

## Main definitions

* `onHead` — lines with a run put before the first of them.

## Main results

* `splitLines_append` — the lines of two texts, the first ended.
* `splitLines_encodeUtf8` — the lines of an encoded text.
* `inputLines_encodeUtf8` — an encoded text can be read to its end.
-/

namespace NumericControl

/-- Lines with a run put before the first of them. -/
def onHead {α : Type} (run : List α) : List (List α) → List (List α)
  | [] => [run]
  | line :: lines => (run ++ line) :: lines

theorem onHead_append {α : Type} (run run' : List α) (lines : List (List α)) :
    onHead (run ++ run') lines = onHead run (onHead run' lines) := by
  cases lines <;> simp [onHead]

/-! ### Three kinds of heads -/

section Heads

variable {α : Type} [DecidableEq α] {cr lf : α}

theorem splitLines_lf (s : List α) : splitLines cr lf (lf :: s) = [] :: splitLines cr lf s := by
  cases s <;> simp [splitLines]

theorem splitLines_cr_lf (h : cr ≠ lf) (s : List α) :
    splitLines cr lf (cr :: lf :: s) = [] :: splitLines cr lf s := by
  simp [splitLines, h]

/-- What does not end a line belongs to the first of those behind it. -/
theorem splitLines_other {a : α} {s : List α} (hlf : a ≠ lf) (hcr : a = cr → s.head? ≠ some lf) :
    splitLines cr lf (a :: s) = onHead [a] (splitLines cr lf s) := by
  cases s with
  | nil => simp [splitLines, hlf, onHead]
  | cons b rest =>
    have hend : ¬ (a = cr ∧ b = lf) := fun h => hcr h.1 (by rw [h.2]; rfl)
    rw [splitLines, if_neg hlf, if_neg hend]
    cases splitLines cr lf (b :: rest) <;> rfl

/-- A run without line ends belongs to the first line behind it. -/
theorem splitLines_run {run : List α} (hne : run ≠ []) (hrun : ∀ a ∈ run, a ≠ lf ∧ a ≠ cr)
    (s : List α) : splitLines cr lf (run ++ s) = onHead run (splitLines cr lf s) := by
  induction run with
  | nil => exact absurd rfl hne
  | cons a run ih =>
    obtain ⟨half, hacr⟩ := hrun a (by simp)
    rw [List.cons_append, splitLines_other half (fun h => absurd h hacr)]
    cases run with
    | nil => rfl
    | cons b run =>
      rw [ih (by simp) fun c hc => hrun c (by simp [hc])]
      exact (onHead_append [a] (b :: run) _).symm

/-! ### Two texts -/

theorem splitLines_cons_ne_nil (a : α) (s : List α) : splitLines cr lf (a :: s) ≠ [] := by
  cases s with
  | nil =>
    simp only [splitLines]
    split <;> simp
  | cons b s =>
    simp only [splitLines]
    split
    · simp
    · split
      · simp
      · split <;> simp

/-- **The lines of a text that is ended come before those of what follows it.** -/
theorem splitLines_append (h : cr ≠ lf) {first : List α} (rest : List α)
    (hfirst : first = [] ∨ first.getLast? = some lf) :
    splitLines cr lf (first ++ rest) = splitLines cr lf first ++ splitLines cr lf rest := by
  match first with
  | [] => rfl
  | [a] =>
    obtain rfl : a = lf := by simpa using hfirst
    rw [List.singleton_append, splitLines_lf, splitLines_lf]
    rfl
  | a :: b :: s =>
    have hlast : (b :: s).getLast? = some lf := by simpa [List.getLast?_cons_cons] using hfirst
    -- a carriage return takes the line feed behind it along, so two steps are needed
    have ih := splitLines_append h rest (.inr hlast)
    have ih' (hs : s = [] ∨ s.getLast? = some lf) := splitLines_append h rest hs
    by_cases ha : a = lf
    · rw [ha, List.cons_append, splitLines_lf, splitLines_lf, ih, List.cons_append]
    · by_cases hend : a = cr ∧ b = lf
      · obtain ⟨rfl, rfl⟩ := hend
        have hs : s = [] ∨ s.getLast? = some b := by
          cases s with
          | nil => exact .inl rfl
          | cons c s => exact .inr (by simpa [List.getLast?_cons_cons] using hlast)
        rw [List.cons_append, List.cons_append, splitLines_cr_lf h, splitLines_cr_lf h, ih' hs,
          List.cons_append]
      · have hcr (t : List α) (hacr : a = cr) : (b :: t).head? ≠ some lf := by
          intro hb
          exact hend ⟨hacr, Option.some.inj hb⟩
        rw [List.cons_append, List.cons_append, splitLines_other ha (hcr (s ++ rest)),
          ← List.cons_append, ih, splitLines_other ha (hcr s)]
        cases hl : splitLines cr lf (b :: s) with
        | nil => exact absurd hl (splitLines_cons_ne_nil b s)
        | cons line lines => rfl
  termination_by first.length

end Heads

/-! ### Encoded texts -/

theorem utf8EncodeChar_of_lt {c : Char} (h : c.toNat < 128) :
    String.utf8EncodeChar c = [UInt8.ofNat c.toNat] := by
  have hle : c.toNat ≤ 127 := Nat.le_of_lt_succ h
  simp [String.utf8EncodeChar, hle]

theorem utf8Size_of_lt {c : Char} (h : c.toNat < 128) : c.utf8Size = 1 := by
  rw [← String.length_utf8EncodeChar, utf8EncodeChar_of_lt h]
  rfl

/-- A character beyond ASCII is encoded with bytes beyond ASCII. -/
theorem le_of_mem_utf8EncodeChar {c : Char} (h : 128 ≤ c.toNat) {b : UInt8}
    (hb : b ∈ String.utf8EncodeChar c) : 128 ≤ b.toNat := by
  have hbyte (n : Nat) (hge : 128 ≤ n) (hlt : n < 256) : 128 ≤ (UInt8.ofNat n).toNat := by
    rwa [UInt8.toNat_ofNat', Nat.mod_eq_of_lt hlt]
  have hc : ¬ c.val.toNat ≤ 127 := Nat.not_le_of_lt h
  unfold String.utf8EncodeChar at hb
  simp only [hc, if_false] at hb
  split at hb
  -- two, three or four bytes, each with its highest bit
  · simp only [List.mem_cons, List.not_mem_nil, or_false] at hb
    rcases hb with rfl | rfl <;> apply hbyte <;> omega
  · split at hb
    · simp only [List.mem_cons, List.not_mem_nil, or_false] at hb
      rcases hb with rfl | rfl | rfl <;> apply hbyte <;> omega
    · simp only [List.mem_cons, List.not_mem_nil, or_false] at hb
      rcases hb with rfl | rfl | rfl | rfl <;> apply hbyte <;> omega

/-- A byte that could end a line encodes the character that does. -/
theorem eq_of_mem_utf8EncodeChar {c e : Char} (he : e.toNat < 128)
    (h : UInt8.ofNat e.toNat ∈ String.utf8EncodeChar c) : c = e := by
  have hbyte {n : Nat} (hn : n < 128) : (UInt8.ofNat n).toNat = n := by
    rw [UInt8.toNat_ofNat', Nat.mod_eq_of_lt (Nat.lt_trans hn (by decide))]
  rcases Nat.lt_or_ge c.toNat 128 with hc | hc
  · rw [utf8EncodeChar_of_lt hc, List.mem_singleton] at h
    have hnat := congrArg UInt8.toNat h
    rw [hbyte he, hbyte hc] at hnat
    exact (Char.toNat_inj.mp hnat).symm
  · have hle := le_of_mem_utf8EncodeChar hc h
    rw [hbyte he] at hle
    omega

theorem encodeUtf8_cons (c : Char) (s : List Char) :
    encodeUtf8 (c :: s) = String.utf8EncodeChar c ++ encodeUtf8 s :=
  List.flatMap_cons

theorem encodeUtf8_append (s t : List Char) :
    encodeUtf8 (s ++ t) = encodeUtf8 s ++ encodeUtf8 t :=
  List.flatMap_append

@[simp] theorem byteLength_nil : byteLength [] = 0 := rfl

@[simp] theorem byteLength_cons (c : Char) (s : List Char) :
    byteLength (c :: s) = c.utf8Size + byteLength s := by
  rw [byteLength, encodeUtf8_cons, List.length_append, String.length_utf8EncodeChar]
  rfl

theorem byteLength_append (s t : List Char) :
    byteLength (s ++ t) = byteLength s + byteLength t := by
  rw [byteLength, encodeUtf8_append, List.length_append]
  rfl

theorem map_encodeUtf8_onHead (c : Char) (lines : List (List Char)) :
    (onHead [c] lines).map encodeUtf8 =
      onHead (String.utf8EncodeChar c) (lines.map encodeUtf8) := by
  cases lines <;> simp [onHead, encodeUtf8]

/-- An encoded text begins with a line feed only if the text does. -/
theorem head?_eq_of_head?_encodeUtf8 {s : List Char} (h : (encodeUtf8 s).head? = some 10) :
    s.head? = some '\n' := by
  cases s with
  | nil => exact absurd h (by simp [encodeUtf8])
  | cons c s =>
    rw [encodeUtf8_cons] at h
    have hmem : (10 : UInt8) ∈ String.utf8EncodeChar c := by
      cases hc : String.utf8EncodeChar c with
      | nil => exact absurd hc String.utf8EncodeChar_ne_nil
      | cons b bytes =>
        rw [hc, List.cons_append, List.head?_cons] at h
        simp [Option.some.inj h]
    rw [eq_of_mem_utf8EncodeChar (e := '\n') (by decide) hmem, List.head?_cons]

/-- **A text may be cut into lines before it is encoded or after.** -/
theorem splitLines_encodeUtf8 (s : List Char) :
    splitLines 13 10 (encodeUtf8 s) = (textLines s).map encodeUtf8 := by
  have hlf : String.utf8EncodeChar '\n' = [10] := by decide
  have hcr : String.utf8EncodeChar '\r' = [13] := by decide
  match s with
  | [] => rfl
  | c :: s =>
    have ih := splitLines_encodeUtf8 s
    rw [encodeUtf8_cons, textLines]
    by_cases hc : c = '\n'
    · rw [hc, hlf, splitLines_lf, List.singleton_append, splitLines_lf, ih]
      rfl
    by_cases hc' : c = '\r'
    · rw [hc', hcr, List.singleton_append]
      by_cases hs : s.head? = some '\n'
      · -- the two ends of a line go together
        match s with
        | d :: s =>
          obtain rfl : d = '\n' := by simpa using hs
          rw [encodeUtf8_cons, hlf, List.singleton_append, splitLines_cr_lf (by decide),
            splitLines_cr_lf (by decide), splitLines_encodeUtf8 s]
          rfl
      · rw [splitLines_other (by decide) fun _ h => hs (head?_eq_of_head?_encodeUtf8 h),
          splitLines_other (by decide) fun _ => hs, map_encodeUtf8_onHead, hcr, ih]
        rfl
    · have hrun : ∀ b ∈ String.utf8EncodeChar c, b ≠ 10 ∧ b ≠ 13 := by
        intro b hb
        refine ⟨?_, ?_⟩ <;> rintro rfl
        · exact hc (eq_of_mem_utf8EncodeChar (e := '\n') (by decide) hb)
        · exact hc' (eq_of_mem_utf8EncodeChar (e := '\r') (by decide) hb)
      rw [splitLines_run String.utf8EncodeChar_ne_nil hrun,
        splitLines_other hc fun h => absurd h hc', map_encodeUtf8_onHead, ih]
      rfl
  termination_by s.length

/-- What is encoded can be decoded. -/
theorem decodeUtf8?_encodeUtf8 (s : List Char) : decodeUtf8? (encodeUtf8 s) = some s := by
  have hbytes : (⟨(encodeUtf8 s).toArray⟩ : ByteArray) = s.utf8Encode := by
    rw [List.utf8Encode, encodeUtf8, ← List.data_toByteArray]
  rw [decodeUtf8?, hbytes, String.fromUTF8?, dif_pos ByteArray.isValidUTF8_utf8Encode]
  exact congrArg some String.toList_ofList

/-- **An encoded text can be read to its end**, line by line. -/
theorem inputLines_encodeUtf8 (s : List Char) :
    inputLines (encodeUtf8 s) = (textLines s).map .ok := by
  rw [inputLines, splitLines_encodeUtf8, List.map_map]
  congr 1
  funext line
  simp only [Function.comp_apply, InputLine.ofBytes, decodeUtf8?_encodeUtf8]

end NumericControl
