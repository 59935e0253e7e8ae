import NumericControl.Binary64.Arithmetic
import NumericControl.Proofs.Lines
import NumericControl.Proofs.NormalForm
import NumericControl.Proofs.RunAccount

/-!
# Layout does not matter

A line may be laid out in many ways: in small letters or in capitals, with blanks anywhere,
also within a number or before the slash of a deleted block, and with a carriage return before
its line feed.  Only a comment is read as it stands.  Here it is shown that a run does the same
whatever the layout of its program.

Two layouts of a line keep the same text and have the same comment, and a line is normalized
from these two alone.  So what follows a normal form agrees as well, the places of faults too:
they are counted in the command and not in the line.  The raw line itself is kept in one place
only, with the failure that is noted for it.

## Main definitions

* `SameLayout` — two lines differ in their layout alone.
* `Run.withoutLines` — a run without the raw lines of its failures.
* `LineEnd`, `endedText` — lines with ends of either kind.
* `Run.asked` — what a run asks of its machine.

## Main results

* `SameLayout.iff_parts` — the layouts of a line are the lines with the same two parts.
* `SameLayout.normal_eq` — they have the same normal form.
* `Run.toEnd_of_sameLayout` — lines in different layouts do the same in a run.
* `textLines_endedText` — the ends of lines are not part of them.
* `Run.layout_irrelevant` — **a run does not depend on the layout of its program**.
-/

namespace NumericControl

/-! ### Layouts of a line -/

/-- Two lines differ in their layout alone: before the first opening parenthesis they are the
same up to the case of letters and up to characters that have no place in a command. -/
inductive SameLayout : List Char → List Char → Prop
  | nil : SameLayout [] []
  /-- A comment is the same in both lines. -/
  | comment (rest : List Char) : SameLayout ('(' :: rest) ('(' :: rest)
  /-- A character that may be a small letter in one line and its capital in the other. -/
  | char {c c' : Char} {line line' : List Char} : c ≠ '(' → c'.toUpper = c.toUpper →
      SameLayout line line' → SameLayout (c :: line) (c' :: line')
  | less {c : Char} {line line' : List Char} : IsLeftOut c →
      SameLayout line line' → SameLayout (c :: line) line'
  | more {c : Char} {line line' : List Char} : IsLeftOut c →
      SameLayout line line' → SameLayout line (c :: line')

/-- Letters are not left out. -/
theorem not_isLeftOut_of_isAlpha {c : Char} (h : c.isAlpha = true) : ¬ IsLeftOut c := by
  have hcode : 65 ≤ c.toNat ∧ c.toNat ≤ 90 ∨ 97 ≤ c.toNat ∧ c.toNat ≤ 122 := by
    simpa [Char.isAlpha, Char.isUpper, Char.isLower, UInt32.le_iff_toNat_le, ← Char.toNat_val]
      using h
  rintro (hcontrol | hdelete | hbeyond | hmem)
  · omega
  · omega
  · omega
  · have hcodes : ∀ n ∈ droppedPunctuation.map Char.toNat,
        ¬ (65 ≤ n ∧ n ≤ 90 ∨ 97 ≤ n ∧ n ≤ 122) := by decide
    exact hcodes c.toNat (List.mem_map_of_mem hmem) hcode

/-- A character is left out if its capital is. -/
theorem isLeftOut_toUpper_iff {c : Char} : IsLeftOut c.toUpper ↔ IsLeftOut c := by
  by_cases hletter : c.isAlpha = true
  · have hcapital : c.toUpper.isAlpha = true :=
      (Char.isAlpha_toUpper_eq_isAlpha c).trans hletter
    exact iff_of_false (not_isLeftOut_of_isAlpha hcapital) (not_isLeftOut_of_isAlpha hletter)
  · have hlower : ¬ c.isLower = true := fun h => hletter (by rw [Char.isAlpha, h, Bool.or_true])
    rw [Char.toUpper_eq_of_not_isLower hlower]

/-- The capital of a character tells whether it begins a comment. -/
theorem ne_paren_of_toUpper_eq {c c' : Char} (h : c'.toUpper = c.toUpper) (hparen : c ≠ '(') :
    c' ≠ '(' := by
  rintro rfl
  exact hparen (eq_paren_of_toUpper h.symm)

section Heads

variable {c : Char} (line : List Char)

/-- A character that is left out counts neither to the text nor to the comment. -/
theorem parts_of_isLeftOut (h : IsLeftOut c) :
    keptText (c :: line) = keptText line ∧ comment? (c :: line) = comment? line := by
  have hparen : c ≠ '(' := by
    rintro rfl
    exact absurd h (by decide)
  rw [keptText_cons line hparen, if_pos (isLeftOut_toUpper_iff.mpr h)]
  exact ⟨rfl, comment?_cons line hparen⟩

/-- What is not left out before the comment counts to the text. -/
theorem parts_of_not_isLeftOut (h : ¬ IsLeftOut c) (hparen : c ≠ '(') :
    keptText (c :: line) = c.toUpper :: keptText line ∧
      comment? (c :: line) = comment? line := by
  rw [keptText_cons line hparen, if_neg (isLeftOut_toUpper_iff.not.mpr h)]
  exact ⟨rfl, comment?_cons line hparen⟩

end Heads

namespace SameLayout

variable {line line' : List Char}

theorem symm (h : SameLayout line line') : SameLayout line' line := by
  induction h with
  | nil => exact .nil
  | comment rest => exact .comment rest
  | @char c c' line line' hparen hupper _ ih =>
    exact .char (ne_paren_of_toUpper_eq hupper hparen) hupper.symm ih
  | less hout _ ih => exact .more hout ih
  | more hout _ ih => exact .less hout ih

/-- Layouts of a line keep the same text and have the same comment. -/
theorem parts_eq (h : SameLayout line line') :
    keptText line' = keptText line ∧ comment? line' = comment? line := by
  induction h with
  | nil => exact ⟨rfl, rfl⟩
  | comment rest => exact ⟨rfl, rfl⟩
  | @char c c' line line' hparen hupper _ ih =>
    have hparen' := ne_paren_of_toUpper_eq hupper hparen
    rw [keptText_cons line hparen, keptText_cons line' hparen', comment?_cons line hparen,
      comment?_cons line' hparen', hupper, ih.1, ih.2]
    exact ⟨rfl, rfl⟩
  | @less c line line' hout _ ih =>
    obtain ⟨hkept, hcomment⟩ := parts_of_isLeftOut line hout
    exact ⟨ih.1.trans hkept.symm, ih.2.trans hcomment.symm⟩
  | @more c line line' hout _ ih =>
    obtain ⟨hkept, hcomment⟩ := parts_of_isLeftOut line' hout
    exact ⟨hkept.trans ih.1, hcomment.trans ih.2⟩

/-- A line of which nothing is kept is a layout of the empty one. -/
theorem of_parts_nil (hkept : keptText line = []) (hcomment : comment? line = none) :
    SameLayout line [] := by
  induction line with
  | nil => exact .nil
  | cons c line ih =>
    by_cases hparen : c = '('
    · exact absurd hcomment (by simp [hparen, comment?_paren])
    by_cases hout : IsLeftOut c
    · obtain ⟨hk, hc⟩ := parts_of_isLeftOut line hout
      exact .less hout (ih (hk ▸ hkept) (hc ▸ hcomment))
    · rw [(parts_of_not_isLeftOut line hout hparen).1] at hkept
      exact absurd hkept (by simp)

/-- Lines that keep the same text and have the same comment are layouts of each other. -/
theorem of_parts (line line' : List Char) (hkept : keptText line' = keptText line)
    (hcomment : comment? line' = comment? line) : SameLayout line line' := by
  match line, line' with
  | [], line' => exact (of_parts_nil hkept hcomment).symm
  | line, [] => exact of_parts_nil hkept.symm hcomment.symm
  | c :: line, c' :: line' =>
    by_cases hout : IsLeftOut c
    · obtain ⟨hk, hc⟩ := parts_of_isLeftOut line hout
      exact .less hout (of_parts line (c' :: line') (hk ▸ hkept) (hc ▸ hcomment))
    by_cases hout' : IsLeftOut c'
    · obtain ⟨hk, hc⟩ := parts_of_isLeftOut line' hout'
      exact .more hout' (of_parts (c :: line) line' (hk ▸ hkept) (hc ▸ hcomment))
    by_cases hparen : c = '('
    · by_cases hparen' : c' = '('
      · subst hparen hparen'
        obtain rfl : line' = line := Option.some.inj hcomment
        exact .comment line'
      · rw [hparen, (parts_of_not_isLeftOut line' hout' hparen').1] at hkept
        exact absurd hkept (by simp [keptText_paren])
    · obtain ⟨hk, hc⟩ := parts_of_not_isLeftOut line hout hparen
      by_cases hparen' : c' = '('
      · rw [hparen', hk] at hkept
        exact absurd hkept (by simp [keptText_paren])
      · obtain ⟨hk', hc'⟩ := parts_of_not_isLeftOut line' hout' hparen'
        rw [hk, hk', List.cons.injEq] at hkept
        rw [hc, hc'] at hcomment
        exact .char hparen hkept.1 (of_parts line line' hkept.2 hcomment)
  termination_by line.length + line'.length

/-- **Layouts of a line** are the lines that keep the same text and have the same comment. -/
theorem iff_parts :
    SameLayout line line' ↔ keptText line' = keptText line ∧ comment? line' = comment? line :=
  ⟨parts_eq, fun h => of_parts line line' h.1 h.2⟩

instance : DecidableRel SameLayout := fun _ _ => decidable_of_iff _ iff_parts.symm

variable {σ α : Type}

/-- **Layouts of a line have the same normal form.** -/
theorem normal_eq (h : SameLayout line line') :
    normalize (α := α) line' = normalize line := by
  obtain ⟨hkept, hcomment⟩ := h.parts_eq
  rw [normalize, normalize, normalizeFrom_eq, normalizeFrom_eq, hkept, hcomment]

/-- Layouts of a line do the same in a session. -/
theorem step_eq [Number α] [Machine σ α] (h : SameLayout line line') (s : Session σ) :
    s.step (α := α) line' = s.step line := by
  rw [Session.step, Session.step, h.normal_eq]

end SameLayout

/-! ### Runs -/

/-- A failure without the raw line. -/
def Failure.withoutLine {α : Type} (f : Failure α) : Failure α :=
  { f with line := [] }

/-- What is known of a run, without the raw lines of its failures. -/
def Summary.withoutLines {α : Type} (summary : Summary α) : Summary α :=
  { summary with failures := summary.failures.map Failure.withoutLine }

namespace Run

variable {σ α : Type}

/-- A run without the raw lines of its failures. -/
def withoutLines (r : Run σ α) : Run σ α :=
  { r with summary := r.summary.withoutLines }

/-- The raw line is noted with a failure, and nothing else depends on it. -/
theorem withoutLines_noted (summary : Summary α) (line : List Char)
    (flow : Option ProgramFlow) (result : Except (BlockFault α) Completion) :
    (noted summary line flow result).withoutLines =
      noted summary.withoutLines [] flow result := by
  rcases result with fault | (_ | _)
  · simp [noted, Summary.withoutLines, Failure.withoutLine]
  · simp [noted, Summary.withoutLines]
  · simp [noted, Summary.withoutLines]

variable [Number α] [Machine σ α]

/-- **A step in either layout leaves the same**, but for the raw lines. -/
theorem withoutLines_step {r r' : Run σ α} {line line' : List Char}
    (h : r'.withoutLines = r.withoutLines) (hline : SameLayout line line') :
    (r'.step line').withoutLines = (r.step line).withoutLines := by
  have hsession : r'.session = r.session := (congrArg session h :)
  have hmessages : r'.messages = r.messages := (congrArg messages h :)
  have hsummary : r'.summary.withoutLines = r.summary.withoutLines :=
    (congrArg summary h :)
  rw [step_eq, step_eq, hsession, hmessages, hline.step_eq]
  simp only [withoutLines, withoutLines_noted, hsummary]

/-- **Lines in different layouts do the same in a run.** -/
theorem toEnd_of_sameLayout {r r' : Run σ α} {lines lines' : List (List Char)}
    (h : r'.withoutLines = r.withoutLines) (hlines : List.Forall₂ SameLayout lines lines') :
    (r'.toEnd (lines'.map .ok)).1.withoutLines = (r.toEnd (lines.map .ok)).1.withoutLines := by
  have hinput : List.Forall₂ (InputLine.Corresponds SameLayout) (lines.map .ok) (lines'.map .ok) :=
    List.forall₂_map_left_iff.mpr (List.forall₂_map_right_iff.mpr (hlines.imp fun _ _ => .line))
  refine (toEnd_inStep (R := fun r r' => r'.withoutLines = r.withoutLines) withoutLines_step ?_ h
    hinput).1
  intro r r' h
  exact (congrArg (·.summary.stop) h.symm :)

end Run

/-! ### Ends of lines -/

/-- What may end a line. -/
inductive LineEnd
  | lf
  | crLf
  deriving DecidableEq, Repr

/-- The characters that end a line. -/
def LineEnd.text : LineEnd → List Char
  | .lf => ['\n']
  | .crLf => ['\r', '\n']

/-- Lines with their ends, one after another. -/
def endedText (lines : List (List Char × LineEnd)) : List Char :=
  lines.flatMap fun line => line.1 ++ line.2.text

/-- A line holds no line feed, and no carriage return that would belong to its end. -/
structure IsLine (line : List Char) : Prop where
  not_mem : '\n' ∉ line
  getLast?_ne : line.getLast? ≠ some '\r'

theorem IsLine.tail {c : Char} {line : List Char} (h : IsLine (c :: line)) : IsLine line where
  not_mem hmem := h.not_mem (List.mem_cons_of_mem c hmem)
  getLast?_ne hlast := h.getLast?_ne (by rw [List.getLast?_cons, hlast]; rfl)

/-- A line with an end of either kind stands before the lines of the rest. -/
theorem textLines_line {line : List Char} (h : IsLine line) (ending : LineEnd)
    (rest : List Char) :
    textLines (line ++ (ending.text ++ rest)) = line :: textLines rest := by
  induction line with
  | nil =>
    cases ending with
    | lf => exact splitLines_lf rest
    | crLf => exact splitLines_cr_lf (by decide) rest
  | cons c line ih =>
    have hlf : c ≠ '\n' := fun hc => h.not_mem (hc ▸ List.mem_cons_self)
    -- a carriage return is not the last character of the line, so no line feed follows it
    have hcr : c = '\r' → (line ++ (ending.text ++ rest)).head? ≠ some '\n' := by
      rintro rfl
      cases line with
      | nil => exact absurd rfl h.getLast?_ne
      | cons d line =>
        intro hd
        obtain rfl : d = '\n' := Option.some.inj hd
        exact h.not_mem (by simp)
    rw [textLines, List.cons_append, splitLines_other hlf hcr]
    change onHead [c] (textLines _) = _
    rw [ih h.tail]
    rfl

/-- **The ends of lines are not part of them**: which of the two kinds they are, and whether
the last line has one, makes no difference. -/
theorem textLines_endedText {lines : List (List Char × LineEnd)}
    (h : ∀ line ∈ lines, IsLine line.1) (rest : List Char) :
    textLines (endedText lines ++ rest) = lines.map Prod.fst ++ textLines rest := by
  induction lines with
  | nil => rfl
  | cons line lines ih =>
    rw [endedText, List.flatMap_cons, List.append_assoc, List.append_assoc,
      textLines_line (h line (by simp)), ← endedText, ih fun line hline => h line (by simp [hline])]
    rfl

namespace Run

variable {σ α : Type} [Number α] [Machine σ α]

/-- The run of a text in a session. -/
theorem ofBytes_encodeUtf8 (s : Session σ) (program : List Char) :
    ofBytes (α := α) s (encodeUtf8 program) =
      toEnd { session := s } ((textLines program).map .ok) := by
  rw [ofBytes, inputLines_encodeUtf8]

/-- What a run asks of its machine, in order. -/
def asked (s : Session σ) (program : List UInt8) : List (Request α) :=
  (ofBytes (α := α) (s.withRecord []) program).1.session.machine.requests

/-- Programs whose lines are in different layouts do the same, but for the raw lines. -/
theorem withoutLines_ofBytes (s : Session σ) {program program' : List Char}
    (h : List.Forall₂ SameLayout (textLines program) (textLines program')) :
    (ofBytes (α := α) s (encodeUtf8 program')).1.withoutLines =
      (ofBytes s (encodeUtf8 program)).1.withoutLines := by
  rw [ofBytes_encodeUtf8, ofBytes_encodeUtf8]
  exact toEnd_of_sameLayout rfl h

/-- **A run does not depend on the layout of its program.**

Two programs have as many lines, and each line of the one differs from that of the other in its
layout alone.  Then both are read to the end, or to where both are stopped; they ask the same of
the machine, one call after another, and they leave the same session, the same messages, the
same counts, the same reason for a stop and the same failures, but for the raw lines that are
noted with these.  Whether its lines end with a line feed or with a carriage return and a line
feed makes no difference at all to a program. -/
theorem layout_irrelevant (s : Session σ) {program program' : List Char}
    (h : List.Forall₂ SameLayout (textLines program) (textLines program')) :
    (ofBytes (α := α) s (encodeUtf8 program)).2 = none ∧
      (ofBytes (α := α) s (encodeUtf8 program')).2 = none ∧
      (ofBytes (α := α) s (encodeUtf8 program')).1.withoutLines =
        (ofBytes s (encodeUtf8 program)).1.withoutLines ∧
      asked (α := α) s (encodeUtf8 program') = asked s (encodeUtf8 program) ∧
      ∀ (lines : List (List Char × LineEnd)) (rest : List Char),
        (∀ line ∈ lines, IsLine line.1) →
        ofBytes (α := α) s (encodeUtf8 (endedText lines ++ rest)) =
          ofBytes s (encodeUtf8 (endedText (lines.map fun line => (line.1, .lf)) ++ rest)) := by
  have hread (program : List Char) : (ofBytes (α := α) s (encodeUtf8 program)).2 = none := by
    rw [ofBytes_encodeUtf8]
    exact snd_toEnd_map_ok _ _
  refine ⟨hread program, hread program', withoutLines_ofBytes s h, ?_, fun lines rest hlines => ?_⟩
  · have hrecord := withoutLines_ofBytes (s.withRecord ([] : List (Request α))) h
    exact (congrArg (·.session.machine.requests) hrecord :)
  · have hlf : ∀ line ∈ lines.map fun line => (line.1, LineEnd.lf), IsLine line.1 := by
      intro line hline
      obtain ⟨ended, hended, rfl⟩ := List.mem_map.mp hline
      exact hlines ended hended
    rw [ofBytes_encodeUtf8, ofBytes_encodeUtf8, textLines_endedText hlines, textLines_endedText hlf,
      List.map_map]
    rfl

/-- A move with a message, a deleted block and a line that fails, in two layouts; the raw line
that is noted with the failure tells which of them it was. -/
theorem layout_irrelevant_of_spaced :
    let s := Session.ofMachine (Simulator.ofState .standard (.initial : State Binary64))
    let program := "G1X-.5F9(msg Hi)\n/G0X9\nG500".toList
    let program' := " g 1\tx - . 5 é f9;(msg Hi)\r\n / g0x9\r\n\u200Bg5 00 ".toList
    (ofBytes s (encodeUtf8 program')).1.withoutLines =
        (ofBytes s (encodeUtf8 program)).1.withoutLines ∧
      asked s (encodeUtf8 program') = asked s (encodeUtf8 program) ∧
      (asked s (encodeUtf8 program)).length = 4 ∧
      (ofBytes s (encodeUtf8 program')).1.summary ≠ (ofBytes s (encodeUtf8 program)).1.summary := by
  intro s program program'
  obtain ⟨-, -, hrun, hasked, -⟩ :=
    layout_irrelevant s (show List.Forall₂ SameLayout (textLines program) (textLines program') by
      decide +kernel)
  exact ⟨hrun, hasked, by decide +kernel, by decide +kernel⟩

end Run

end NumericControl
