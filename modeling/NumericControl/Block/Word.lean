import NumericControl.Fault
import NumericControl.Number

/-!
# Words

A block is a sequence of words, each a capital letter with a number behind it.
A reader takes one word after another off a text.  Its cursor counts the bytes it
has taken, so that a fault can be located in the text; a text may hold any
characters, and the cursor stands between two of them.

## Main definitions

* `Word` — a letter and a value.
* `WordReader`, `WordReader.next` — a text that is being read, and one step.
* `WordReader.toEnd` — the steps up to the end of the text or behind the first fault.
* `ReadingRecord` — what a reading leaves behind: the last word and the last fault.

## Main results

* `WordReader.length_rest_lt_of_word` — a word takes up part of the text, so reading
  comes to an end.
-/

namespace NumericControl

/-- A letter and its value, as in `X10.5`. -/
structure Word (α : Type) where
  letter : Char
  value : α
  deriving DecidableEq, Repr

/-- The part of a word's value behind the point. -/
def Word.fraction {α : Type} [Number α] (w : Word α) : α :=
  Number.fraction w.value

/-- A text that is being read. -/
structure WordReader where
  /-- What is still to be read. -/
  rest : List Char
  /-- How many bytes have been read. -/
  cursor : Nat
  deriving DecidableEq, Repr

/-- What a reader finds in one step. -/
inductive ReadStep (α : Type)
  | word (w : Word α)
  | fault (f : BlockFault α)
  | done
  deriving DecidableEq, Repr

namespace WordReader

variable {α : Type} [Number α]

/-- A reader at the beginning of a text. -/
def ofText (s : List Char) : WordReader :=
  ⟨s, 0⟩

/-- Reads one word.  Where no letter stands the reader stays; behind a letter
without a number it stands after the letter.  A word holds ASCII characters only,
so as many bytes are read as characters. -/
def next (r : WordReader) : ReadStep α × WordReader :=
  match r.rest with
  | [] => (.done, r)
  | letter :: tail =>
    if letter.isUpper then
      match Decimal.read? tail with
      | none => (.fault (.badNumber letter (r.cursor + 1)), ⟨tail, r.cursor + 1⟩)
      | some (value, rest) =>
        (.word ⟨letter, Number.ofDecimal value⟩, ⟨rest, r.cursor + (r.rest.length - rest.length)⟩)
    else (.fault (.expectedLetter letter r.cursor), r)

/-- A word takes up part of the text. -/
theorem length_rest_lt_of_word {r : WordReader} {w : Word α} (h : (next r).1 = .word w) :
    (next (α := α) r).2.rest.length < r.rest.length := by
  unfold next at h ⊢
  split at h
  · exact absurd h (by simp)
  · rename_i letter tail hr
    split at h
    · rename_i isLetter
      split at h
      · exact absurd h (by simp)
      · rename_i value rest hv
        have := Decimal.length_lt_of_read? hv
        simp only [hr, isLetter, if_true, List.length_cons]
        omega
    · exact absurd h (by simp)

/-- The steps of a reader up to its end, each with the cursor behind it.  A fault
ends the reading, wherever it stands. -/
def toEnd (r : WordReader) : List (ReadStep α × Nat) :=
  match _h : next (α := α) r with
  | (.word w, r') => (.word w, r'.cursor) :: toEnd r'
  | (.fault f, r') => [(.fault f, r'.cursor), (.done, r'.cursor)]
  | (.done, r') => [(.done, r'.cursor)]
  termination_by r.rest.length
  decreasing_by
    have hlt := length_rest_lt_of_word (r := r) (w := w) (by rw [_h])
    rwa [_h] at hlt

/-- A given number of steps, going on after faults and after the end, each with the
cursor behind it. -/
def steps (r : WordReader) : Nat → List (ReadStep α × Nat)
  | 0 => []
  | n + 1 =>
    let (step, r') := next r
    (step, r'.cursor) :: steps r' n

end WordReader

/-- What a reading leaves behind. -/
structure ReadingRecord (α : Type) where
  /-- The last word, or `none` before the first. -/
  last : Option (Word α)
  /-- The status code of the last fault, or zero. -/
  status : Nat

namespace ReadingRecord

variable {α : Type}

/-- The record before the first step. -/
def empty : ReadingRecord α :=
  ⟨none, 0⟩

/-- The record after one more step. -/
def push (record : ReadingRecord α) : ReadStep α → ReadingRecord α
  | .word w => { record with last := some w }
  | .fault f => { record with status := f.code }
  | .done => record

end ReadingRecord

end NumericControl
