import NumericControl.Binary64.Shortest

/-!
# JSON documents

The state of a machine and its journal are written as JSON.  A document is built
from atoms that are texts already, and laid out on one line or over several.

## Main definitions

* `Json` — a document.
* `Json.compact`, `Json.pretty` — the two layouts.
* `jsonNumber` — how numbers are written.
-/

namespace NumericControl

/-- Numbers in JSON: positional between a hundred-thousandth and ten to the
sixteenth, a whole number with `.0`; a value that is not finite is `null`. -/
def jsonNumber : NumberStyle where
  tie := .toEven
  wholePoint := true
  isPositional e := decide (-5 ≤ e ∧ e < 16)
  nan := "null"
  infinity := "null"
  negativeInfinity := "null"

/-- A JSON document. -/
inductive Json
  /-- A number, a truth value or a quoted text, as it is written. -/
  | atom (text : String)
  | list (items : List Json)
  /-- The fields keep their order. -/
  | object (fields : List (String × Json))

namespace Json

/-- A text without characters that would have to be escaped. -/
def plainText (s : String) : Json :=
  .atom ("\"" ++ s ++ "\"")

/-- A character of a quoted text. -/
def escapeChar (c : Char) : List Char :=
  if c = '\x22' || c = '\\' then ['\\', c]
  else if c = '\n' then ['\\', 'n']
  else if c = '\r' then ['\\', 'r']
  else if c = '\t' then ['\\', 't']
  else if c = '\x08' then ['\\', 'b']
  else if c = '\x0c' then ['\\', 'f']
  else if c.toNat < 0x20 then
    ['\\', 'u', '0', '0'] ++ [(c.toNat / 16).digitChar, (c.toNat % 16).digitChar]
  else [c]

/-- A text. -/
def text (s : String) : Json :=
  plainText (String.ofList (s.toList.flatMap escapeChar))

/-- A truth value. -/
def bool (b : Bool) : Json :=
  .atom (if b then "true" else "false")

/-- A natural number. -/
def nat (n : Nat) : Json :=
  .atom (toString n)

/-- A floating-point number. -/
def number (x : Binary64) : Json :=
  .atom (jsonNumber.render x)

theorem sizeOf_snd_lt {fields : List (String × Json)} {f : String × Json} (h : f ∈ fields) :
    sizeOf f.2 < sizeOf (object fields) := by
  have := List.sizeOf_lt_of_mem h
  cases f
  simp only [Prod.mk.sizeOf_spec, object.sizeOf_spec] at this ⊢
  omega

/-- The document on one line, without blanks. -/
def compact : Json → String
  | .atom text => text
  | .list items => "[" ++ ",".intercalate (items.map compact) ++ "]"
  | .object fields =>
    "\x7b" ++ ",".intercalate (fields.map fun f => "\"" ++ f.1 ++ "\":" ++ compact f.2) ++ "\x7d"
  decreasing_by
    · decreasing_tactic
    · exact sizeOf_snd_lt ‹_›

/-- Encloses lines in a pair of brackets, each on a line of its own and two blanks
farther in than the brackets. -/
def enclose (indent : String) (left right : String) (lines : List String) : String :=
  if lines.isEmpty then left ++ right
  else
    let inner := "\n" ++ indent ++ "  "
    left ++ inner ++ ("," ++ inner).intercalate lines ++ "\n" ++ indent ++ right

/-- The document over several lines, the first of them indented by its surroundings. -/
def prettyFrom (indent : String) : Json → String
  | .atom text => text
  | .list items => enclose indent "[" "]" (items.map (prettyFrom (indent ++ "  ")))
  | .object fields =>
    enclose indent "\x7b" "\x7d"
      (fields.map fun f => "\"" ++ f.1 ++ "\": " ++ prettyFrom (indent ++ "  ") f.2)
  termination_by j => sizeOf j
  decreasing_by
    · decreasing_tactic
    · exact sizeOf_snd_lt ‹_›

/-- The document over several lines. -/
def pretty (j : Json) : String :=
  prettyFrom "" j

end Json

end NumericControl
