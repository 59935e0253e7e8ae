import NumericControl.Text.Shapeless

/-!
# Quoted paths

A path in a message stands between double quotes.  Double quotes, backslashes and
shapeless characters are written as escapes.

## Main definitions

* `escapePathChar` — what stands for a character.
* `quotePath` — a path between quotes.
-/

namespace NumericControl

/-- A character of a quoted path. -/
def escapePathChar (c : Char) : List Char :=
  if c = '\x00' then ['\\', '0']
  else if c = '\t' then ['\\', 't']
  else if c = '\n' then ['\\', 'n']
  else if c = '\r' then ['\\', 'r']
  else if c = '\\' || c = '\x22' then ['\\', c]
  else if isShapeless c then '\\' :: 'u' :: '\x7b' :: (Nat.toDigits 16 c.toNat ++ ['\x7d'])
  else [c]

/-- A path between quotes. -/
def quotePath (path : List Char) : String :=
  String.ofList ('\x22' :: (path.flatMap escapePathChar ++ ['\x22']))

end NumericControl
