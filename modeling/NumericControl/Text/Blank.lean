/-!
# White space

The code points with the Unicode property `White_Space`.  There are twenty-five of
them, six within ASCII.

## Main definitions

* `isBlank` — whether a character is white space.
* `trimBlankLeft` — a text without the white space at its head.
-/

namespace NumericControl

/-- The first and last code points of the runs of white space. -/
def blankRuns : List (Nat × Nat) :=
  [(0x9, 0xD), (0x20, 0x20), (0x85, 0x85), (0xA0, 0xA0), (0x1680, 0x1680), (0x2000, 0x200A),
    (0x2028, 0x2029), (0x202F, 0x202F), (0x205F, 0x205F), (0x3000, 0x3000)]

/-- Whether a character is white space. -/
def isBlank (c : Char) : Bool :=
  blankRuns.any fun run => run.1 ≤ c.toNat && c.toNat ≤ run.2

/-- A text without the white space at its head. -/
def trimBlankLeft (s : List Char) : List Char :=
  s.dropWhile isBlank

end NumericControl
