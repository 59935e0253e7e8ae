import NumericControl.Proofs.Grammar
import NumericControl.Proofs.NormalForm

/-!
# Slices of a line

A line is a text, and places in it are counted in bytes.  Whoever takes a part of it by such
places may go wrong: a place can lie beyond the text, or inside a character that takes up several
bytes.  Nothing of this shows where the rest of a line is handed on as it is, so here the command
and the message are taken out of a line once more, now by places only.  A slice that does not
exist ends everything without a result.  That there is always a result, and which, is shown by
comparing the two.

The places that are used are those behind a character that was looked at, with one exception: the
three bytes in which the letters of a message would stand.  They may end inside a character, and
then there is no message; it is only behind the letters that the line is cut there.

## Main definitions

* `splitAtByte?`, `sliceFrom?`, `sliceTo?`, `slice?` — parts of a text by places in it.
* `offsetOf?` — the place of a character.
* `messageBySlices?`, `normalizeBySlices?` — the message of a comment and the normal form of a
  line, taken out by places.

## Main results

* `splitAtByte?_eq_some_iff` — **places of a text are those between its characters**.
* `messageBySlices?_eq`, `normalizeBySlices?_eq` — **no slice of a line is out of place**, and the
  slices make its normal form.
-/

namespace NumericControl

/-! ### Places -/

/-- The two parts of a text at a place in it.  There are none if the place lies beyond the text
or inside a character. -/
def splitAtByte? : List Char → Nat → Option (List Char × List Char)
  | s, 0 => some ([], s)
  | [], _ + 1 => none
  | c :: s, n + 1 =>
    if c.utf8Size ≤ n + 1 then
      (splitAtByte? s (n + 1 - c.utf8Size)).map fun parts => (c :: parts.1, parts.2)
    else none

/-- The part of a text from a place on. -/
def sliceFrom? (s : List Char) (first : Nat) : Option (List Char) :=
  (splitAtByte? s first).map Prod.snd

/-- The part of a text up to a place. -/
def sliceTo? (s : List Char) (last : Nat) : Option (List Char) :=
  (splitAtByte? s last).map Prod.fst

/-- The part of a text from one place up to another. -/
def slice? (s : List Char) (first last : Nat) : Option (List Char) :=
  (sliceTo? s last).bind (sliceFrom? · first)

/-- The place of the first of the characters that are equal to a given one. -/
def offsetOf? (c : Char) : List Char → Option Nat
  | [] => none
  | d :: s => if d = c then some 0 else (offsetOf? c s).map (d.utf8Size + ·)

/-- **The places of a text are those between its characters.** -/
theorem splitAtByte?_eq_some_iff {s front behind : List Char} {n : Nat} :
    splitAtByte? s n = some (front, behind) ↔ s = front ++ behind ∧ byteLength front = n := by
  fun_induction splitAtByte? s n generalizing front with
  | case1 s =>
    constructor
    · intro h
      obtain ⟨rfl, rfl⟩ := Prod.mk.inj (Option.some.inj h)
      exact ⟨rfl, rfl⟩
    · rintro ⟨rfl, hzero⟩
      cases front with
      | nil => rfl
      | cons c front =>
        have hpos := c.utf8Size_pos
        rw [byteLength_cons] at hzero
        omega
  | case2 n =>
    simp only [reduceCtorEq, false_iff, not_and]
    intro h
    obtain ⟨rfl, rfl⟩ := List.append_eq_nil_iff.mp h.symm
    simp
  | case3 c s n hfits ih =>
    constructor
    · intro h
      obtain ⟨⟨front', behind'⟩, hsplit, hparts⟩ := Option.map_eq_some_iff.mp h
      obtain ⟨rfl, rfl⟩ := Prod.mk.inj hparts
      obtain ⟨rfl, hlength⟩ := ih.mp hsplit
      refine ⟨rfl, ?_⟩
      rw [byteLength_cons, hlength]
      omega
    · rintro ⟨hs, hlength⟩
      cases front with
      | nil => exact absurd hlength (by simp)
      | cons d front =>
        obtain ⟨rfl, rfl⟩ := List.cons.inj hs
        rw [byteLength_cons] at hlength
        have hsplit := ih.mpr ⟨rfl, by omega⟩
        rw [hsplit]
        rfl
  | case4 c s n hwide =>
    simp only [reduceCtorEq, false_iff, not_and]
    intro hs hlength
    cases front with
    | nil => exact absurd hlength (by simp)
    | cons d front =>
      obtain ⟨rfl, rfl⟩ := List.cons.inj hs
      rw [byteLength_cons] at hlength
      omega

theorem sliceFrom?_append (front behind : List Char) :
    sliceFrom? (front ++ behind) (byteLength front) = some behind := by
  rw [sliceFrom?, splitAtByte?_eq_some_iff.mpr ⟨rfl, rfl⟩]
  rfl

theorem sliceTo?_append (front behind : List Char) :
    sliceTo? (front ++ behind) (byteLength front) = some front := by
  rw [sliceTo?, splitAtByte?_eq_some_iff.mpr ⟨rfl, rfl⟩]
  rfl

theorem slice?_append (front middle behind : List Char) :
    slice? (front ++ (middle ++ behind)) (byteLength front)
      (byteLength front + byteLength middle) = some middle := by
  rw [slice?, ← List.append_assoc, ← byteLength_append, sliceTo?_append, Option.bind_some,
    sliceFrom?_append]

/-- A character is found where what it ends is over. -/
theorem offsetOf?_eq (c : Char) (s : List Char) :
    offsetOf? c s = if c ∈ s then some (byteLength (s.takeWhile (· != c))) else none := by
  induction s with
  | nil => rfl
  | cons d s ih =>
    rw [offsetOf?]
    by_cases hd : d = c
    · subst hd
      simp
    · rw [if_neg hd, ih, List.takeWhile_cons_of_pos (by simpa using hd)]
      by_cases hmem : c ∈ s
      · rw [if_pos hmem, if_pos (List.mem_cons_of_mem _ hmem), byteLength_cons]
        rfl
      · rw [if_neg hmem, if_neg (by simp [hmem, Ne.symm hd])]
        rfl

/-! ### Messages -/

/-- The message of a comment, taken out by places.  The letters are looked for in the three bytes
at its head, and these need not be a part of the text; everything else has to be. -/
def messageBySlices? (comment : List Char) : Option (Option (List Char)) :=
  match sliceTo? comment 3 with
  | none => some none
  | some letters =>
    if letters.map Char.toUpper = ['M', 'S', 'G'] then
      (sliceFrom? comment 3).bind fun body =>
        match offsetOf? ')' body with
        | none => some (some (trimBlankLeft body))
        | some last => (sliceTo? body last).map fun message => some (trimBlankLeft message)
    else some none

/-- A character takes up one byte if its capital does. -/
theorem utf8Size_of_toUpper {c : Char} (h : c.toUpper.toNat < 128) : c.utf8Size = 1 := by
  have hascii : c.toNat < 128 := by
    by_cases hlower : c.isLower = true
    · have hrange : 'a'.val ≤ c.val ∧ c.val ≤ 'z'.val := by simpa [Char.isLower] using hlower
      have hlast : c.toNat ≤ 122 := hrange.2
      omega
    · rwa [Char.toUpper_eq_of_not_isLower hlower] at h
  exact utf8Size_of_lt hascii

/-- The letters of a message take up three bytes, and no other three characters need to. -/
theorem byteLength_of_letters {letters : List Char}
    (h : letters.map Char.toUpper = ['M', 'S', 'G']) : byteLength letters = 3 := by
  obtain ⟨m, letters, rfl, hm, h⟩ := List.map_eq_cons_iff.mp h
  obtain ⟨s, letters, rfl, hs, h⟩ := List.map_eq_cons_iff.mp h
  obtain ⟨g, letters, rfl, hg, h⟩ := List.map_eq_cons_iff.mp h
  obtain rfl := List.map_eq_nil_iff.mp h
  have hm : m.utf8Size = 1 := utf8Size_of_toUpper (by rw [hm]; decide)
  have hs : s.utf8Size = 1 := utf8Size_of_toUpper (by rw [hs]; decide)
  have hg : g.utf8Size = 1 := utf8Size_of_toUpper (by rw [hg]; decide)
  simp [hm, hs, hg]

/-- **The letters of a message are found in three bytes** where they are found in three
characters, and nowhere else. -/
theorem splitAtByte?_letters {comment letters : List Char}
    (h : letters.map Char.toUpper = ['M', 'S', 'G']) (behind : List Char) :
    splitAtByte? comment 3 = some (letters, behind) ↔
      comment.take 3 = letters ∧ comment.drop 3 = behind := by
  have hthree : letters.length = 3 := by simpa using congrArg List.length h
  rw [splitAtByte?_eq_some_iff]
  constructor
  · rintro ⟨rfl, -⟩
    exact ⟨List.take_left' hthree, List.drop_left' hthree⟩
  · rintro ⟨htake, hdrop⟩
    exact ⟨by rw [← htake, ← hdrop, List.take_append_drop], byteLength_of_letters h⟩

/-- **The message of a comment is cut out where there is one**, and no cut is out of place. -/
theorem messageBySlices?_eq (comment : List Char) :
    messageBySlices? comment = some (message? comment) := by
  rw [messageBySlices?, message?]
  by_cases hletters : (comment.take 3).map Char.toUpper = ['M', 'S', 'G']
  · have hsplit := (splitAtByte?_letters hletters _).mpr ⟨rfl, rfl⟩
    rw [sliceTo?, sliceFrom?, hsplit]
    dsimp only [Option.map_some]
    rw [if_pos hletters, if_pos hletters, Option.bind_some, offsetOf?_eq]
    -- the body ends before a parenthesis, or with the line
    generalize comment.drop 3 = body
    by_cases hparen : ')' ∈ body
    · have hcut := sliceTo?_append (body.takeWhile (· != ')')) (body.dropWhile (· != ')'))
      rw [List.takeWhile_append_dropWhile] at hcut
      rw [if_pos hparen]
      dsimp only
      rw [hcut]
      rfl
    · rw [if_neg hparen, List.takeWhile_eq_self_iff.mpr]
      intro c hc
      simpa using fun h : c = ')' => hparen (h ▸ hc)
  · rw [if_neg hletters]
    split
    · rfl
    · next letters hslice =>
      rw [if_neg]
      intro hhead
      obtain ⟨⟨_, behind⟩, hsplit, rfl⟩ := Option.map_eq_some_iff.mp hslice
      exact hletters (((splitAtByte?_letters hhead behind).mp hsplit).1 ▸ hhead)

/-! ### Normal forms -/

/-- The normal form of the rest of a line, where the rest begins at a place of the line and a
comment is cut out of the whole line. -/
def normalizeBySlicesFrom? {α : Type} (raw : List Char) (place room : Nat) (begun : Bool) :
    List Char → Option (Except (BlockFault α) NormalBlock)
  | [] => some (.ok .empty)
  | c :: rest =>
    match roleOf c.toUpper with
    | .comment =>
      (sliceFrom? raw (place + 1)).bind fun comment =>
        (messageBySlices? comment).map fun message => .ok ⟨[], message⟩
    | .dropped => normalizeBySlicesFrom? raw (place + c.utf8Size) room begun rest
    | .kept =>
      if c.toUpper = '/' && !begun then some (.ok .empty)
      else match room with
        | 0 => some (.error (.tooLong blockCapacity))
        | room + 1 =>
          (normalizeBySlicesFrom? raw (place + c.utf8Size) room true rest).map fun b =>
            b.map fun b => { b with command := c.toUpper :: b.command }

/-- The normal form of a raw line, with the comment and the message cut out by places. -/
def normalizeBySlices? {α : Type} (raw : List Char) : Option (Except (BlockFault α) NormalBlock) :=
  normalizeBySlicesFrom? raw 0 blockCapacity false raw

/-- **From any place of a line on no slice is out of place.** -/
theorem normalizeBySlicesFrom?_eq {α : Type} (front rest : List Char) (room : Nat)
    (begun : Bool) :
    normalizeBySlicesFrom? (α := α) (front ++ rest) (byteLength front) room begun rest =
      some (normalizeFrom room begun rest) := by
  -- what is in front grows by the character that was looked at
  induction rest generalizing front room begun with
  | nil => rfl
  | cons c rest ih =>
    have hline : front ++ c :: rest = (front ++ [c]) ++ rest := by simp
    have hplace : byteLength front + c.utf8Size = byteLength (front ++ [c]) := by
      rw [byteLength_append, byteLength_cons, byteLength_nil, Nat.add_zero]
    unfold normalizeBySlicesFrom? normalizeFrom
    dsimp only
    rw [hline, hplace]
    cases hrole : roleOf c.toUpper with
    | comment =>
      have hparen : c = '(' := by
        refine eq_paren_of_toUpper ?_
        by_contra hne
        rw [roleOf_eq hne] at hrole
        split at hrole <;> exact absurd hrole (by decide)
      have hnext : byteLength front + 1 = byteLength (front ++ [c]) := by
        rw [← hplace, hparen]
        rfl
      dsimp only
      rw [hnext, sliceFrom?_append, Option.bind_some, messageBySlices?_eq]
      rfl
    | dropped => exact ih (front ++ [c]) room begun
    | kept =>
      dsimp only
      split
      · rfl
      · cases room with
        | zero => rfl
        | succ room =>
          dsimp only
          rw [ih (front ++ [c]) room true]
          cases normalizeFrom (α := α) room true rest <;> rfl

/-- **No slice of a line is out of place**, and its normal form is what they make of it. -/
theorem normalizeBySlices?_eq {α : Type} (raw : List Char) :
    normalizeBySlices? (α := α) raw = some (normalize raw) :=
  normalizeBySlicesFrom?_eq [] raw blockCapacity false

/-- The three bytes at the head of a comment may end inside a character, and there is no message
then. -/
example : sliceTo? "Mé msg".toList 3 = some "Mé".toList ∧ sliceTo? "MSé".toList 3 = none ∧
    messageBySlices? "MSé".toList = some none ∧
    messageBySlices? "msG é)x".toList = some (some "é".toList) := by
  decide

end NumericControl
