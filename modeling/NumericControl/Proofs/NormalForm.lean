import Mathlib
import NumericControl.Proofs.Words

/-!
# What a line normalizes to

A line is put into normal form in one pass.  Character by character it is made a capital,
left out or kept, and three things can end the pass before the line does: a slash that is the
first character kept, a character for which there is no room, and an opening parenthesis.
Here the result is told without a pass, from the line as a whole.  The part before the first
opening parenthesis gives the text that is kept; its head tells whether the line is deleted,
its length whether it is too long; and the comment gives the message.

Behind a closing parenthesis in a comment nothing is looked at any more: a comment that ends
before it holds the letters of a message cannot get them from there.

## Main definitions

* `commandPart`, `comment?` — the two parts of a line.
* `IsLeftOut`, `keptText` — what is left out of a command, and what is kept of a line.
* `HoldsMessage` — a comment holds a message.

## Main results

* `normalizeFrom_eq` — the result of the pass from any place on.
* `message?_eq_some_iff` — the messages that are found.
* `normalize_eq` — **what a line normalizes to**.
-/

namespace NumericControl

/-! ### The parts of a line -/

/-- The part of a line before its first opening parenthesis. -/
def commandPart (raw : List Char) : List Char :=
  raw.takeWhile (· != '(')

/-- The part of a line behind its first opening parenthesis, if there is one. -/
def comment? (raw : List Char) : Option (List Char) :=
  (raw.dropWhile (· != '(')).tail?

/-- A character has no place in a command: blanks and control characters, the delete
character, characters beyond ASCII, and some punctuation. -/
def IsLeftOut (c : Char) : Prop :=
  c.toNat ≤ 0x20 ∨ c.toNat = 0x7F ∨ 0x80 ≤ c.toNat ∨ c ∈ droppedPunctuation

instance (c : Char) : Decidable (IsLeftOut c) :=
  inferInstanceAs (Decidable (_ ∨ _ ∨ _ ∨ _))

/-- What is kept of a line, in capitals. -/
def keptText (raw : List Char) : List Char :=
  ((commandPart raw).map Char.toUpper).filter fun c => ¬ IsLeftOut c

/-- Only a parenthesis becomes one. -/
theorem eq_paren_of_toUpper {c : Char} (h : c.toUpper = '(') : c = '(' := by
  by_cases hlower : c.isLower = true
  · have hcapital : c.toUpper.isUpper = true := by
      rw [Char.isUpper_toUpper_eq_isAlpha, Char.isAlpha, hlower, Bool.or_true]
    rw [h] at hcapital
    exact absurd hcapital (by decide)
  · rwa [Char.toUpper_eq_of_not_isLower hlower] at h

/-! ### What is kept -/

theorem roleOf_eq {c : Char} (hparen : c ≠ '(') :
    roleOf c = if IsLeftOut c then .dropped else .kept := by
  have hbeyond : 0x7F ≤ c.toNat ↔ c.toNat = 0x7F ∨ 0x80 ≤ c.toNat := by omega
  rw [roleOf, if_neg hparen]
  refine ite_congr (propext ?_) (fun _ => rfl) fun _ => rfl
  simp only [Bool.or_eq_true, decide_eq_true_eq, List.contains_iff_mem, IsLeftOut, hbeyond,
    or_assoc]

section Heads

variable {c : Char} (rest : List Char)

theorem keptText_paren : keptText ('(' :: rest) = [] := rfl

theorem comment?_paren : comment? ('(' :: rest) = some rest := rfl

/-- What is not left out stands in front of what is kept of the rest. -/
theorem keptText_cons (hparen : c ≠ '(') :
    keptText (c :: rest) =
      if IsLeftOut c.toUpper then keptText rest else c.toUpper :: keptText rest := by
  rw [keptText, commandPart, List.takeWhile_cons_of_pos (by simpa using hparen), List.map_cons]
  by_cases hout : IsLeftOut c.toUpper
  · rw [List.filter_cons_of_neg (by simpa using hout), if_pos hout]
    rfl
  · rw [List.filter_cons_of_pos (by simpa using hout), if_neg hout]
    rfl

theorem comment?_cons (hparen : c ≠ '(') : comment? (c :: rest) = comment? rest := by
  rw [comment?, List.dropWhile_cons_of_pos (by simpa using hparen)]
  rfl

end Heads

/-! ### The pass -/

/-- **The result of the pass**, from a place where the command has `room` free places and is
`begun` once a character of it was kept. -/
theorem normalizeFrom_eq {α : Type} (room : Nat) (begun : Bool) (raw : List Char) :
    normalizeFrom (α := α) room begun raw =
      if begun = false ∧ (keptText raw).head? = some '/' then .ok .empty
      else if room < (keptText raw).length then .error (.tooLong blockCapacity)
      else .ok ⟨keptText raw, (comment? raw).bind message?⟩ := by
  -- the room and the beginning change from one character to the next
  induction raw generalizing room begun with
  | nil => simp [normalizeFrom, keptText, commandPart, comment?, NormalBlock.empty]
  | cons c raw ih =>
    by_cases hparen : c = '('
    · subst hparen
      simp [normalizeFrom, roleOf, keptText_paren, comment?_paren]
    · have hupper : c.toUpper ≠ '(' := fun h => hparen (eq_paren_of_toUpper h)
      unfold normalizeFrom
      dsimp only
      rw [roleOf_eq hupper, keptText_cons raw hparen, comment?_cons raw hparen]
      by_cases hout : IsLeftOut c.toUpper
      · rw [if_pos hout, if_pos hout]
        exact ih room begun
      · rw [if_neg hout, if_neg hout]
        simp only [List.head?_cons, Option.some.injEq, List.length_cons]
        by_cases hdeleted : begun = false ∧ c.toUpper = '/'
        · rw [if_pos hdeleted, if_pos (by simp [hdeleted])]
        · rw [if_neg hdeleted, if_neg (by simpa [and_comm] using hdeleted)]
          cases room with
          | zero => rw [if_pos (Nat.succ_pos _)]
          | succ room =>
            -- behind a character that is kept a slash is one of the command
            dsimp only
            rw [ih room true, if_neg (by simp)]
            by_cases hlong : room < (keptText raw).length
            · rw [if_pos hlong, if_pos (Nat.succ_lt_succ hlong)]
              rfl
            · rw [if_neg hlong, if_neg (by omega)]
              rfl

/-! ### Messages -/

/-- A comment holds a message: behind the letters `MSG`, in either case, and behind blanks it
stands up to a closing parenthesis or the end of the line. -/
def HoldsMessage (comment message : List Char) : Prop :=
  ∃ letters blanks behind, comment = letters ++ (blanks ++ message ++ behind) ∧
    letters.map Char.toUpper = ['M', 'S', 'G'] ∧
    (∀ c ∈ blanks, isBlank c = true) ∧ (∀ c ∈ message.head?, isBlank c = false) ∧
    ')' ∉ blanks ++ message ∧ ∀ c ∈ behind.head?, c = ')'

/-- **The messages that are found** are those that comments hold. -/
theorem message?_eq_some_iff (comment message : List Char) :
    message? comment = some message ↔ HoldsMessage comment message := by
  rw [message?]
  constructor
  · intro h
    split at h
    · next hletters =>
      have hmessage := Option.some.inj h
      let text := (comment.drop 3).takeWhile (· != ')')
      refine ⟨comment.take 3, text.takeWhile isBlank, (comment.drop 3).dropWhile (· != ')'), ?_,
        hletters, ?_, ?_, ?_, ?_⟩
      · rw [← hmessage, trimBlankLeft, List.takeWhile_append_dropWhile,
          List.takeWhile_append_dropWhile, List.take_append_drop]
      · exact fun c hc => List.all_eq_true.mp List.all_takeWhile c hc
      · intro c hc
        have hhead := List.head?_dropWhile_not isBlank text
        rw [← hmessage] at hc
        rw [show (text.dropWhile isBlank).head? = some c from hc] at hhead
        exact hhead
      · rw [← hmessage, trimBlankLeft, List.takeWhile_append_dropWhile]
        intro hparen
        exact absurd (List.all_eq_true.mp List.all_takeWhile _ hparen) (by decide)
      · intro c hc
        have hhead := List.head?_dropWhile_not (· != ')') (comment.drop 3)
        rw [Option.mem_def.mp hc] at hhead
        simpa using hhead
    · exact absurd h (by simp)
  · rintro ⟨letters, blanks, behind, rfl, hletters, hblanks, hhead, hparen, hbehind⟩
    have hthree : letters.length = 3 := by simpa using congrArg List.length hletters
    have hrun : ∀ c ∈ blanks ++ message, (c != ')') = true := by
      intro c hc
      simpa using fun h : c = ')' => hparen (h ▸ hc)
    have hrest : ∀ c ∈ behind.head?, (c != ')') = false := by
      intro c hc
      simp [hbehind c hc]
    have htext := (span_append (p := (· != ')')) hrun hrest).1
    rw [List.take_left' hthree, List.drop_left' hthree, if_pos hletters, htext, trimBlankLeft,
      (span_append hblanks hhead).2]

/-- What stands in front of a character that ends a run decides the run. -/
theorem takeWhile_append_cons {p : Char → Bool} {c : Char} (hc : p c = false)
    (front behind behind' : List Char) :
    (front ++ c :: behind).takeWhile p = (front ++ c :: behind').takeWhile p := by
  rw [List.takeWhile_append, List.takeWhile_append, List.takeWhile_cons_of_neg (by simp [hc]),
    List.takeWhile_cons_of_neg (by simp [hc])]

/-- A message does not depend on what stands behind a closing parenthesis. -/
theorem message?_append_paren (front behind behind' : List Char) :
    message? (front ++ ')' :: behind) = message? (front ++ ')' :: behind') := by
  rcases Nat.lt_or_ge front.length 3 with hshort | hlong
  · -- the parenthesis is one of the three characters that should be letters
    have hno (t : List Char) : ((front ++ ')' :: t).take 3).map Char.toUpper ≠ ['M', 'S', 'G'] := by
      intro hletters
      obtain ⟨more, hmore⟩ : ∃ more, 3 - front.length = more + 1 := ⟨2 - front.length, by omega⟩
      have hmem : ')' ∈ (front ++ ')' :: t).take 3 := by
        rw [List.take_append, hmore, List.take_succ_cons]
        simp
      have hupper := List.mem_map_of_mem (f := Char.toUpper) hmem
      rw [hletters] at hupper
      exact absurd hupper (by decide)
    rw [message?, if_neg (hno behind), message?, if_neg (hno behind')]
  · rw [message?, message?, List.take_append_of_le_length hlong,
      List.take_append_of_le_length hlong, List.drop_append_of_le_length hlong,
      List.drop_append_of_le_length hlong, takeWhile_append_cons (by decide) _ behind behind']

/-- A comment that is not over yet goes on with what is added to the line. -/
theorem exists_comment?_append (front : List Char) :
    ∃ earlier, ∀ more, comment? (front ++ '(' :: more) = some (earlier ++ more) := by
  induction front with
  | nil => exact ⟨[], fun _ => rfl⟩
  | cons c front ih =>
    by_cases hparen : c = '('
    · subst hparen
      exact ⟨front ++ ['('], fun more => by simp [comment?_paren]⟩
    · obtain ⟨earlier, ih⟩ := ih
      exact ⟨earlier, fun more => by rw [List.cons_append, comment?_cons _ hparen, ih]⟩

/-- **What a line normalizes to.**

If the text that is kept of the line begins with a slash, the line is deleted, and its
comment with it.  Otherwise the line is too long if this text has more characters than a
command may have; and if it has not, it is the command, and the message is the one that the
comment holds.  What stands behind a closing parenthesis of a comment makes no difference. -/
theorem normalize_eq {α : Type} (raw : List Char) :
    normalize (α := α) raw =
      (if (keptText raw).head? = some '/' then .ok .empty
      else if blockCapacity < (keptText raw).length then .error (.tooLong blockCapacity)
      else .ok ⟨keptText raw, (comment? raw).bind message?⟩) ∧
    (∀ message, (comment? raw).bind message? = some message ↔
      ∃ comment, comment? raw = some comment ∧ HoldsMessage comment message) ∧
    ∀ front comment behind behind',
      normalize (α := α) (front ++ '(' :: (comment ++ ')' :: behind)) =
        normalize (front ++ '(' :: (comment ++ ')' :: behind')) := by
  have hline (raw : List Char) := normalizeFrom_eq (α := α) blockCapacity false raw
  simp only [true_and] at hline
  refine ⟨hline raw, fun message => ?_, fun front comment behind behind' => ?_⟩
  · simp only [Option.bind_eq_some_iff, message?_eq_some_iff]
  have hkept : keptText (front ++ '(' :: (comment ++ ')' :: behind)) =
      keptText (front ++ '(' :: (comment ++ ')' :: behind')) := by
    rw [keptText, commandPart, takeWhile_append_cons (by decide)]
    rfl
  obtain ⟨earlier, hcomment⟩ := exists_comment?_append front
  rw [normalize, normalize, hline, hline, hkept, hcomment, hcomment, Option.bind_some,
    Option.bind_some, ← List.append_assoc, ← List.append_assoc, message?_append_paren]

/-- A command is put in capitals, and a message keeps its letters. -/
example : normalize (α := Unit) "g1 x-.5 (msg Tool 3) y2".toList =
    .ok ⟨"G1X-.5".toList, some "Tool 3".toList⟩ := by
  rfl

end NumericControl
