import Mathlib.Data.List.Perm.Basic
import NumericControl.Proofs.ExactNumber
import NumericControl.Proofs.Journal
import NumericControl.Proofs.LineWords
import NumericControl.Proofs.Spelling

/-!
# The order of the words of a line

Two words that assign no common field may change places: their assignments, made in either
order, are the same.  Two words that assign a common field *conflict*, and the later one
counts.  So what the words of a line make of a proposal does not depend on their order, as
long as of every two words that conflict the same one stays in front.  The proposal is all
that a line takes from its command, and what happens to the machine and to the session
follows from it.

A list in another order is told by numbers: each member carries its place in the first list,
and of two that conflict the lower number comes first.

## Main definitions

* `Word.conflicts` — two words assign a common field.
* `Reorders` — a list is another one in an order that keeps what conflicts in its order.

## Main results

* `Reorders.foldl_eq` — a run over a list does not depend on the order of what does not
  conflict.
* `Word.over_comm` — words that do not conflict assign the same in either order.
* `Session.step_of_reordered` — **the order of words matters between conflicting words only.**
-/

namespace NumericControl

/-! ### Lists in another order -/

/-- A list is another one in an order that keeps what conflicts in its order. -/
def Reorders {β : Type} (conflicts : β → β → Bool) (xs ys : List β) : Prop :=
  ∃ numbered : List (β × ℕ), numbered.Perm xs.zipIdx ∧ numbered.map Prod.fst = ys ∧
    numbered.Pairwise fun a b => conflicts a.1 b.1 = true → a.2 < b.2

namespace Reorders

variable {β γ : Type} {conflicts : β → β → Bool} {xs ys : List β}

theorem perm (h : Reorders conflicts xs ys) : ys.Perm xs := by
  obtain ⟨numbered, hperm, rfl, -⟩ := h
  simpa using hperm.map Prod.fst

/-- The places in a list increase along it. -/
theorem pairwise_zipIdx (xs : List β) : xs.zipIdx.Pairwise fun a b => a.2 < b.2 := by
  have hplaces : (xs.zipIdx.map Prod.snd).Pairwise (· < ·) := by
    rw [List.zipIdx_map_snd]
    exact List.pairwise_lt_range'
  exact List.pairwise_map.mp hplaces

/-- A step that can change places with all steps before it can be taken first. -/
theorem foldl_step_comm {f : γ → β → γ} {first : List β} {x : β}
    (h : ∀ y ∈ first, ∀ c, f (f c y) x = f (f c x) y) (c : γ) :
    f (first.foldl f c) x = first.foldl f (f c x) := by
  induction first generalizing c with
  | nil => rfl
  | cons y first ih =>
    obtain ⟨hy, hfirst⟩ := List.forall_mem_cons.mp h
    rw [List.foldl_cons, List.foldl_cons, ih hfirst, hy]

/-- **A run does not depend on the order** of steps that can change places, if the steps that
conflict are taken in the order of their numbers. -/
theorem foldl_numbered {f : γ → β → γ}
    (hcomm : ∀ x y c, conflicts x y = false → f (f c x) y = f (f c y) x)
    {numbered sorted : List (β × ℕ)} (hsorted : sorted.Pairwise fun a b => a.2 < b.2)
    (hperm : numbered.Perm sorted)
    (horder : numbered.Pairwise fun a b => conflicts a.1 b.1 = true → a.2 < b.2) (c : γ) :
    (numbered.map Prod.fst).foldl f c = (sorted.map Prod.fst).foldl f c := by
  induction numbered generalizing sorted c with
  | nil => rw [List.nil_perm.mp hperm]
  | cons a numbered ih =>
    -- what stands before the first step in the sorted list has a lower number than it has
    obtain ⟨first, last, rfl⟩ := List.append_of_mem (hperm.subset List.mem_cons_self)
    obtain ⟨hfirst, horder⟩ := List.pairwise_cons.mp horder
    have hperm' : numbered.Perm (first ++ last) := (hperm.trans List.perm_middle).cons_inv
    obtain ⟨-, -, hlower⟩ := List.pairwise_append.mp hsorted
    have hpast : ∀ x ∈ first.map Prod.fst, ∀ c, f (f c x) a.1 = f (f c a.1) x := by
      intro x hx c
      obtain ⟨b, hb, rfl⟩ := List.mem_map.mp hx
      have hlt : b.2 < a.2 := hlower b hb a List.mem_cons_self
      have hbehind : b ∈ numbered := hperm'.mem_iff.mpr (List.mem_append_left _ hb)
      cases hconflict : conflicts a.1 b.1 with
      | false => exact (hcomm a.1 b.1 c hconflict).symm
      | true => exact absurd (hfirst b hbehind hconflict) (by omega)
    have hsorted' : (first ++ last).Pairwise fun a b => a.2 < b.2 :=
      hsorted.sublist ((List.sublist_cons_self a last).append_left first)
    rw [List.map_cons, List.foldl_cons, ih hsorted' hperm' horder, List.map_append,
      List.map_append, List.foldl_append, List.foldl_append, List.map_cons, List.foldl_cons,
      foldl_step_comm hpast]

/-- A run over a list in another order ends as the run over the list. -/
theorem foldl_eq {f : γ → β → γ}
    (hcomm : ∀ x y c, conflicts x y = false → f (f c x) y = f (f c y) x)
    (h : Reorders conflicts xs ys) (c : γ) : ys.foldl f c = xs.foldl f c := by
  obtain ⟨numbered, hperm, rfl, horder⟩ := h
  rw [foldl_numbered hcomm (pairwise_zipIdx xs) hperm horder, List.zipIdx_map_fst]

end Reorders

/-! ### Words that conflict -/

/-- The letters of which a later word replaces the value of an earlier one. -/
def valueLetters : List Char :=
  ['T', 'F', 'P', 'S', 'X', 'Y', 'Z', 'I', 'J', 'K', 'R']

/-- The G codes that assign a common field: the operation, the motion mode, the plane, the
units, the distance mode, the feed mode. -/
def gGroups : List (List Int) :=
  [[0, 1, 2, 3, 4, 28, 30, 92], [0, 1, 2, 3, 80], [17, 18, 19], [20, 21], [90, 91], [93, 94]]

/-- The M codes that assign a common field: what is asked of the program, and the spindle. -/
def mGroups : List (List Int) :=
  [[0, 1, 2, 30, 60], [3, 4, 5]]

/-- Whether there are two codes, and a group that holds both. -/
def sharesGroup (groups : List (List Int)) (code code' : Option Int) : Bool :=
  groups.any fun group => code.any group.contains && code'.any group.contains

theorem or_comm_of_agree {β : Type} {a b : Option β}
    (h : ∀ x y, a = some x → b = some y → x = y) : a.or b = b.or a := by
  cases a with
  | none => cases b <;> rfl
  | some x =>
    cases b with
    | none => rfl
    | some y => rw [h x y rfl rfl]

/-- What two codes of no common group say can be said in either order, if only the codes of
one group say anything. -/
theorem bind_or_comm {groups : List (List Int)} {code code' : Option Int}
    (h : sharesGroup groups code code' = false) {group : List Int} (hgroup : group ∈ groups)
    {β : Type} {say : Int → Option β} (hsay : ∀ n, n ∉ group → say n = none) :
    (code.bind say).or (code'.bind say) = (code'.bind say).or (code.bind say) := by
  have hmem : ∀ n x, say n = some x → n ∈ group := by
    intro n x hx
    by_contra hn
    exact absurd (hx.symm.trans (hsay n hn)) (by simp)
  refine or_comm_of_agree fun x y hx hy => ?_
  obtain ⟨n, rfl, hx⟩ := Option.bind_eq_some_iff.mp hx
  obtain ⟨n', rfl, hy⟩ := Option.bind_eq_some_iff.mp hy
  have hshares : sharesGroup groups (some n) (some n') = true :=
    List.any_eq_true.mpr ⟨group, hgroup, by simp [hmem n x hx, hmem n' y hy]⟩
  exact absurd (hshares.symm.trans h) (by simp)

/-- What two codes say of a flag they say in either order. -/
theorem bind_flag_or_comm (flag : Int) (code code' : Option Int) :
    (code.bind (flagOfCode? flag)).or (code'.bind (flagOfCode? flag)) =
      (code'.bind (flagOfCode? flag)).or (code.bind (flagOfCode? flag)) := by
  have htrue : ∀ (code : Option Int) b, code.bind (flagOfCode? flag) = some b → b = true := by
    intro code b hb
    obtain ⟨n, -, hn⟩ := Option.bind_eq_some_iff.mp hb
    obtain ⟨-, hb⟩ := Option.ite_none_right_eq_some.mp hn
    exact (Option.some.inj hb).symm
  exact or_comm_of_agree fun x y hx hy => (htrue _ x hx).trans (htrue _ y hy).symm

namespace Word

variable {α : Type} [Number α]

/-- Whether two words assign a common field. -/
def conflicts (w w' : Word α) : Bool :=
  w.letter == w'.letter && valueLetters.contains w.letter ||
    sharesGroup gGroups w.gCode? w'.gCode? || sharesGroup mGroups w.mCode? w'.mCode?

variable {w w' : Word α}

/-- Words that do not conflict give their values in either order. -/
theorem value?_or_comm (h : w.conflicts w' = false) {letter : Char}
    (hletter : letter ∈ valueLetters) :
    (w.value? letter).or (w'.value? letter) = (w'.value? letter).or (w.value? letter) := by
  refine or_comm_of_agree fun x y hx hy => ?_
  obtain ⟨hw, -⟩ := Option.ite_none_right_eq_some.mp hx
  obtain ⟨hw', -⟩ := Option.ite_none_right_eq_some.mp hy
  have hconflict : w.conflicts w' = true := by
    simp [conflicts, hw, hw', hletter]
  exact absurd (hconflict.symm.trans h) (by simp)

/-- **Words that do not conflict assign the same in either order.** -/
theorem over_comm (h : w.conflicts w' = false) :
    w.changes.over w'.changes = w'.changes.over w.changes := by
  have hgroups := h
  simp only [conflicts, Bool.or_eq_false_iff] at hgroups
  obtain ⟨⟨-, hg⟩, hm⟩ := hgroups
  simp only [Changes.over, changes, Changes.mk.injEq]
  refine ⟨?nextAction, ?motionMode, ?target, ?offset, ?radius, ?feedRate, ?dwellTime,
    ?spindleSpeed, ?spindleMode, ?tool, bind_flag_or_comm 6 _ _, ?plane, ?units, ?distanceMode,
    ?inverseFeedRate, bind_flag_or_comm 53 _ _, bind_flag_or_comm 92 _ _, ?programFlow⟩
  case nextAction =>
    refine bind_or_comm hg (show [0, 1, 2, 3, 4, 28, 30, 92] ∈ gGroups by simp [gGroups]) fun n hn => ?_
    simp_all [NextAction.ofCode?]
  case motionMode =>
    refine bind_or_comm hg (show [0, 1, 2, 3, 80] ∈ gGroups by simp [gGroups]) fun n hn => ?_
    simp_all [MotionMode.ofCode?]
  case plane =>
    refine bind_or_comm hg (show [17, 18, 19] ∈ gGroups by simp [gGroups]) fun n hn => ?_
    simp_all [Plane.ofCode?]
  case units =>
    refine bind_or_comm hg (show [20, 21] ∈ gGroups by simp [gGroups]) fun n hn => ?_
    simp_all [Units.ofCode?]
  case distanceMode =>
    refine bind_or_comm hg (show [90, 91] ∈ gGroups by simp [gGroups]) fun n hn => ?_
    simp_all [DistanceMode.ofCode?]
  case inverseFeedRate =>
    refine bind_or_comm hg (show [93, 94] ∈ gGroups by simp [gGroups]) fun n hn => ?_
    simp_all [inverseFeedRateOfCode?]
  case spindleMode =>
    refine bind_or_comm hm (show [3, 4, 5] ∈ mGroups by simp [mGroups]) fun n hn => ?_
    simp_all [SpindleMode.ofCode?]
  case programFlow =>
    refine bind_or_comm hm (show [0, 1, 2, 30, 60] ∈ mGroups by simp [mGroups]) fun n hn => ?_
    simp_all [ProgramFlow.ofCode?]
  case target | offset =>
    refine PerAxis.ext_get fun axis => ?_
    simp only [PerAxis.get_zipWith, PerAxis.get_ofFn]
    exact value?_or_comm h (by cases axis <;> decide)
  case tool => rw [← Option.map_or, ← Option.map_or, value?_or_comm h (by decide)]
  case radius | feedRate | dwellTime | spindleSpeed => exact value?_or_comm h (by decide)

end Word

/-! ### Assignments, one behind another -/

theorem Changes.over_assoc {α : Type} (c c' c'' : Changes α) :
    (c.over c').over c'' = c.over (c'.over c'') := by
  have hassoc (v v' v'' : PerAxis (Option α)) :
      PerAxis.zipWith Option.or (.zipWith Option.or v v') v'' =
        .zipWith Option.or v (.zipWith Option.or v' v'') :=
    PerAxis.ext_get fun axis => by simp only [PerAxis.get_zipWith, Option.or_assoc]
  simp only [Changes.over, Option.or_assoc, hassoc]

namespace Proposal

variable {α : Type}

/-- Assignments one behind another are those of the later over those of the earlier. -/
theorem assign_assign (p : Proposal α) (c c' : Changes α) :
    (p.assign c).assign c' = p.assign (c'.over c) := by
  have htarget : PerAxis.zipWith Option.getD c'.target (.zipWith Option.getD c.target p.target) =
      .zipWith Option.getD (.zipWith Option.or c'.target c.target) p.target :=
    PerAxis.ext_get fun axis => by simp only [PerAxis.get_zipWith, Option.getD_or]
  simp only [assign, htarget, Changes.over_assoc]
  simp only [Changes.over, Option.getD_or]

variable [Number α]

/-- Words that do not conflict can change places. -/
theorem assign_changes_comm {w w' : Word α} (h : w.conflicts w' = false) (p : Proposal α) :
    (p.assign w.changes).assign w'.changes = (p.assign w'.changes).assign w.changes := by
  rw [assign_assign, assign_assign, Word.over_comm h]

theorem apply_of_isSupported {w : Word α} (h : w.isSupported = true) (p : Proposal α) :
    p.apply w = .ok (p.assign w.changes) := by
  rw [apply, applied?_eq, if_pos h]

/-- Words that all have a meaning make their assignments one behind another. -/
theorem foldlM_apply_of_isSupported {ws : List (Word α)} (h : ∀ w ∈ ws, w.isSupported = true)
    (p : Proposal α) :
    ws.foldlM apply p = .ok (ws.foldl (fun p w => p.assign w.changes) p) := by
  induction ws generalizing p with
  | nil => rfl
  | cons w ws ih =>
    obtain ⟨hw, hws⟩ := List.forall_mem_cons.mp h
    rw [List.foldlM_cons, apply_of_isSupported hw]
    exact ih hws _

end Proposal

/-! ### Lines -/

/-- The spelling of a word with a whole number. -/
def Spelling.ofWhole (letter : Char) (digits : List Char) (hletter : letter.isUpper = true)
    (hdigits : digits.all Char.isDigit = true) (hne : digits ≠ []) : Spelling where
  letter := letter
  numeral :=
    { sign := []
      whole := digits
      fraction := none
      sign_eq := .inl rfl
      isDigit_whole := List.all_eq_true.mp hdigits
      isDigit_fraction := by simp
      nonempty := by simpa using hne }
  isUpper_letter := hletter

/-- Whether the words of two spellings assign a common field. -/
def Spelling.conflicts (α : Type) [Number α] (t t' : Spelling) : Bool :=
  (t.word α).conflicts (t'.word α)

namespace Session

open Spelling

variable {σ α : Type} [Number α] [Machine σ α]

/-- What words with a meaning make of what the machine carries. -/
theorem proposal_spell (s : Session σ) {texts : List Spelling}
    (h : ∀ t ∈ texts, (t.word α).isSupported = true) :
    s.proposal (spell texts) = .ok (texts.foldl (fun p t => p.assign (t.word α).changes)
      (.ofMachine (Machine.beginBlock s.machine))) := by
  refine (s.proposal_eq_ok_iff _ _).mpr ⟨_, words_spell texts 0, ?_⟩
  rw [Proposal.foldlM_apply_of_isSupported (List.forall_mem_map.mpr h), List.foldl_map]

/-- **The proposal does not depend on the order of words that do not conflict.** -/
theorem proposal_of_reorders (s : Session σ) {texts texts' : List Spelling}
    (hsupported : ∀ t ∈ texts, (t.word α).isSupported = true)
    (h : Reorders (conflicts α) texts texts') :
    s.proposal (spell texts') = s.proposal (spell texts) := by
  have hsupported' : ∀ t ∈ texts', (t.word α).isSupported = true :=
    fun t ht => hsupported t (h.perm.mem_iff.mp ht)
  rw [s.proposal_spell hsupported, s.proposal_spell hsupported']
  exact congrArg _ (h.foldl_eq (fun t t' p hno => Proposal.assign_changes_comm hno p) _)

/-- A command is known to a session by its proposal. -/
theorem runCommand_congr {s : Session σ} {command command' : List Char}
    (h : s.proposal command' = s.proposal command) :
    s.runCommand command' = s.runCommand command := by
  rw [proposal, proposal] at h
  simp only [runCommand, h]

/-- A text with a word is a command. -/
theorem isCommand_of_spell {b : NormalBlock} {t : Spelling} {texts : List Spelling}
    (h : b.command = spell (t :: texts)) : b.IsCommand := by
  rw [spell_cons, text, List.cons_append] at h
  constructor
  · rw [NormalBlock.isEmpty, h]
    rfl
  · rw [NormalBlock.isQuit, h, beq_eq_false_iff_ne]
    intro hquit
    have hnil := (List.cons.inj hquit).2
    exact t.numeral.text_ne_nil (List.append_eq_nil_iff.mp hnil).1

/-- Two lines with the same words, in an order that keeps what conflicts, do the same. -/
theorem step_of_reorders (s : Session σ) {raw raw' : List Char} {b b' : NormalBlock}
    (hn : normalize (α := α) raw = .ok b) (hn' : normalize (α := α) raw' = .ok b')
    {texts texts' : List Spelling} (htexts : b.command = spell texts)
    (htexts' : b'.command = spell texts')
    (hsupported : ∀ t ∈ texts, (t.word α).isSupported = true)
    (h : Reorders (conflicts α) texts texts') :
    (s.step raw').1 = (s.step raw).1 ∧ (s.step raw').2.result = (s.step raw).2.result := by
  cases texts with
  | nil =>
    -- without words there is no command
    rw [List.perm_nil.mp h.perm] at htexts'
    have he : b.isEmpty = true := by rw [NormalBlock.isEmpty, htexts]; rfl
    have he' : b'.isEmpty = true := by rw [NormalBlock.isEmpty, htexts']; rfl
    rw [step_of_isEmpty hn he, step_of_isEmpty hn' he']
    exact ⟨rfl, rfl⟩
  | cons t texts =>
    cases texts' with
    | nil => exact absurd h.perm.nil_eq (by simp)
    | cons t' texts' =>
      rw [step_of_isCommand hn (isCommand_of_spell htexts),
        step_of_isCommand hn' (isCommand_of_spell htexts'), htexts, htexts',
        runCommand_congr (s.proposal_of_reorders hsupported h)]
      exact ⟨rfl, rfl⟩

/-- **The order of words matters between conflicting words only.**

A command whose words all have a meaning is the text of some spellings.  Those in any order
that keeps what conflicts in its order are a line too, and whatever line has them for its
command asks the same of the machine, in the same order, and comes to the same result: the
machine, what is asked of the program, and the count of blocks are then those behind the
first line.  The machine is any machine, and the session any session. -/
theorem step_of_reordered (s : Session σ) {raw : List Char} {b : NormalBlock}
    {ws : List (Word α)} (hn : normalize (α := α) raw = .ok b)
    (hws : (WordReader.ofText b.command).words = .ok ws)
    (hsupported : ∀ w ∈ ws, w.isSupported = true) :
    (∃ texts, b.command = spell texts ∧ texts.map (word α) = ws) ∧
    ∀ texts texts', b.command = spell texts → Reorders (conflicts α) texts texts' →
      normalize (α := α) (spell texts') = .ok ⟨spell texts', none⟩ ∧
      ∀ raw' b', normalize (α := α) raw' = .ok b' → b'.command = spell texts' →
        s.requests raw' = s.requests raw ∧ (s.step raw').1 = (s.step raw).1 ∧
          (s.step raw').2.result = (s.step raw).2.result := by
  refine ⟨?_, fun texts texts' htexts h => ⟨?_, fun raw' b' hn' htexts' => ?_⟩⟩
  · obtain ⟨texts, hspell, hwords⟩ := exists_spell hws
    exact ⟨texts, hspell.symm, hwords⟩
  · refine normalize_spell ?_
    have hlength : b.command.length ≤ blockCapacity := length_le_of_normalizeFrom hn
    rwa [htexts, spell, ← (h.perm.flatMap_right text).length_eq] at hlength
  · have hwords : texts.map (word α) = ws := by
      rw [htexts] at hws
      exact Except.ok.inj ((words_spell texts 0).symm.trans hws)
    have hsupported' : ∀ t ∈ texts, (t.word α).isSupported = true :=
      List.forall_mem_map.mp (hwords ▸ hsupported)
    -- a machine that keeps a record is a machine too
    have hrecord := (s.withRecord ([] : List (Request α))).step_of_reorders hn hn' htexts htexts'
      hsupported' h
    exact ⟨congrArg (fun t : Session (Traced σ α) => t.machine.requests) hrecord.1,
      s.step_of_reorders hn hn' htexts htexts' hsupported' h⟩

/-- The words of a traverse in inches, which names an axis twice. -/
def traverseTexts : List Spelling :=
  [.ofWhole 'G' ['2', '0'] rfl rfl (by simp), .ofWhole 'G' ['0'] rfl rfl (by simp),
    .ofWhole 'X' ['1'] rfl rfl (by simp), .ofWhole 'X' ['2'] rfl rfl (by simp)]

/-- A traverse may be told backwards, and in any spelling, as long as the last word for the
axis stays the last one. -/
theorem step_of_reordered_at_traverse :
    let s : Session (Simulator ℚ) := ofMachine (.ofState .standard .initial)
    let raw := "G20G0X1X2".toList
    let raw' := "x1 x2 g0 g20 (inches)".toList
    s.requests raw' = s.requests raw ∧ (s.step raw').1 = (s.step raw).1 ∧
      (s.step raw').2.result = (s.step raw).2.result := by
  intro s raw raw'
  have hn : normalize (α := ℚ) raw = .ok ⟨spell traverseTexts, none⟩ := rfl
  have hn' : normalize (α := ℚ) raw' = .ok ⟨"X1X2G0G20".toList, none⟩ := rfl
  have hsupported : ∀ w ∈ traverseTexts.map (word ℚ), w.isSupported = true := by decide +kernel
  have horder : Reorders (conflicts ℚ) traverseTexts
      [traverseTexts[2], traverseTexts[3], traverseTexts[1], traverseTexts[0]] :=
    ⟨[(traverseTexts[2], 2), (traverseTexts[3], 3), (traverseTexts[1], 1), (traverseTexts[0], 0)],
      by decide +kernel, rfl, by decide +kernel⟩
  obtain ⟨-, hreordered⟩ := s.step_of_reordered hn (words_spell traverseTexts 0) hsupported
  obtain ⟨-, hsame⟩ := hreordered _ _ rfl horder
  exact hsame raw' _ hn' rfl

end Session

end NumericControl
