import NumericControl.Proofs.Lines
import NumericControl.Proofs.RunAccount

/-!
# Lines that cannot be read

A program is a sequence of bytes, and any of its lines may fail to be UTF-8.  As each line is
read by itself, such a line ends the run where it stands: what was done by the lines before
it is kept, nothing of it or of what follows is executed, and a run that is stopped earlier
never gets to see it.

This is said by comparing with the program that is cut before the line.

## Main definitions

* `firstLines` — the first lines of a sequence, with their ends.

## Main results

* `splitLines_firstLines` — the lines of what is cut off are the first ones.
* `Run.unreadable_line_stops` — **a line that cannot be read stops the run and does nothing
  else**.
-/

namespace NumericControl

/-! ### A sequence cut before a line -/

theorem take_onHead {α : Type} (run : List α) (k : Nat) (lines : List (List α)) :
    (onHead run lines).take (k + 1) = onHead run (lines.take (k + 1)) := by
  cases lines <;> simp [onHead]

section FirstLines

variable {α : Type} [DecidableEq α] {cr lf : α}

/-- The first lines of a sequence, with their ends. -/
def firstLines (lf : α) : Nat → List α → List α
  | 0, _ => []
  | _ + 1, [] => []
  | k + 1, a :: s => a :: firstLines lf (if a = lf then k else k + 1) s

theorem firstLines_isPrefix (k : Nat) (s : List α) : firstLines lf k s <+: s := by
  induction s generalizing k with
  | nil => cases k <;> exact List.prefix_rfl
  | cons a s ih =>
    cases k with
    | zero => exact List.nil_prefix
    | succ k => exact (List.prefix_cons_inj a).mpr (ih _)

theorem head?_firstLines_succ (lf : α) (k : Nat) (s : List α) :
    (firstLines lf (k + 1) s).head? = s.head? := by
  cases s <;> rfl

/-- Unless there are no more lines than that, the cut is right behind a line feed. -/
theorem firstLines_ended (lf : α) (k : Nat) (s : List α) :
    firstLines lf k s = s ∨ firstLines lf k s = [] ∨ (firstLines lf k s).getLast? = some lf := by
  induction s generalizing k with
  | nil => cases k <;> exact .inl rfl
  | cons a s ih =>
    cases k with
    | zero => exact .inr (.inl rfl)
    | succ k =>
      rw [firstLines]
      obtain hall | hnone | hlast := ih (if a = lf then k else k + 1)
      · exact .inl (by rw [hall])
      · by_cases ha : a = lf
        · exact .inr (.inr (by rw [hnone, ha]; rfl))
        · -- one more line was asked for and nothing came, so nothing was there
          have hhead := head?_firstLines_succ lf k s
          rw [if_neg ha] at hnone ⊢
          rw [hnone] at hhead ⊢
          exact .inl (by rw [List.head?_eq_none_iff.mp hhead.symm])
      · exact .inr (.inr (by rw [List.getLast?_cons, hlast]; rfl))

/-- **The lines of what is cut off are the first ones.** -/
theorem splitLines_firstLines (h : cr ≠ lf) (k : Nat) (s : List α) :
    splitLines cr lf (firstLines lf k s) = (splitLines cr lf s).take k := by
  match k, s with
  | 0, s => rw [List.take_zero, firstLines, splitLines]
  | k + 1, [] => rfl
  | k + 1, a :: s =>
    -- a carriage return takes the line feed behind it along, so two steps are needed
    have ih := splitLines_firstLines h k s
    have ih' := splitLines_firstLines h (k + 1) s
    have ihTail := splitLines_firstLines h k s.tail
    by_cases ha : a = lf
    · rw [firstLines, if_pos ha, ha, splitLines_lf, splitLines_lf, ih, List.take_succ_cons]
    · rw [firstLines, if_neg ha]
      by_cases hend : a = cr ∧ s.head? = some lf
      · obtain ⟨rfl, hs⟩ := hend
        obtain ⟨rest, rfl⟩ := List.head?_eq_some_iff.mp hs
        rw [List.tail_cons] at ihTail
        rw [firstLines, if_pos rfl, splitLines_cr_lf h, splitLines_cr_lf h, ihTail,
          List.take_succ_cons]
      · have hother (t : List α) (ht : t.head? = s.head?) (hcr : a = cr) : t.head? ≠ some lf :=
          fun hlf => hend ⟨hcr, ht.symm.trans hlf⟩
        rw [splitLines_other ha (hother _ (head?_firstLines_succ lf k s)),
          splitLines_other ha (hother s rfl), ih', take_onHead]
  termination_by s.length

theorem firstLines_ended_of_lt (h : cr ≠ lf) {k : Nat} {s : List α}
    (hk : k < (splitLines cr lf s).length) :
    firstLines lf k s = [] ∨ (firstLines lf k s).getLast? = some lf := by
  obtain hall | hended := firstLines_ended lf k s
  · -- there is a line behind the cut, so it does not take all
    have hlength := congrArg List.length (splitLines_firstLines h k s)
    rw [hall, List.length_take_of_le (Nat.le_of_lt hk)] at hlength
    exact absurd hlength (Nat.ne_of_gt hk)
  · exact hended

end FirstLines

/-! ### Programs cut before a line -/

theorem inputLines_firstLines (k : Nat) (program : List UInt8) :
    inputLines (firstLines 10 k program) = (inputLines program).take k := by
  rw [inputLines, splitLines_firstLines (by decide), List.map_take]
  rfl

theorem inputLines_append {first : List UInt8} (rest : List UInt8)
    (hfirst : first = [] ∨ first.getLast? = some 10) :
    inputLines (first ++ rest) = inputLines first ++ inputLines rest := by
  rw [inputLines, splitLines_append (by decide) rest hfirst, List.map_append]
  rfl

/-- Lines that are UTF-8 can be read. -/
theorem map_ofBytes_of_isSome {lines : List (List UInt8)}
    (h : ∀ line ∈ lines, (decodeUtf8? line).isSome) :
    lines.map InputLine.ofBytes = (lines.filterMap decodeUtf8?).map .ok := by
  induction lines with
  | nil => rfl
  | cons line lines ih =>
    obtain ⟨text, htext⟩ := Option.isSome_iff_exists.mp (h line List.mem_cons_self)
    rw [List.map_cons, List.filterMap_cons_some htext, List.map_cons,
      ih fun line hline => h line (List.mem_cons_of_mem _ hline), InputLine.ofBytes, htext]

/-- Behind the cut, the input goes on with the line before which it was made. -/
theorem inputLines_eq_append_of_getElem? {program bad : List UInt8} {k : Nat}
    (hbad : (splitLines 13 10 program)[k]? = some bad) :
    inputLines program = inputLines (firstLines 10 k program) ++
      InputLine.ofBytes bad :: (inputLines program).drop (k + 1) := by
  have hline : (inputLines program)[k]? = some (InputLine.ofBytes bad) := by
    rw [inputLines, List.getElem?_map, hbad, Option.map_some]
  obtain ⟨hk, hline⟩ := List.getElem?_eq_some_iff.mp hline
  rw [inputLines_firstLines, ← hline, ← List.drop_eq_getElem_cons hk, List.take_append_drop]

namespace Run

variable {σ α : Type} [Number α] [Machine σ α]

/-- A run ends at a line that cannot be read, if it is not stopped before. -/
theorem toEnd_append_error {r : Run σ α} {first : List InputLine} (fault : InputFault)
    (rest : List InputLine) (hread : (r.toEnd first).2 = none)
    (hstop : (r.toEnd first).1.summary.stop = none) :
    r.toEnd (first ++ .error fault :: rest) = ((r.toEnd first).1, some fault) := by
  rw [toEnd_append _ hread hstop]
  rfl

/-- **A line that cannot be read stops the run and does nothing else.**

A line of a program is the first one that is not UTF-8, and the program is cut right before
it.  What is left can be read.  If its run is not stopped, the run of the whole program ends
with the fault of the input, in the same session, with the same messages.  If it is stopped,
then that is the run of the whole program too, and of whatever else follows the cut: the
fault is not seen. -/
theorem unreadable_line_stops (s : Session σ) (program : List UInt8) {k : Nat} {bad : List UInt8}
    (hbad : (splitLines 13 10 program)[k]? = some bad) (hunreadable : decodeUtf8? bad = none)
    (hreadable : ∀ line ∈ (splitLines 13 10 program).take k, (decodeUtf8? line).isSome) :
    let cut := firstLines 10 k program
    let before : Run σ α := (ofBytes s cut).1
    (cut <+: program ∧ (cut = [] ∨ cut.getLast? = some 10) ∧
      inputLines cut = (inputLines program).take k) ∧
    ofBytes s cut = (before, none) ∧
    (before.summary.stop = none → ofBytes s program = (before, some .notUtf8)) ∧
    (before.summary.stop ≠ none → ∀ rest, ofBytes s (cut ++ rest) = (before, none)) := by
  intro cut before
  have hcut : inputLines cut = (inputLines program).take k := inputLines_firstLines k program
  have hended : cut = [] ∨ cut.getLast? = some 10 :=
    firstLines_ended_of_lt (by decide) (List.getElem?_eq_some_iff.mp hbad).1
  have hread : (ofBytes s cut : Run σ α × Option InputFault).2 = none := by
    rw [ofBytes, hcut, inputLines, ← List.map_take, map_ofBytes_of_isSome hreadable]
    exact snd_toEnd_map_ok _ _
  have hrun : ofBytes s cut = (before, none) := Prod.ext rfl hread
  have hline : InputLine.ofBytes bad = .error .notUtf8 := by rw [InputLine.ofBytes, hunreadable]
  refine ⟨⟨firstLines_isPrefix k program, hended, hcut⟩, hrun, fun hstop => ?_,
    fun hstop rest => ?_⟩
  · rw [ofBytes, inputLines_eq_append_of_getElem? hbad, hline]
    exact toEnd_append_error _ _ hread hstop
  · rw [ofBytes, inputLines_append rest hended, ← hrun]
    exact toEnd_append_of_stopped _ rfl hread hstop

/-- A byte that is no text behind a traverse, and behind the end of a program. -/
theorem unreadable_line_stops_or_is_not_seen :
    let s := Session.ofMachine (Simulator.ofState .standard (.initial : State Binary64))
    let traverse := encodeUtf8 "G0 X1\r\n".toList
    let finish := encodeUtf8 "M2\n".toList
    ofBytes s (traverse ++ [0xFF, 10, 71]) = ((ofBytes s traverse).1, some .notUtf8) ∧
    ofBytes s (finish ++ [0xFF]) = ((ofBytes s finish).1, none) := by
  intro s traverse finish
  have hnone : decodeUtf8? [0xFF] = none := by decide +kernel
  constructor
  · have hbad : (splitLines 13 10 (traverse ++ [0xFF, 10, 71]))[1]? = some [0xFF] := by
      decide +kernel
    obtain ⟨-, -, hfault, -⟩ := unreadable_line_stops s _ hbad hnone (by decide +kernel)
    exact hfault (by decide +kernel)
  · have hbad : (splitLines 13 10 (finish ++ [0xFF]))[1]? = some [0xFF] := by decide +kernel
    obtain ⟨-, -, -, hsame⟩ := unreadable_line_stops s _ hbad hnone (by decide +kernel)
    exact hsame (by decide +kernel) [0xFF]

end Run

end NumericControl
