import NumericControl.Proofs.ExactNumber
import NumericControl.Proofs.Recoding

/-!
# No axis is special

The three axes are told apart by their names alone.  So a program in which the names are
exchanged, on a machine in which the axes are, does what the program does, with the axes
exchanged.  What is exchanged in a program are the letters of the axes, with them those of the
centre of an arc, and the codes of the planes, as a plane is that of two axes.

This would not be so if a value went to another axis than its letter says, be it only on the way
through the proposal, through the calls or in an arc of one of the planes.

In an arc the two coordinates of the plane may change places.  A sum of squares does not depend
on their order if it is not rounded, so the coordinates are exact here.

## Main definitions

* `Word.permuted` — a word with the names of the axes exchanged.
* `State.permuted`, `Entry.permuted`, `Simulator.permuted` — what belongs to an axis given to the
  one that it is permuted to.
* `Recoding.permutation`, `Transformation.permutation` — the axes exchanged, in programs and in
  machines.

## Main results

* `PerAxis.inPlane_permuted` — the coordinates in a plane are those in the permuted plane, or
  change places.
* `Simulator.refusal?_permuted`, `Simulator.accepted_permuted` — what a call does.
* `Session.runBlocks_permuted` — **a run with the axes exchanged is the run, with the axes
  exchanged**.
-/

namespace NumericControl

variable {F : Type} [ExactNumber F] (π : Equiv.Perm Axis)

/-! ### Planes -/

/-- The two axes of a plane. -/
def Plane.axes : Plane → Axis × Axis
  | .xy => (.x, .y)
  | .xz => (.x, .z)
  | .yz => (.y, .z)

theorem PerAxis.inPlane_eq {α : Type} (v : PerAxis α) (plane : Plane) :
    v.inPlane plane = (v.get plane.axes.1, v.get plane.axes.2) := by
  cases plane <;> rfl

/-- The axes of a plane are two, and none of them is normal to it. -/
theorem Plane.axes_ne (plane : Plane) :
    plane.axes.1 ≠ plane.axes.2 ∧ plane.axes.1 ≠ plane.normal ∧ plane.axes.2 ≠ plane.normal := by
  cases plane <;> decide

/-- Two axes that are not normal to a plane are the axes of the plane, in one order or in the
other. -/
theorem Plane.axes_eq_or_swap {plane : Plane} {a b : Axis} (hab : a ≠ b) (ha : a ≠ plane.normal)
    (hb : b ≠ plane.normal) : plane.axes = (a, b) ∨ plane.axes = (b, a) := by
  revert hab ha hb
  cases plane <;> cases a <;> cases b <;> decide

/-- **The coordinates in a plane** are those in the permuted plane, for all points, or they change
places for all points. -/
theorem PerAxis.inPlane_permuted {α : Type} (plane : Plane) :
    (∀ v : PerAxis α, (v.permuted π).inPlane (plane.permuted π) = v.inPlane plane) ∨
      (∀ v : PerAxis α, (v.permuted π).inPlane (plane.permuted π) = (v.inPlane plane).swap) := by
  have hnormal : (plane.permuted π).normal = π plane.normal := Axis.normal_plane _
  obtain ⟨hne, hfirst, hsecond⟩ := (plane.permuted π).axes_ne
  rw [hnormal] at hfirst hsecond
  have hback {axis : Axis} (h : axis ≠ π plane.normal) : π.symm axis ≠ plane.normal :=
    fun heq => h (π.symm_apply_eq.mp heq)
  rcases Plane.axes_eq_or_swap (π.symm.injective.ne hne) (hback hfirst) (hback hsecond) with h | h
  · refine .inl fun v => ?_
    rw [inPlane_eq, inPlane_eq, get_permuted, get_permuted, h]
  · refine .inr fun v => ?_
    rw [inPlane_eq, inPlane_eq, get_permuted, get_permuted, h]
    rfl

/-! ### Words -/

/-- The G code of a plane. -/
def Plane.code : Plane → ℕ
  | .xy => 17
  | .xz => 18
  | .yz => 19

/-- The axes exchanged. -/
def Recoding.permutation : Recoding F where
  axes := π
  length := id
  length_zero := rfl

theorem Changes.recoded_permutation (c : Changes F) :
    c.recoded (.permutation π) =
      { c with
        target := c.target.permuted π
        offset := c.offset.permuted π
        plane := c.plane.map (Plane.permuted π) } := by
  simp only [recoded, Recoding.permutation, Option.map_id, id]
  rfl

/-- What assigns nothing to an axis and to the plane does not change. -/
theorem Changes.recoded_permutation_of_none {c : Changes F} (htarget : c.target = .replicate none)
    (hoffset : c.offset = .replicate none) (hplane : c.plane = none) :
    c.recoded (.permutation π) = c := by
  have htarget' : c.target.permuted π = c.target := by rw [htarget, PerAxis.permuted_replicate]
  have hoffset' : c.offset.permuted π = c.offset := by rw [hoffset, PerAxis.permuted_replicate]
  have hplane' : c.plane.map (Plane.permuted π) = c.plane := by rw [hplane, Option.map_none]
  rw [recoded_permutation, htarget', hoffset', hplane']

namespace Word

/-- A word with the names of the axes exchanged. -/
def permuted (w : Word F) : Word F :=
  match w.letter with
  | 'X' => ⟨(π .x).letter, w.value⟩
  | 'Y' => ⟨(π .y).letter, w.value⟩
  | 'Z' => ⟨(π .z).letter, w.value⟩
  | 'I' => ⟨(π .x).offsetLetter, w.value⟩
  | 'J' => ⟨(π .y).offsetLetter, w.value⟩
  | 'K' => ⟨(π .z).offsetLetter, w.value⟩
  | 'G' =>
    match Plane.ofCode? (Number.toInt w.value) with
    | some plane => ⟨'G', (plane.permuted π).code⟩
    | none => w
  | _ => w

theorem changes_target (axis : Axis) (value : F) :
    changes ⟨axis.letter, value⟩ =
      { target := (PerAxis.replicate none).set axis (some value) } := by
  cases axis <;> rfl

theorem changes_offset (axis : Axis) (value : F) :
    changes ⟨axis.offsetLetter, value⟩ =
      { offset := (PerAxis.replicate none).set axis (some value) } := by
  cases axis <;> rfl

theorem changes_plane {value : F} {plane : Plane}
    (h : Plane.ofCode? (Number.toInt value) = some plane) :
    changes ⟨'G', value⟩ = { plane := some plane } := by
  rw [changes_g]
  generalize Number.toInt value = code at h
  unfold Plane.ofCode? at h
  split at h
  case h_4 => exact absurd h (by simp)
  all_goals
    rw [← Option.some.inj h]
    rfl

theorem isSupported_of_plane {value : F} {plane : Plane}
    (h : Plane.ofCode? (Number.toInt value) = some plane) :
    isSupported (⟨'G', value⟩ : Word F) = true := by
  change gCodes.contains (Number.toInt value) = true
  generalize Number.toInt value = code at h
  unfold Plane.ofCode? at h
  split at h
  case h_4 => exact absurd h (by simp)
  all_goals rfl

/-- The code of a plane selects the plane. -/
theorem ofCode?_code (plane : Plane) :
    Plane.ofCode? (Number.toInt (plane.code : F)) = some plane := by
  have hint : Number.toInt (plane.code : F) = plane.code := by
    change ExactNumber.integralPart (plane.code : F) = plane.code
    rw [ExactNumber.integralPart, if_pos (Nat.cast_nonneg _), Int.floor_natCast]
  rw [hint]
  cases plane <;> rfl

/-- A word that gives no value to an axis and selects no plane does not change. -/
theorem recodes_permutation_self {w : Word F} (htarget : ∀ axis, w.letter ≠ Axis.letter axis)
    (hoffset : ∀ axis, w.letter ≠ Axis.offsetLetter axis)
    (hplane : w.gCode?.bind Plane.ofCode? = none) : w.Recodes (.permutation π) w where
  isSupported := rfl
  changes := by
    refine (Changes.recoded_permutation_of_none π ?_ ?_ hplane).symm
    · exact PerAxis.ext_get fun axis => by
        rw [changes, PerAxis.get_ofFn, PerAxis.get_replicate]
        exact if_neg (htarget axis)
    · exact PerAxis.ext_get fun axis => by
        rw [changes, PerAxis.get_ofFn, PerAxis.get_replicate]
        exact if_neg (hoffset axis)
  eq_of_not_isSupported _ := rfl

theorem recodes_permutation_target (axis : Axis) (value : F) :
    Recodes (.permutation π) ⟨axis.letter, value⟩ ⟨(π axis).letter, value⟩ := by
  have hsupported (axis : Axis) : isSupported (⟨axis.letter, value⟩ : Word F) = true := by
    cases axis <;> rfl
  refine .of_isSupported (hsupported _) (hsupported _) ?_
  rw [changes_target, changes_target, Changes.recoded_permutation, PerAxis.permuted_set,
    PerAxis.permuted_replicate]
  rfl

theorem recodes_permutation_offset (axis : Axis) (value : F) :
    Recodes (.permutation π) ⟨axis.offsetLetter, value⟩ ⟨(π axis).offsetLetter, value⟩ := by
  have hsupported (axis : Axis) : isSupported (⟨axis.offsetLetter, value⟩ : Word F) = true := by
    cases axis <;> rfl
  refine .of_isSupported (hsupported _) (hsupported _) ?_
  rw [changes_offset, changes_offset, Changes.recoded_permutation, PerAxis.permuted_set,
    PerAxis.permuted_replicate]
  rfl

theorem recodes_permutation_plane {value : F} {plane : Plane}
    (h : Plane.ofCode? (Number.toInt value) = some plane) :
    Recodes (.permutation π) ⟨'G', value⟩ ⟨'G', (plane.permuted π).code⟩ := by
  have hcode : Plane.ofCode? (Number.toInt ((plane.permuted π).code : F)) =
      some (plane.permuted π) := ofCode?_code _
  refine .of_isSupported (isSupported_of_plane h) (isSupported_of_plane hcode) ?_
  rw [changes_plane hcode, changes_plane h, Changes.recoded_permutation,
    PerAxis.permuted_replicate]
  rfl

/-- **A word with the names of the axes exchanged** assigns what the word does, with the axes
exchanged. -/
theorem recodes_permuted (w : Word F) : w.Recodes (.permutation π) (w.permuted π) := by
  obtain ⟨letter, value⟩ := w
  unfold permuted
  dsimp only
  split
  case h_1 => exact recodes_permutation_target π .x value
  case h_2 => exact recodes_permutation_target π .y value
  case h_3 => exact recodes_permutation_target π .z value
  case h_4 => exact recodes_permutation_offset π .x value
  case h_5 => exact recodes_permutation_offset π .y value
  case h_6 => exact recodes_permutation_offset π .z value
  case h_7 =>
    cases h : Plane.ofCode? (Number.toInt value) with
    | some plane => exact recodes_permutation_plane π h
    | none =>
      refine recodes_permutation_self π (fun axis => ?_) (fun axis => ?_) h
      · cases axis <;> simp [Axis.letter]
      · cases axis <;> simp [Axis.offsetLetter]
  case h_8 =>
    refine recodes_permutation_self π (fun axis => ?_) (fun axis => ?_) ?_
    · cases axis <;> assumption
    · cases axis <;> assumption
    · have hno : gCode? (⟨letter, value⟩ : Word F) = none := if_neg (by assumption)
      rw [hno, Option.bind_none]

end Word

/-! ### Machines -/

/-- A state with what belongs to an axis given to the one that it is permuted to. -/
def State.permuted (s : State F) : State F :=
  { s with
    position := s.position.permuted π
    originOffset := s.originOffset.permuted π
    plane := s.plane.permuted π }

/-- An entry with the axes exchanged. -/
def Entry.permuted : Entry F → Entry F
  | .selectPlane plane => .selectPlane (plane.permuted π)
  | .originOffsets offset => .originOffsets (offset.permuted π)
  | .motion mode target => .motion mode (target.permuted π)
  | e => e

theorem Entry.replay_permuted (e : Entry F) (s : State F) :
    (e.permuted π).replay (s.permuted π) = (e.replay s).permuted π := by
  cases e with
  | returnToHome =>
    have hhome : PerAxis.replicate (Number.zero : F) =
        (PerAxis.replicate Number.zero).permuted π := (PerAxis.permuted_replicate π _).symm
    exact congrArg (fun position => { s.permuted π with position }) hhome
  | _ => rfl

namespace Simulator

/-- A machine with the axes exchanged, in its state, in its journal and in the readings that it
keeps. -/
def permuted (m : Simulator F) : Simulator F :=
  { m with
    state := m.state.permuted π
    journal := m.journal.map (Entry.permuted π)
    carried := m.carried.map (PerAxis.permuted π) }

variable (m : Simulator F)

/-! ### One call -/

theorem workPosition_permuted (axis : Axis) :
    (m.permuted π).workPosition axis = m.workPosition (π.symm axis) := by
  change ((m.state.position.permuted π).get axis - (m.state.originOffset.permuted π).get axis)
    / m.scale = _
  rw [PerAxis.get_permuted, PerAxis.get_permuted]
  rfl

theorem readings_permuted :
    PerAxis.ofFn (m.permuted π).workPosition = (PerAxis.ofFn m.workPosition).permuted π :=
  PerAxis.ext_get fun axis => by
    rw [PerAxis.get_permuted, PerAxis.get_ofFn, PerAxis.get_ofFn, workPosition_permuted]

theorem isCarried_permuted (axis : Axis) (value : F) :
    (m.permuted π).isCarried axis value = m.isCarried (π.symm axis) value := by
  have hcarried : (m.permuted π).carried = m.carried.map (PerAxis.permuted π) := rfl
  rw [isCarried, isCarried, hcarried]
  cases m.carried with
  | none => rfl
  | some readings => exact congrArg (Number.eq · value) (readings.get_permuted π axis)

theorem axisToMachine_permuted (axis : Axis) (value : F) :
    (m.permuted π).axisToMachine axis value = m.axisToMachine (π.symm axis) value := by
  have hposition : (m.permuted π).state.position = m.state.position.permuted π := rfl
  have horigin : (m.permuted π).state.originOffset = m.state.originOffset.permuted π := rfl
  have hscale : (m.permuted π).scale = m.scale := rfl
  rw [axisToMachine, axisToMachine, isCarried_permuted, hposition, horigin, hscale,
    PerAxis.get_permuted, PerAxis.get_permuted]

theorem toMachine_permuted (target : PerAxis F) :
    (m.permuted π).toMachine (target.permuted π) = (m.toMachine target).permuted π := by
  refine PerAxis.ext_get fun axis => ?_
  rw [toMachine, toMachine, PerAxis.get_ofFn, PerAxis.get_permuted, PerAxis.get_permuted,
    PerAxis.get_ofFn, axisToMachine_permuted]

theorem originFor_permuted (point : PerAxis F) :
    (m.permuted π).originFor (point.permuted π) = (m.originFor point).permuted π := by
  have hposition : (m.permuted π).state.position = m.state.position.permuted π := rfl
  have horigin : (m.permuted π).state.originOffset = m.state.originOffset.permuted π := rfl
  refine PerAxis.ext_get fun axis => ?_
  rw [originFor, originFor, PerAxis.get_ofFn, PerAxis.get_permuted, PerAxis.get_permuted,
    PerAxis.get_ofFn, axisToMachine_permuted, hposition, horigin, PerAxis.get_permuted,
    PerAxis.get_permuted]

/-- Two points are as far apart in the permuted plane. -/
theorem chord_permuted (start finish : PerAxis F) :
    (m.permuted π).chord (start.permuted π) (finish.permuted π) = m.chord start finish := by
  have hplane : (m.permuted π).state.plane = m.state.plane.permuted π := rfl
  rcases PerAxis.inPlane_permuted (α := F) π m.state.plane with h | h
  · simp only [chord, hplane, h]
  · simp only [chord, hplane, h, Prod.fst_swap, Prod.snd_swap]
    rw [add_comm]

theorem checkArc_permuted (target offset : PerAxis F) (radius : F) :
    (m.permuted π).checkArc (target.permuted π) (offset.permuted π) radius =
      m.checkArc target offset radius := by
  have hplane : (m.permuted π).state.plane = m.state.plane.permuted π := rfl
  have hscale : (m.permuted π).scale = m.scale := rfl
  have hchord : (m.permuted π).chord (m.permuted π).state.position (target.permuted π) =
      m.chord m.state.position target := m.chord_permuted π _ _
  rcases PerAxis.inPlane_permuted (α := F) π m.state.plane with h | h
  · simp only [checkArc, hplane, hscale, hchord, h]
  · simp only [checkArc, hplane, hscale, hchord, h, Prod.fst_swap, Prod.snd_swap, Bool.and_comm]

/-- **The same calls are refused with the axes exchanged**, with the same faults. -/
theorem refusal?_permuted (c : Call F) :
    (m.permuted π).refusal? (c.recoded (.permutation π)) = m.refusal? c := by
  cases c with
  | arc target offset radius mode =>
    have hlacks : (m.permuted π).lacksFeedRate = m.lacksFeedRate := rfl
    have hpoint (v : PerAxis F) : (Recoding.permutation π).onPoint v = v.permuted π := rfl
    have hradius : (Recoding.permutation (F := F) π).length radius = radius := rfl
    simp only [Call.recoded, refusal?, hlacks, hpoint, hradius, toMachine_permuted,
      checkArc_permuted]
  | _ => rfl

theorem entryOf_permuted (c : Call F) :
    (m.permuted π).entryOf (c.recoded (.permutation π)) = (m.entryOf c).permuted π := by
  cases c with
  | originOffsets point => exact congrArg Entry.originOffsets (m.originFor_permuted π point)
  | traverse target | feed target | arc target =>
    exact congrArg (Entry.motion _) (m.toMachine_permuted π target)
  | _ => rfl

theorem carriedBehind_permuted (c : Call F) :
    (m.permuted π).carriedBehind (c.recoded (.permutation π)) =
      (m.carriedBehind c).map (PerAxis.permuted π) := by
  cases c with
  | units units =>
    have hcarried : (m.permuted π).carried = m.carried.map (PerAxis.permuted π) := rfl
    have hunits : (m.permuted π).state.units = m.state.units := rfl
    simp only [Call.recoded, carriedBehind, readings_permuted, hcarried, hunits, Option.isNone_map]
    split <;> rfl
  | _ => rfl

/-- **What is accepted with the axes exchanged does what it does**, with the axes exchanged. -/
theorem accepted_permuted (c : Call F) :
    (m.permuted π).accepted (c.recoded (.permutation π)) = (m.accepted c).permuted π := by
  have hstate : (m.permuted π).state = m.state.permuted π := rfl
  simp only [accepted, entryOf_permuted, carriedBehind_permuted, hstate, Entry.replay_permuted]
  simp only [permuted, Array.map_push]

end Simulator

/-- The axes exchanged.  All machines and all calls can be told so, and faults name no axis. -/
def Transformation.permutation : Transformation F F where
  onMachine := Simulator.permuted π
  onCall := Call.recoded (.permutation π)
  value := id
  Covers _ := True
  Admits _ := True
  beginBlock _ := rfl
  refusal {m c} _ _ := by rw [m.refusal?_permuted π c]
  accepted {m c} _ _ := m.accepted_permuted π c
  covers_beginBlock _ := trivial
  covers_accepted _ _ := trivial

theorem Transformation.recodes_permutation :
    (permutation (F := F) π).Recodes (.permutation π) where
  onCall := rfl
  ofMachine {m} _ := by
    have hchanges : ({} : Changes F).recoded (.permutation π) = {} :=
      Changes.recoded_permutation_of_none π rfl rfl rfl
    change Proposal.mk _ _ (.ofFn (m.permuted π).workPosition) {} =
      Proposal.mk _ _ ((PerAxis.ofFn m.workPosition).permuted π) (Changes.recoded _ {})
    rw [m.readings_permuted, hchanges]
    rfl

/-! ### Programs -/

/-- What a block comes to, with the axes exchanged. -/
def BlockReport.permuted (r : BlockReport (Simulator F) F) : BlockReport (Simulator F) F :=
  ⟨r.session.map (Simulator.permuted π), r.result, r.made.map (Call.recoded (.permutation π))⟩

/-- **A run with the axes exchanged is the run, with the axes exchanged.**

The axes are permuted, in a session in what its machine keeps and has written, and in blocks in
the letters of targets and centres and in the codes of planes.  Then each block ends as it did
before, with the same fault or without one; the calls made are the calls made before with the
axes permuted; and so is the session behind the block, with its position, its work zero, its
plane and its journal. -/
theorem Session.runBlocks_permuted (s : Session (Simulator F)) (blocks : List (List (Word F))) :
    (s.map (Simulator.permuted π)).runBlocks (blocks.map (List.map (Word.permuted π))) =
      (s.runBlocks blocks).map (BlockReport.permuted π) := by
  have hmatches : List.Forall₂ (Transformation.permutation π).Matches (s.runBlocks blocks)
      ((s.map (Simulator.permuted π)).runBlocks (blocks.map (List.map (Word.permuted π)))) :=
    Transformation.runBlocks (Transformation.recodes_permutation π) trivial
      (fun _ _ w _ => w.recodes_permuted π) (fun _ _ _ _ _ _ _ => trivial)
  have hreport {r r' : BlockReport (Simulator F) F}
      (h : (Transformation.permutation π).Matches r r') : r.permuted π = r' := by
    rw [BlockReport.permuted, ← h.result_eq rfl]
    exact congrArg₂ (BlockReport.mk · _ ·) h.session.symm h.made.symm
  have hreports := List.forall₂_map_left_iff.mpr (hmatches.imp fun _ _ h => hreport h)
  rw [List.forall₂_eq_eq_eq] at hreports
  exact hreports.symm

end NumericControl
