import NumericControl.Proofs.ExactNumber
import NumericControl.Proofs.Recoding

/-!
# Inches and millimetres

A machine keeps its lengths in millimetres, so it does not matter in which unit a program
tells them: a program in inches, and the same program with all of its lengths multiplied by
the millimetres in an inch, do the same.  This takes every length that goes into the machine
to be converted once, and to be compared with a limit or with zero behind the conversion.

Lengths are the values of the words with the letters X, Y, Z, I, J, K and R, and the value
of an F word is a length a minute.  An inverse time is no length, so feed rates have to be
speeds; and the units must not be switched by the program itself.

The coordinates are exact here.

## Main definitions

* `Word.inMillimeters` — a word of a program in inches, told in millimetres.
* `Simulator.inUnits` — a machine with other units active.
* `Recoding.metric`, `Transformation.metric` — from inches to millimetres.
* `BlockReport.MetricTwin` — a block comes to the same in inches and in millimetres.

## Main results

* `Simulator.refusal?_metric`, `Simulator.accepted_metric` — a call does the same.
* `Session.metric_translation` — **a program in inches does what its metric translation
  does**.
-/

namespace NumericControl

variable {F : Type} [ExactNumber F]

/-! ### Lengths -/

/-- The letters of the words whose values are lengths, or lengths a minute. -/
def lengthLetters : List Char := ['X', 'Y', 'Z', 'I', 'J', 'K', 'R', 'F']

/-- A word of a program in inches, told in millimetres. -/
def Word.inMillimeters (w : Word F) : Word F :=
  if w.letter ∈ lengthLetters then ⟨w.letter, w.value * Units.inches.scale⟩ else w

/-- The way from inches to millimetres. -/
def Recoding.metric : Recoding F where
  axes := Equiv.refl Axis
  length a := a * Units.inches.scale
  length_zero := by rw [Number.zero_eq, zero_mul]

@[simp] theorem Recoding.get_onPoint_metric (v : PerAxis F) (axis : Axis) :
    (metric.onPoint v).get axis = metric.length (v.get axis) := by
  cases axis <;> rfl

namespace Number

/-- A length is negative in every unit or in none. -/
theorem lt_zero_metric (a : F) :
    Number.lt (Recoding.metric.length a) Number.zero = Number.lt a Number.zero := by
  have hinch : (0 : F) < Units.inches.scale := Units.scale_pos .inches
  rw [zero_eq]
  refine decide_eq_decide.mpr ⟨fun h => ?_, fun h => mul_neg_of_neg_of_pos h hinch⟩
  exact neg_of_mul_neg_left h hinch.le

theorem eq_zero_metric (a : F) :
    Number.eq (Recoding.metric.length a) Number.zero = Number.eq a Number.zero := by
  rw [zero_eq]
  exact decide_eq_decide.mpr (mul_eq_zero_iff_right (Units.scale_ne_zero .inches))

theorem abs_metric (a : F) :
    Number.abs (Recoding.metric.length a) = Number.abs a * Units.inches.scale := by
  have hinch : (0 : F) < Units.inches.scale := Units.scale_pos .inches
  change |a * Units.inches.scale| = |a| * Units.inches.scale
  rw [abs_mul, abs_of_pos hinch]

end Number

/-! ### Words -/

namespace Word

variable (w : Word F)

@[simp] theorem letter_inMillimeters : w.inMillimeters.letter = w.letter := by
  unfold inMillimeters
  split <;> rfl

theorem value_inMillimeters :
    w.inMillimeters.value =
      if w.letter ∈ lengthLetters then Recoding.metric.length w.value else w.value := by
  unfold inMillimeters
  split <;> rfl

theorem value?_inMillimeters_of_length (letter : Char) (h : letter ∈ lengthLetters) :
    w.inMillimeters.value? letter = (w.value? letter).map Recoding.metric.length := by
  simp only [value?, letter_inMillimeters, value_inMillimeters]
  split
  · next heq =>
    rw [heq, if_pos h]
    rfl
  · rfl

/-- A word that tells no length stays as it is. -/
theorem inMillimeters_of_not_mem (h : w.letter ∉ lengthLetters) : w.inMillimeters = w :=
  if_neg h

theorem value?_inMillimeters_of_not_length (letter : Char) (h : letter ∉ lengthLetters) :
    w.inMillimeters.value? letter = w.value? letter := by
  simp only [value?, letter_inMillimeters]
  split
  · next heq => rw [w.inMillimeters_of_not_mem (heq ▸ h)]
  · rfl

theorem gCode?_inMillimeters : w.inMillimeters.gCode? = w.gCode? := by
  rw [gCode?_eq_map, gCode?_eq_map, w.value?_inMillimeters_of_not_length _ (by decide)]

theorem mCode?_inMillimeters : w.inMillimeters.mCode? = w.mCode? := by
  rw [mCode?_eq_map, mCode?_eq_map, w.value?_inMillimeters_of_not_length _ (by decide)]

theorem isSupported_of_mem_lengthLetters (h : w.letter ∈ lengthLetters) :
    w.isSupported = true := by
  simp only [lengthLetters, List.mem_cons, List.not_mem_nil, or_false] at h
  unfold isSupported
  rcases h with h | h | h | h | h | h | h | h <;> rw [h] <;> rfl

theorem changes_inMillimeters : w.inMillimeters.changes = w.changes.recoded .metric := by
  have haxes (letter : Axis → Char) (hletter : ∀ axis, letter axis ∈ lengthLetters) :
      (PerAxis.ofFn fun axis => w.inMillimeters.value? (letter axis)) =
        ((PerAxis.ofFn fun axis => w.value? (letter axis)).map
          (Option.map Recoding.metric.length)).permuted (Equiv.refl Axis) :=
    PerAxis.ext_get fun axis => by
      simp only [PerAxis.permuted_refl, PerAxis.get_map, PerAxis.get_ofFn]
      exact w.value?_inMillimeters_of_length _ (hletter axis)
  have htarget := haxes Axis.letter (by intro axis; cases axis <;> decide)
  have hoffset := haxes Axis.offsetLetter (by intro axis; cases axis <;> decide)
  have hradius := w.value?_inMillimeters_of_length 'R' (by decide)
  have hfeed := w.value?_inMillimeters_of_length 'F' (by decide)
  have hdwell := w.value?_inMillimeters_of_not_length 'P' (by decide)
  have hspeed := w.value?_inMillimeters_of_not_length 'S' (by decide)
  have htool := w.value?_inMillimeters_of_not_length 'T' (by decide)
  have hplane : Plane.permuted (Recoding.metric (F := F)).axes = id := funext Plane.permuted_refl
  change (PerAxis.ofFn fun axis => w.inMillimeters.target? axis) =
    ((PerAxis.ofFn fun axis => w.target? axis).map _).permuted _ at htarget
  simp only [changes, Changes.recoded, nextAction?, motionMode?, units?, gCode?_inMillimeters,
    mCode?_inMillimeters, htarget, hoffset, hradius, hfeed, hdwell, hspeed, htool]
  rw [hplane, Option.map_id, id]
  rfl

/-- **A word told in millimetres** assigns what the word does, in millimetres. -/
theorem recodes_inMillimeters : w.Recodes .metric w.inMillimeters where
  isSupported := by
    by_cases h : w.letter ∈ lengthLetters
    · rw [isSupported_of_mem_lengthLetters _ h,
        isSupported_of_mem_lengthLetters _ (by rwa [letter_inMillimeters])]
    · rw [w.inMillimeters_of_not_mem h]
  changes := w.changes_inMillimeters
  eq_of_not_isSupported h :=
    w.inMillimeters_of_not_mem fun hlength => by
      rw [w.isSupported_of_mem_lengthLetters hlength] at h
      exact absurd h (by simp)

end Word

/-! ### Machines -/

namespace Simulator

/-- A machine with other units active. -/
def inUnits (m : Simulator F) (units : Units) : Simulator F :=
  { m with state := { m.state with units := units } }

/-- A machine takes lengths in inches, and feed rates as speeds, and has not switched its units
in this block. -/
structure WorksInInches (m : Simulator F) : Prop where
  units : m.state.units = .inches
  speeds : m.state.inverseFeedRate = false
  carried : m.carried = none

variable {m : Simulator F}

theorem WorksInInches.scale_eq (hm : m.WorksInInches) : m.scale = Units.inches.scale := by
  rw [scale, hm.units]

theorem scale_inUnits_millimeters (m : Simulator F) : (m.inUnits .millimeters).scale = 1 :=
  Number.one_eq

namespace WorksInInches

variable (hm : m.WorksInInches)
include hm

/-- The axes read in millimetres what they read in inches. -/
theorem workPosition_metric (axis : Axis) :
    (m.inUnits .millimeters).workPosition axis =
      Recoding.metric.length (m.workPosition axis) := by
  have hinch : (Units.inches.scale : F) ≠ 0 := Units.scale_ne_zero .inches
  rw [workPosition, workPosition, scale_inUnits_millimeters, hm.scale_eq, div_one]
  exact (div_mul_cancel₀ _ hinch).symm

/-- The one conversion of a target. -/
theorem axisToMachine_metric (axis : Axis) (value : F) :
    (m.inUnits .millimeters).axisToMachine axis (Recoding.metric.length value) =
      m.axisToMachine axis value := by
  have hstays (value : F) : m.isCarried axis value = false := by rw [isCarried, hm.carried]
  have hstays' (value : F) : (m.inUnits .millimeters).isCarried axis value = false := hstays value
  rw [axisToMachine, axisToMachine, hstays, hstays', scale_inUnits_millimeters, hm.scale_eq,
    mul_one]
  rfl

theorem toMachine_metric (target : PerAxis F) :
    (m.inUnits .millimeters).toMachine (Recoding.metric.onPoint target) = m.toMachine target := by
  refine PerAxis.ext_get fun axis => ?_
  rw [toMachine, toMachine, PerAxis.get_ofFn, PerAxis.get_ofFn, Recoding.get_onPoint_metric,
    hm.axisToMachine_metric]

theorem originFor_metric (point : PerAxis F) :
    (m.inUnits .millimeters).originFor (Recoding.metric.onPoint point) = m.originFor point := by
  refine PerAxis.ext_get fun axis => ?_
  rw [originFor, originFor, PerAxis.get_ofFn, PerAxis.get_ofFn, Recoding.get_onPoint_metric,
    hm.axisToMachine_metric]
  rfl

/-- The one conversion of a feed rate. -/
theorem storedFeedRate_metric (rate : F) :
    (m.inUnits .millimeters).storedFeedRate (Recoding.metric.length rate) =
      m.storedFeedRate rate := by
  have hspeeds : (m.inUnits .millimeters).state.inverseFeedRate = false := hm.speeds
  rw [storedFeedRate, storedFeedRate, hspeeds, hm.speeds, scale_inUnits_millimeters, hm.scale_eq,
    mul_one]
  rfl

/-- The faults of an arc are the same, apart from the lengths they name. -/
theorem checkArc_metric (target offset : PerAxis F) (radius : F) :
    ((m.inUnits .millimeters).checkArc target (Recoding.metric.onPoint offset)
        (Recoding.metric.length radius)).map (ArcFault.map fun _ => ()) =
      (m.checkArc target offset radius).map (ArcFault.map fun _ => ()) := by
  have hchord : (m.inUnits .millimeters).chord (m.inUnits .millimeters).state.position target =
      m.chord m.state.position target := rfl
  have hplane : (m.inUnits .millimeters).state.plane = m.state.plane := rfl
  have hcenter : (Recoding.metric.onPoint offset).inPlane m.state.plane =
      (Recoding.metric.length (offset.inPlane m.state.plane).1,
        Recoding.metric.length (offset.inPlane m.state.plane).2) := by
    cases m.state.plane <;> rfl
  simp only [checkArc, hchord, hplane, hcenter, Number.eq_zero_metric, Number.abs_metric,
    scale_inUnits_millimeters, hm.scale_eq, mul_one]
  split
  · rfl
  · split
    · rfl
    · split <;> rfl

/-- **A call is refused in millimetres if it is refused in inches**, with a fault of the same
kind. -/
theorem refusal?_metric (c : Call F) :
    ((m.inUnits .millimeters).refusal? (c.recoded .metric)).map (MachineFault.map fun _ => ()) =
      (m.refusal? c).map (MachineFault.map fun _ => ()) := by
  cases c with
  | feedRate rate =>
    have hunusable : isUnusable (Recoding.metric.length rate) = isUnusable rate :=
      congrArg (!true || ·) (Number.lt_zero_metric rate)
    have hspeeds : (m.inUnits .millimeters).state.inverseFeedRate = m.state.inverseFeedRate := rfl
    have hlimits : (m.inUnits .millimeters).limits = m.limits := rfl
    simp only [Call.recoded, refusal?, hunusable, hm.storedFeedRate_metric, hspeeds, hlimits]
    split
    · rfl
    · split <;> rfl
  | arc target offset radius mode =>
    have hlacks : (m.inUnits .millimeters).lacksFeedRate = m.lacksFeedRate := rfl
    have hinvalid (fault : Option (ArcFault F)) :
        (fault.map MachineFault.invalidArc).map (MachineFault.map fun _ => ()) =
          (fault.map (ArcFault.map fun _ => ())).map .invalidArc := by
      cases fault <;> rfl
    simp only [Call.recoded, refusal?, hlacks, hm.toMachine_metric]
    split
    · rfl
    · split
      · rfl
      · rw [hinvalid, hinvalid, hm.checkArc_metric]
  | _ => rfl

theorem entryOf_metric (c : Call F) :
    (m.inUnits .millimeters).entryOf (c.recoded .metric) = m.entryOf c := by
  cases c with
  | feedRate rate => exact congrArg Entry.feedRate (hm.storedFeedRate_metric rate)
  | plane plane => exact congrArg Entry.selectPlane plane.permuted_refl
  | originOffsets point => exact congrArg Entry.originOffsets (hm.originFor_metric point)
  | traverse target | feed target | arc target =>
    exact congrArg (Entry.motion _) (hm.toMachine_metric target)
  | _ => rfl

/-- **What is accepted in millimetres does what it does in inches.** -/
theorem accepted_metric {c : Call F} (hc : ∀ units, c ≠ .units units) :
    (m.inUnits .millimeters).accepted (c.recoded .metric) =
      (m.accepted c).inUnits .millimeters := by
  have hreplay : (m.entryOf c).replay (m.inUnits .millimeters).state =
      { (m.entryOf c).replay m.state with units := .millimeters } := by
    cases c with
    | units units => exact absurd rfl (hc units)
    | _ => rfl
  have hcarried : (m.inUnits .millimeters).carriedBehind (c.recoded .metric) =
      m.carriedBehind c := by
    cases c with
    | units units => exact absurd rfl (hc units)
    | _ => rfl
  simp only [accepted, hm.entryOf_metric, hreplay, hcarried]
  rfl

/-- A machine keeps working in inches, unless it is told otherwise. -/
theorem accepted {c : Call F} (hunits : ∀ units, c ≠ .units units)
    (hspeeds : c ≠ .inverseFeedRate true) : (m.accepted c).WorksInInches := by
  cases c with
  | units units => exact absurd rfl (hunits units)
  | inverseFeedRate enabled =>
    cases enabled with
    | true => exact absurd rfl hspeeds
    | false => exact ⟨hm.units, rfl, hm.carried⟩
  | _ => exact ⟨hm.units, hm.speeds, hm.carried⟩

end WorksInInches

end Simulator

/-- A machine that works in inches, told to work in millimetres.  Of the numbers that faults
name nothing is retained, as they are lengths in the units of the program. -/
def Transformation.metric : Transformation F Unit where
  onMachine m := m.inUnits .millimeters
  onCall := Call.recoded .metric
  value _ := ()
  Covers := Simulator.WorksInInches
  Admits c := (∀ units, c ≠ .units units) ∧ c ≠ .inverseFeedRate true
  beginBlock _ := rfl
  refusal hm _ := hm.refusal?_metric _
  accepted hm hc := hm.accepted_metric hc.1
  covers_beginBlock hm := ⟨hm.units, hm.speeds, rfl⟩
  covers_accepted hm hc := hm.accepted hc.1 hc.2

theorem Transformation.recodes_metric :
    (metric (F := F)).Recodes .metric where
  onCall := rfl
  ofMachine {m} hm := by
    have htarget : PerAxis.ofFn (m.inUnits .millimeters).workPosition =
        Recoding.metric.onPoint (.ofFn m.workPosition) :=
      PerAxis.ext_get fun axis => by
        rw [Recoding.get_onPoint_metric, PerAxis.get_ofFn, PerAxis.get_ofFn,
          hm.workPosition_metric]
    exact congrArg (Proposal.mk _ _ · {}) htarget

/-! ### Programs -/

namespace Word

variable {w : Word F}

theorem units?_eq_none (hinches : w.gCode? ≠ some 20) (hmillimeters : w.gCode? ≠ some 21) :
    w.units? = none := by
  cases hcode : w.gCode? with
  | none => rw [units?, hcode, Option.bind_none]
  | some code =>
    rw [hcode] at hinches hmillimeters
    rw [units?, hcode, Option.bind_some]
    unfold Units.ofCode?
    split
    · exact absurd rfl hinches
    · exact absurd rfl hmillimeters
    · rfl

theorem inverseFeedRate_changes_ne (h : w.gCode? ≠ some 93) :
    w.changes.inverseFeedRate ≠ some true := by
  intro htrue
  obtain ⟨code, hcode, hinverse⟩ := Option.bind_eq_some_iff.mp htrue
  unfold inverseFeedRateOfCode? at hinverse
  split at hinverse
  · exact h hcode
  · exact absurd hinverse (by simp)
  · exact absurd hinverse (by simp)

end Word

/-- Without a G20, a G21 and a G93 a block asks for no other units and for no inverse times. -/
theorem Session.admits_metric {s : Session (Simulator F)} {ws : List (Word F)}
    (hwords : ∀ w ∈ ws, w.gCode? ≠ some 20 ∧ w.gCode? ≠ some 21 ∧ w.gCode? ≠ some 93)
    {p : Proposal F} (hp : s.gathered ws = .ok p) :
    ∀ c ∈ p.plan, Transformation.metric.Admits c := by
  have hkeeps : p.changes.units = none ∧ p.changes.inverseFeedRate ≠ some true := by
    refine Proposal.keeps_foldlM
      (P := fun p => p.changes.units = none ∧ p.changes.inverseFeedRate ≠ some true)
      (fun w hw q hq => ?_) ⟨rfl, by simp [Proposal.ofMachine]⟩ hp
    obtain ⟨hinches, hmillimeters, hinverse⟩ := hwords w hw
    refine ⟨?_, ?_⟩
    · change w.units?.or q.changes.units = none
      rw [Word.units?_eq_none hinches hmillimeters, hq.1]
      rfl
    · change w.changes.inverseFeedRate.or q.changes.inverseFeedRate ≠ some true
      have hword := Word.inverseFeedRate_changes_ne hinverse
      cases h : w.changes.inverseFeedRate with
      | none => exact hq.2
      | some enabled => rwa [h] at hword
  intro c hc
  refine ⟨?_, ?_⟩
  · rintro units rfl
    have hasks : p.changes.units = some units := (p.mem_plan_iff _).mp hc
    rw [hkeeps.1] at hasks
    exact absurd hasks (by simp)
  · rintro rfl
    exact hkeeps.2 ((p.mem_plan_iff _).mp hc)

/-- A block comes to the same in inches and in millimetres.  Behind it the states differ in
their units only, and the journals do not differ; the calls that are made are the same ones,
told in either unit; and the last of them is refused in both with a fault of the same kind, or
in neither. -/
structure BlockReport.MetricTwin (r r' : BlockReport (Simulator F) F) : Prop where
  state : r'.session.machine.state = { r.session.machine.state with units := .millimeters }
  journal : r'.session.machine.journal = r.session.machine.journal
  flow : r'.session.flow = r.session.flow
  blocks : r'.session.blocks = r.session.blocks
  made : r'.made = r.made.map (Call.recoded .metric)
  result : r'.result.mapError (BlockFault.map fun _ => ()) =
    r.result.mapError (BlockFault.map fun _ => ())

theorem BlockReport.MetricTwin.of_matches {r r' : BlockReport (Simulator F) F}
    (h : Transformation.metric.Matches r r') : r.MetricTwin r' where
  state := by rw [h.session]; rfl
  journal := by rw [h.session]; rfl
  flow := by rw [h.session]; rfl
  blocks := by rw [h.session]; rfl
  made := h.made
  result := h.result

/-- **A program in inches does what its metric translation does.**

The blocks have no G20, no G21 and no G93, and are run on a machine in inches on which feed
rates are speeds.  The same blocks with the value of each X, Y, Z, I, J, K, R and F word
multiplied by the millimetres in an inch are run on the same machine in millimetres.  Then each
block comes to the same in both runs: the same calls are accepted and refused, a fault in one is
a fault of the same kind in the other, the journals are equal, and so are the states except for
their units. -/
theorem Session.metric_translation (s : Session (Simulator F)) (blocks : List (List (Word F)))
    (hspeeds : s.machine.state.inverseFeedRate = false)
    (hwords : ∀ ws ∈ blocks, ∀ w ∈ ws,
      w.gCode? ≠ some 20 ∧ w.gCode? ≠ some 21 ∧ w.gCode? ≠ some 93) :
    List.Forall₂ BlockReport.MetricTwin
      ((s.map (Simulator.inUnits · .inches)).runBlocks blocks)
      ((s.map (Simulator.inUnits · .millimeters)).runBlocks
        (blocks.map (List.map Word.inMillimeters))) := by
  have hmatches := Transformation.runBlocks (s := s.map (Simulator.inUnits · .inches))
    Transformation.recodes_metric ⟨rfl, hspeeds, rfl⟩
    (fun ws _ w _ => w.recodes_inMillimeters)
    (fun ws hws s p hp => admits_metric (hwords ws hws) hp)
  exact hmatches.imp fun _ _ h => .of_matches h

/-- An arc given by its radius, a new work zero, a feed rate that is too high in either unit,
and an arc whose radius is too small. -/
theorem Session.metric_translation_of_arcs :
    let s := Session.ofMachine (Simulator.ofState .standard (.initial : State ℚ))
    let blocks : List (List (Word ℚ)) :=
      [[⟨'F', 100⟩, ⟨'G', 2⟩, ⟨'X', 3⟩, ⟨'Y', 4⟩, ⟨'R', 5 / 2⟩], [⟨'G', 92⟩, ⟨'X', 1⟩],
        [⟨'G', 1⟩, ⟨'Z', 2⟩, ⟨'F', 400⟩], [⟨'G', 3⟩, ⟨'X', 9⟩, ⟨'R', 1⟩]]
    let inches := (s.map (Simulator.inUnits · .inches)).runBlocks blocks
    List.Forall₂ BlockReport.MetricTwin inches
        ((s.map (Simulator.inUnits · .millimeters)).runBlocks
          (blocks.map (List.map Word.inMillimeters))) ∧
      inches.map (·.result.isOk) = [true, true, false, false] := by
  intro s blocks inches
  exact ⟨metric_translation s blocks (by decide) (by decide +kernel), by decide +kernel⟩

end NumericControl
