import NumericControl.Binary64.Arithmetic
import NumericControl.Proofs.Journal
import NumericControl.Proofs.LineWords

/-!
# Lines of settings

A block without a word for a motion, a target or a centre still carries the operation of
the blocks before it, and repeats it where the machine stands.  A traverse that goes
nowhere is always accepted, and so is a straight feed once there is a feed rate.  An arc
is not: its centre was given in the block of the arc and is not carried.  So a line of
settings does all that it asks for, and may yet fail.

## Main definitions

* `Word.isSetting` — a word that says nothing of motion.
* `Session.IsSettings` — a line is a block of such words.
* `Proposal.SameMotion` — two proposals ask for the same operation.

## Main results

* `Proposal.sameMotion_of_foldlM` — settings leave the operation that is carried.
* `Session.settings_always_ok_false` — a line of settings may fail at its motion.
* `Session.result_of_settings` — **how a line ends whose settings are accepted**.
-/

namespace NumericControl

/-! ### Words without motion -/

/-- The G codes that say nothing of motion. -/
def settingCodes : List Int :=
  [17, 18, 19, 20, 21, 40, 49, 53, 61, 90, 91, 93, 94]

/-- Whether a word says nothing of a motion, a target, a centre or a pause. -/
def Word.isSetting {α : Type} [Number α] (w : Word α) : Bool :=
  match w.letter with
  | 'F' | 'S' | 'T' | 'N' | 'M' => true
  | 'G' => settingCodes.contains (Number.toInt w.value)
  | _ => false

/-- A setting assigns nothing of an operation. -/
theorem Word.changes_of_isSetting {α : Type} [Number α] {w : Word α} (hw : w.isSetting = true) :
    w.changes.nextAction = none ∧ w.changes.motionMode = none ∧
      w.changes.target = .replicate none ∧ w.changes.offset = .replicate none ∧
      w.changes.radius = none := by
  obtain ⟨letter, value⟩ := w
  unfold isSetting at hw
  dsimp only at hw
  split at hw
  case h_6 =>
    -- a G word assigns through its code
    change NextAction.ofCode? (Number.toInt value) = none ∧
      MotionMode.ofCode? (Number.toInt value) = none ∧ _
    generalize Number.toInt value = code at hw ⊢
    simp only [settingCodes, List.contains_cons, List.contains_nil, Bool.or_false, Bool.or_eq_true,
      beq_iff_eq] at hw
    rcases hw with rfl | rfl | rfl | rfl | rfl | rfl | rfl | rfl | rfl | rfl | rfl | rfl | rfl <;>
      exact ⟨rfl, rfl, rfl, rfl, rfl⟩
  case h_7 => exact absurd hw (by simp)
  all_goals exact ⟨rfl, rfl, rfl, rfl, rfl⟩

namespace Proposal

variable {α : Type} {p q r : Proposal α}

/-- Two proposals ask for the same operation, with the same words for it. -/
structure SameMotion (p q : Proposal α) : Prop where
  nextAction : q.nextAction = p.nextAction
  motionMode : q.motionMode = p.motionMode
  target : q.target = p.target
  offset : q.changes.offset = p.changes.offset
  radius : q.changes.radius = p.changes.radius

theorem SameMotion.refl (p : Proposal α) : SameMotion p p :=
  ⟨rfl, rfl, rfl, rfl, rfl⟩

theorem SameMotion.trans (h : SameMotion p q) (h' : SameMotion q r) : SameMotion p r :=
  ⟨h'.nextAction.trans h.nextAction, h'.motionMode.trans h.motionMode, h'.target.trans h.target,
    h'.offset.trans h.offset, h'.radius.trans h.radius⟩

variable [Number α]

/-- A setting leaves the operation as it is. -/
theorem sameMotion_of_apply {w : Word α} (hw : w.isSetting = true) (h : p.apply w = .ok q) :
    SameMotion p q := by
  obtain ⟨-, rfl⟩ := eq_assign_of_apply h
  obtain ⟨haction, hmode, htarget, hoffset, hradius⟩ := Word.changes_of_isSetting hw
  refine ⟨?_, ?_, ?_, ?_, ?_⟩
  · rw [assign, haction, Option.getD_none]
  · rw [assign, hmode, Option.getD_none]
  · rw [assign, htarget]
    rfl
  · rw [assign, Changes.over, hoffset]
    rfl
  · rw [assign, Changes.over, hradius, Option.none_or]

/-- Settings leave the operation that is carried. -/
theorem sameMotion_of_foldlM {ws : List (Word α)} (hws : ∀ w ∈ ws, w.isSetting = true)
    (h : ws.foldlM apply p = .ok q) : SameMotion p q := by
  induction ws generalizing p with
  | nil =>
    obtain rfl : p = q := Except.ok.inj h
    exact .refl p
  | cons w ws ih =>
    obtain ⟨hfirst, hws⟩ := List.forall_mem_cons.mp hws
    obtain ⟨p', hw, h⟩ := exists_apply_of_foldlM h
    exact (sameMotion_of_apply hfirst hw).trans (ih hws h)

end Proposal

/-! ### What is carried -/

namespace Simulator

/-- A straight feed needs a feed rate, and nothing else. -/
theorem fault_of_feed {α : Type} [Number α] (m : Simulator α) (target : PerAxis α) :
    (m.perform (.feed target)).2 = if m.lacksFeedRate then some .feedRateNotSet else none :=
  m.snd_perform (.feed target)

/-- An arc without a radius and a centre is never accepted. -/
theorem fault_of_arc (m : Simulator Binary64) (target : PerAxis Binary64) {mode : MotionMode}
    (hmode : mode.isArc = true) :
    (m.perform (.arc target (.replicate Number.zero) Number.zero mode)).2 =
      if m.lacksFeedRate then some .feedRateNotSet else some (.invalidArc .noCenter) := by
  have hzero : Number.eq (Number.zero : Binary64) Number.zero = true := by decide +kernel
  have hcheck : m.checkArc (m.toMachine target) (.replicate Number.zero) Number.zero
      = some .noCenter := by
    rw [checkArc, if_pos hzero]
    cases m.state.plane <;> simp [PerAxis.inPlane, PerAxis.replicate, hzero]
  refine (m.snd_perform _).trans ?_
  simp only [refusal?, hmode, hcheck, Bool.not_true, Bool.false_eq_true, if_false, Option.map_some]

end Simulator

namespace Session

section

variable {σ α : Type} [Number α] [Machine σ α]

/-- A line is a block, and all of its words are settings. -/
def IsSettings (s : Session σ) (raw : List Char) (p : Proposal α) : Prop :=
  ∃ b ws, normalize (α := α) raw = .ok b ∧ b.IsCommand ∧
    (WordReader.ofText b.command).words = .ok ws ∧ (∀ w ∈ ws, w.isSetting = true) ∧
    ws.foldlM Proposal.apply (Proposal.ofMachine (Machine.beginBlock s.machine)) = .ok p

variable {s : Session σ} {raw : List Char} {p : Proposal α}

theorem IsSettings.isBlock (h : s.IsSettings raw p) : s.IsBlock raw p := by
  obtain ⟨b, ws, hn, hb, hws, -, hp⟩ := h
  exact ⟨b, ws, hn, hb, hws, hp⟩

/-- A line of settings asks for the motion that is carried. -/
theorem IsSettings.sameMotion (h : s.IsSettings raw p) :
    Proposal.SameMotion (Proposal.ofMachine (Machine.beginBlock s.machine)) p := by
  obtain ⟨b, ws, -, -, -, hsettings, hp⟩ := h
  exact Proposal.sameMotion_of_foldlM hsettings hp

/-- A block whose settings are accepted ends as its operation does. -/
theorem result_of_operation {m : σ} (h : s.IsBlock raw p)
    (hset : Machine.run (Machine.beginBlock s.machine) p.settings = (m, none)) :
    (s.step raw).2.result = ended (Machine.run m p.operation).2 := by
  rw [result_of_isBlock h, performed, Proposal.plan, Machine.run_append hset]

end

/-! ### A line of settings behind others -/

/-- The session of a new machine behind some lines. -/
def behindLines (lines : List (List Char)) : Session (Simulator Binary64) :=
  (ofMachine (.ofState .standard .initial)).through lines

/-- The proposal of a line that asks for millimetres only. -/
def metric (s : Session (Simulator Binary64)) : Proposal Binary64 :=
  { Proposal.ofMachine (Machine.beginBlock s.machine) with
    changes := { units := some .millimeters } }

theorem isSettings_metric (s : Session (Simulator Binary64)) :
    s.IsSettings "G21".toList s.metric := by
  have hwords : (WordReader.ofText "G21".toList).words (α := Binary64)
      = .ok [⟨'G', Number.ofDecimal (.ofNat 21)⟩] := by
    have hfirst : (WordReader.ofText "G21".toList).next (α := Binary64)
        = (.word ⟨'G', Number.ofDecimal (.ofNat 21)⟩, ⟨[], 3⟩) := by decide +kernel
    rw [WordReader.words_of_word hfirst, WordReader.words_of_done rfl]
    rfl
  have hcode : Number.toInt (Number.ofDecimal (.ofNat 21) : Binary64) = 21 := by decide +kernel
  refine ⟨⟨"G21".toList, none⟩, _, rfl, ⟨rfl, rfl⟩, hwords, ?_, ?_⟩
  · intro w hw
    rw [List.mem_singleton.mp hw, Word.isSetting, hcode]
    rfl
  · rw [List.foldlM_cons, Proposal.apply, Proposal.applied?, Proposal.codeOf, hcode]
    rfl

/-! ### How a line of settings ends -/

/-- **How a line of settings ends** if the machine accepts all that it asks for.

It is executed unless a motion is carried that cannot be repeated: a straight feed
without a feed rate, or an arc, whose centre is not carried with it.

The fault of a missing feed rate is stated outside inverse-time mode only, though the proof
does not need this.  The machine is specified (section 18) to ask for a feed rate only outside
that mode, whereas `Simulator.lacksFeedRate` looks at the rate in either mode.  So what a feed
or an arc without a feed rate comes to in inverse-time mode is left out on purpose: that it
fails there is neither promised nor denied. -/
theorem result_of_settings (s : Session (Simulator Binary64)) {raw : List Char}
    {p : Proposal Binary64} {m : Simulator Binary64} (hline : s.IsSettings raw p)
    (hset : Machine.run (Machine.beginBlock s.machine) p.settings = (m, none)) :
    (s.machine.state.nextAction ≠ .motion → (s.step raw).2.result = .ok .ok) ∧
    (s.machine.state.nextAction = .motion →
      match s.machine.state.motionMode with
      | .straightTraverse | .cancel => (s.step raw).2.result = .ok .ok
      | .straightFeed =>
        (m.lacksFeedRate = false → (s.step raw).2.result = .ok .ok) ∧
        (m.lacksFeedRate = true → m.state.inverseFeedRate = false →
          (s.step raw).2.result = .error (.machine .feedRateNotSet))
      | .cwArc | .ccwArc =>
        (m.lacksFeedRate = false →
          (s.step raw).2.result = .error (.machine (.invalidArc .noCenter))) ∧
        (m.lacksFeedRate = true → m.state.inverseFeedRate = false →
          (s.step raw).2.result = .error (.machine .feedRateNotSet))) := by
  rw [result_of_operation hline.isBlock hset]
  have hsame := hline.sameMotion
  have haction : p.nextAction = s.machine.state.nextAction := hsame.nextAction
  have hmode : p.motionMode = s.machine.state.motionMode := hsame.motionMode
  have hoffset : p.changes.offset.map (·.getD Number.zero) = .replicate Number.zero := by
    rw [hsame.offset]
    rfl
  have hradius : p.changes.radius.getD Number.zero = Number.zero := by
    rw [hsame.radius]
    rfl
  rw [← haction, ← hmode]
  refine ⟨?_, ?_⟩
  -- without a motion there is nothing that could be refused
  · intro hnone
    unfold Proposal.operation
    cases h : p.nextAction with
    | motion => exact absurd h hnone
    | _ => rfl
  · intro hmotion
    have hmove : p.operation = p.move := by rw [Proposal.operation, hmotion]
    rw [hmove, Proposal.move, hoffset, hradius]
    cases p.motionMode with
    | straightTraverse | cancel => rfl
    | straightFeed =>
      rw [Machine.run_singleton]
      change (_ → ended (m.perform _).2 = _) ∧ (_ → _ → ended (m.perform _).2 = _)
      rw [m.fault_of_feed]
      refine ⟨fun hrate => ?_, fun hrate _ => ?_⟩ <;> rw [hrate] <;> rfl
    | cwArc | ccwArc =>
      -- no word of the line gives a centre or a radius
      rw [Machine.run_singleton]
      change (_ → ended (m.perform _).2 = _) ∧ (_ → _ → ended (m.perform _).2 = _)
      rw [m.fault_of_arc p.target rfl]
      refine ⟨fun hrate => ?_, fun hrate _ => ?_⟩ <;> rw [hrate] <;> rfl

/-- Behind a straight feed with a feed rate a line that asks for millimetres is executed,
and the feed is repeated where the machine stands. -/
theorem result_of_settings_behind_feed :
    let s := behindLines ["G1 X1 F100".toList]
    s.IsSettings "G21".toList s.metric ∧
      (Machine.run (Machine.beginBlock s.machine) s.metric.settings).2 = none ∧
      (s.step "G21".toList).2.result = .ok .ok := by
  intro s
  have hset : (Machine.run (Machine.beginBlock s.machine) s.metric.settings).2 = none := by
    decide +kernel
  have hrate : (Machine.run (Machine.beginBlock s.machine) s.metric.settings).1.lacksFeedRate
      = false := by decide +kernel
  have hmode : s.machine.state.motionMode = .straightFeed := by decide +kernel
  have hresult := (result_of_settings s (isSettings_metric s) (Prod.ext rfl hset)).2
    (by decide +kernel)
  rw [hmode] at hresult
  exact ⟨isSettings_metric s, hset, hresult.1 hrate⟩

/-- Behind an arc a line that asks for millimetres fails, though its only setting is
accepted: not every line of settings is executed. -/
theorem settings_always_ok_false :
    ¬ ∀ (lines : List (List Char)) (raw : List Char) (p : Proposal Binary64),
      (behindLines lines).IsSettings raw p →
      (Machine.run (Machine.beginBlock (behindLines lines).machine) p.settings).2 = none →
      ((behindLines lines).step raw).2.result = .ok .ok := by
  intro h
  have hok := h ["G2 X10 I5 F100".toList] "G21".toList _ (isSettings_metric _) (by decide +kernel)
  have hfault : ((behindLines ["G2 X10 I5 F100".toList]).step "G21".toList).2.result.toOption
      = none := by decide +kernel
  rw [hok] at hfault
  exact absurd hfault (by simp [Except.toOption])

end Session

end NumericControl
