import NumericControl.Proofs.WordOrder

/-!
# The last assignment counts

A proposal keeps some of its values twice: the operation, the motion mode and the targets as
the words leave them, and beside them every field that a word assigned.  Words write both, a
G0 to G3 and a G92 write two fields, and a G80 writes the motion mode without the operation.
Here it is shown that the two copies never come apart.  The fields are told one by one: each
holds what the last word says that has a meaning and says anything of it, and the effective
values are those fields, or what was carried.

Words are applied here one behind another whatever becomes of them, so a word without a meaning
stands anywhere in the list.  It is passed over as if it were not there.

## Main definitions

* `Field`, `Changes.get` — the fields that words assign, with the type of their values.
* `Field.flags` — the fields that are raised only.
* `Proposal.applyEach` — the proposal after words, of which those without a meaning are passed
  over.
* `Word.assignments` — what words assign, one behind another.
* `Word.isIgnored` — a word has a meaning and does nothing.

## Main results

* `Changes.get_over`, `Word.get_assignments` — **a field holds what the last word says of it**.
* `Proposal.applyEach_eq` — words make the assignments of those that have a meaning.
* `Proposal.last_assignment_counts` — what words make of a proposal, field by field.
-/

namespace NumericControl

/-! ### Fields -/

/-- A field that words assign, with the type of its values.  Each axis has its own target and
its own offset. -/
inductive Field (α : Type) : Type → Type
  | nextAction : Field α NextAction
  | motionMode : Field α MotionMode
  | target (axis : Axis) : Field α α
  | offset (axis : Axis) : Field α α
  | radius : Field α α
  | feedRate : Field α α
  | dwellTime : Field α α
  | spindleSpeed : Field α α
  | spindleMode : Field α SpindleMode
  | tool : Field α UInt32
  | changeTool : Field α Bool
  | plane : Field α Plane
  | units : Field α Units
  | distanceMode : Field α DistanceMode
  | inverseFeedRate : Field α Bool
  | absoluteOverride : Field α Bool
  | originOffset : Field α Bool
  | programFlow : Field α ProgramFlow

/-- The fields that are raised and never taken down: the tool change, the absolute override and
the origin offset. -/
def Field.flags {α : Type} : List (Field α Bool) :=
  [.changeTool, .absoluteOverride, .originOffset]

namespace Changes

variable {α β : Type}

/-- What is assigned to a field. -/
def get (c : Changes α) : {β : Type} → Field α β → Option β
  | _, .nextAction => c.nextAction
  | _, .motionMode => c.motionMode
  | _, .target axis => c.target.get axis
  | _, .offset axis => c.offset.get axis
  | _, .radius => c.radius
  | _, .feedRate => c.feedRate
  | _, .dwellTime => c.dwellTime
  | _, .spindleSpeed => c.spindleSpeed
  | _, .spindleMode => c.spindleMode
  | _, .tool => c.tool
  | _, .changeTool => c.changeTool
  | _, .plane => c.plane
  | _, .units => c.units
  | _, .distanceMode => c.distanceMode
  | _, .inverseFeedRate => c.inverseFeedRate
  | _, .absoluteOverride => c.absoluteOverride
  | _, .originOffset => c.originOffset
  | _, .programFlow => c.programFlow

/-- Assignments that agree on every field are the same. -/
theorem ext_get {c d : Changes α}
    (h : ∀ (β : Type) (field : Field α β), c.get field = d.get field) : c = d := by
  have htarget : c.target = d.target := PerAxis.ext_get fun axis => h _ (.target axis)
  have hoffset : c.offset = d.offset := PerAxis.ext_get fun axis => h _ (.offset axis)
  cases c
  cases d
  simp only [mk.injEq]
  exact ⟨h _ .nextAction, h _ .motionMode, htarget, hoffset, h _ .radius, h _ .feedRate,
    h _ .dwellTime, h _ .spindleSpeed, h _ .spindleMode, h _ .tool, h _ .changeTool, h _ .plane,
    h _ .units, h _ .distanceMode, h _ .inverseFeedRate, h _ .absoluteOverride,
    h _ .originOffset, h _ .programFlow⟩

@[simp] theorem get_empty (field : Field α β) : ({} : Changes α).get field = none := by
  cases field with
  | target axis => exact PerAxis.get_replicate none axis
  | offset axis => exact PerAxis.get_replicate none axis
  | _ => rfl

/-- **A field that is not assigned over another one leaves it.** -/
@[simp] theorem get_over (c base : Changes α) (field : Field α β) :
    (c.over base).get field = (c.get field).or (base.get field) := by
  cases field with
  | target axis => exact PerAxis.get_zipWith Option.or c.target base.target axis
  | offset axis => exact PerAxis.get_zipWith Option.or c.offset base.offset axis
  | _ => rfl

theorem over_empty (c : Changes α) : c.over {} = c :=
  ext_get fun β field => by rw [get_over, get_empty, Option.or_none]

theorem empty_over (c : Changes α) : ({} : Changes α).over c = c :=
  ext_get fun β field => by rw [get_over, get_empty, Option.none_or]

end Changes

/-! ### What words say last -/

section

variable {α β : Type} {say : Word α → Option β}

/-- What no word says is not said last. -/
theorem lastOf_ne {b : β} (h : ∀ w, say w ≠ some b) (ws : List (Word α)) :
    lastOf say ws ≠ some b := by
  intro hlast
  obtain ⟨w, -, hw⟩ := exists_of_lastOf say hlast
  exact h w hw

/-- If one of the words says anything, there is a last one. -/
theorem isSome_lastOf {w : Word α} {ws : List (Word α)} (hw : w ∈ ws)
    (hsay : (say w).isSome = true) : (lastOf say ws).isSome = true := by
  obtain ⟨b, hb⟩ := Option.isSome_iff_exists.mp hsay
  rw [lastOf, List.getLast?_isSome]
  exact List.ne_nil_of_mem (List.mem_filterMap.mpr ⟨w, hw, hb⟩)

end

theorem NextAction.ofCode?_ne_none (code : Int) : ofCode? code ≠ some .none := by
  unfold ofCode?
  split <;> simp

theorem flagOfCode?_ne_false (flag code : Int) : flagOfCode? flag code ≠ some false := by
  unfold flagOfCode?
  split <;> simp

namespace Word

variable {α β : Type} [Number α]

/-- What words assign, the later ones over the earlier. -/
def assignments (ws : List (Word α)) : Changes α :=
  ws.foldr (fun w later => later.over w.changes) {}

/-- **A field holds what the last word says of it.** -/
theorem get_assignments (ws : List (Word α)) (field : Field α β) :
    (assignments ws).get field = lastOf (fun w => w.changes.get field) ws := by
  induction ws with
  | nil => exact Changes.get_empty field
  | cons w ws ih =>
    rw [← List.singleton_append, lastOf_append, lastOf_singleton, ← ih]
    exact Changes.get_over _ _ field

/-- What no word says of a field is not assigned to it. -/
theorem get_assignments_ne (field : Field α β) {b : β}
    (h : ∀ w : Word α, w.changes.get field ≠ some b) (ws : List (Word α)) :
    (assignments ws).get field ≠ some b := by
  rw [get_assignments]
  exact lastOf_ne h ws

/-- No word asks for no operation. -/
theorem get_nextAction_ne_none (w : Word α) : w.changes.get .nextAction ≠ some .none := by
  intro h
  obtain ⟨code, -, hcode⟩ := Option.bind_eq_some_iff.mp h
  exact NextAction.ofCode?_ne_none code hcode

/-- No word takes a flag down. -/
theorem get_flag_ne_false {flag : Field α Bool} (h : flag ∈ Field.flags) (w : Word α) :
    w.changes.get flag ≠ some false := by
  have hbind (n : Int) (code : Option Int) : code.bind (flagOfCode? n) ≠ some false := by
    intro h
    obtain ⟨m, -, hm⟩ := Option.bind_eq_some_iff.mp h
    exact flagOfCode?_ne_false n m hm
  simp only [Field.flags, List.mem_cons, List.not_mem_nil, or_false] at h
  rcases h with rfl | rfl | rfl
  · exact hbind 6 w.mCode?
  · exact hbind 53 w.gCode?
  · exact hbind 92 w.gCode?

/-- A word has a meaning and does nothing: a line number, the end of a compensation, the exact
path, the coolant and the overrides. -/
def isIgnored (w : Word α) : Bool :=
  w.letter == 'N' || w.gCode?.any [40, 49, 61].contains || w.mCode?.any [7, 8, 9, 48, 49].contains

theorem exists_of_gCode? {w : Word α} {code : Int} (h : w.gCode? = some code) :
    ∃ value, w = ⟨'G', value⟩ ∧ Number.toInt value = code := by
  obtain ⟨hletter, hcode⟩ := Option.ite_none_right_eq_some.mp h
  exact ⟨w.value, by rw [← hletter], Option.some.inj hcode⟩

theorem exists_of_mCode? {w : Word α} {code : Int} (h : w.mCode? = some code) :
    ∃ value, w = ⟨'M', value⟩ ∧ Number.toInt value = code := by
  obtain ⟨hletter, hcode⟩ := Option.ite_none_right_eq_some.mp h
  exact ⟨w.value, by rw [← hletter], Option.some.inj hcode⟩

/-- **A word that is ignored has a meaning, and assigns nothing.** -/
theorem changes_of_isIgnored {w : Word α} (h : w.isIgnored = true) :
    w.isSupported = true ∧ w.changes = {} := by
  simp only [isIgnored, Bool.or_eq_true, beq_iff_eq, Option.any_eq_true, List.contains_iff_mem] at h
  rcases h with (hletter | ⟨code, hcode, hmem⟩) | ⟨code, hcode, hmem⟩
  · obtain ⟨letter, value⟩ := w
    obtain rfl : letter = 'N' := hletter
    exact ⟨rfl, rfl⟩
  · obtain ⟨value, rfl, hvalue⟩ := exists_of_gCode? hcode
    simp only [List.mem_cons, List.not_mem_nil, or_false] at hmem
    rw [isSupported, changes_g, hvalue]
    rcases hmem with rfl | rfl | rfl <;> exact ⟨rfl, rfl⟩
  · obtain ⟨value, rfl, hvalue⟩ := exists_of_mCode? hcode
    simp only [List.mem_cons, List.not_mem_nil, or_false] at hmem
    rw [isSupported, changes_m, hvalue]
    rcases hmem with rfl | rfl | rfl | rfl | rfl <;> exact ⟨rfl, rfl⟩

/-- A G92 has a meaning, and asks for an operation. -/
theorem nextAction?_of_gCode? {w : Word α} (h : w.gCode? = some 92) :
    w.isSupported = true ∧ w.nextAction? = some .offsetCoordinates := by
  rw [nextAction?, h]
  obtain ⟨value, rfl, hvalue⟩ := exists_of_gCode? h
  rw [isSupported, hvalue]
  exact ⟨rfl, rfl⟩

end Word

/-! ### Words one behind another -/

namespace Proposal

variable {α : Type}

theorem assign_empty (p : Proposal α) : p.assign {} = p := by
  have htarget : PerAxis.zipWith Option.getD (.replicate none) p.target = p.target :=
    PerAxis.ext_get fun axis => by rw [PerAxis.get_zipWith, PerAxis.get_replicate, Option.getD_none]
  rw [assign, Changes.empty_over, htarget]
  rfl

variable [Number α]

/-- The proposal after words, each of which is applied to what those before it left.  A word
without a meaning is a fault, and the next one is applied all the same. -/
def applyEach (p : Proposal α) : List (Word α) → Proposal α
  | [] => p
  | w :: ws =>
    match p.apply w with
    | .ok q => q.applyEach ws
    | .error _ => p.applyEach ws

theorem apply_of_not_isSupported {w : Word α} (h : w.isSupported = false) (p : Proposal α) :
    p.apply w = .error (.unsupportedWord w.letter w.value) := by
  rw [apply, applied?_eq, if_neg (by simp [h])]

/-- A word that is a fault has no meaning. -/
theorem not_isSupported_of_apply {p : Proposal α} {w : Word α} {f : BlockFault α}
    (h : p.apply w = .error f) : w.isSupported = false := by
  cases hw : w.isSupported with
  | false => rfl
  | true => exact absurd (h.symm.trans (apply_of_isSupported hw p)) (by simp)

/-- **Words make the assignments of those that have a meaning.** -/
theorem applyEach_eq (p : Proposal α) (ws : List (Word α)) :
    p.applyEach ws = p.assign (Word.assignments (ws.filter Word.isSupported)) := by
  induction ws generalizing p with
  | nil => exact p.assign_empty.symm
  | cons w ws ih =>
    rw [applyEach]
    cases hw : w.isSupported with
    | false =>
      rw [apply_of_not_isSupported hw, List.filter_cons_of_neg (by simp [hw])]
      exact ih p
    | true =>
      rw [apply_of_isSupported hw, List.filter_cons_of_pos hw]
      exact (ih _).trans (assign_assign p _ _)

/-- **Of every field the last word with a meaning counts that says anything of it.**

Words are applied to a proposal that assigns nothing, one behind another, also those behind a
word without a meaning.  Then every field holds what the last of the words with a meaning says
of it, and is not assigned if none says anything.  The operation, the motion mode and the target
of an axis are those assigned, or the carried ones.  No operation is never asked for, no flag is
ever taken down, and wherever a G92 stands an operation is asked for.

A word is applied exactly if it has a meaning.  One without a meaning is a fault and changes
nothing, so that it might as well not be there; and a word that is ignored is no fault, and
changes nothing either. -/
theorem last_assignment_counts (action : NextAction) (mode : MotionMode) (target : PerAxis α)
    (ws : List (Word α)) :
    let q : Proposal α := applyEach ⟨action, mode, target, {}⟩ ws
    (∀ (β : Type) (field : Field α β),
      q.changes.get field =
        lastOf (fun w => w.changes.get field) (ws.filter Word.isSupported)) ∧
    (q.nextAction = q.changes.nextAction.getD action ∧
      q.motionMode = q.changes.motionMode.getD mode ∧
      ∀ axis, q.target.get axis = (q.changes.target.get axis).getD (target.get axis)) ∧
    q.changes.nextAction ≠ some .none ∧
    (∀ flag ∈ Field.flags, q.changes.get flag ≠ some false) ∧
    ((∃ w ∈ ws, w.gCode? = some 92) → q.changes.nextAction.isSome = true) ∧
    ∀ (p : Proposal α) (w : Word α),
      ((∃ p', p.apply w = .ok p') ↔ w.isSupported = true) ∧
      (∀ f, p.apply w = .error f → ∀ before after,
        p.applyEach (before ++ w :: after) = p.applyEach (before ++ after)) ∧
      (w.isIgnored = true → p.apply w = .ok p) := by
  intro q
  have hq : q = assign ⟨action, mode, target, {}⟩ (Word.assignments (ws.filter Word.isSupported)) :=
    applyEach_eq _ ws
  have hchanges : q.changes = Word.assignments (ws.filter Word.isSupported) := by
    rw [hq, assign, Changes.over_empty]
  have hfield (β : Type) (field : Field α β) : q.changes.get field =
      lastOf (fun w => w.changes.get field) (ws.filter Word.isSupported) := by
    rw [hchanges, Word.get_assignments]
  refine ⟨hfield, ⟨?_, ?_, fun axis => ?_⟩, ?_, ?_, ?_, fun p w => ⟨?_, ?_, ?_⟩⟩
  · rw [hchanges, hq, assign]
  · rw [hchanges, hq, assign]
  · rw [hchanges, hq, assign, PerAxis.get_zipWith]
  · rw [hchanges]
    exact Word.get_assignments_ne .nextAction (Word.get_nextAction_ne_none (α := α)) _
  · intro flag hflag
    rw [hchanges]
    exact Word.get_assignments_ne flag (Word.get_flag_ne_false hflag) _
  · rintro ⟨w, hw, hcode⟩
    obtain ⟨hsupported, hsay⟩ := Word.nextAction?_of_gCode? hcode
    have hmem : w ∈ ws.filter Word.isSupported := List.mem_filter.mpr ⟨hw, hsupported⟩
    exact (congrArg Option.isSome (hfield _ .nextAction)).trans
      (isSome_lastOf hmem (congrArg Option.isSome hsay))
  · cases hw : w.isSupported with
    | false => simp [apply_of_not_isSupported hw]
    | true => simp [apply_of_isSupported hw]
  · intro f hf before after
    have hw := not_isSupported_of_apply hf
    rw [applyEach_eq, applyEach_eq, List.filter_append, List.filter_append,
      List.filter_cons_of_neg (by simp [hw])]
  · intro h
    obtain ⟨hsupported, hnothing⟩ := Word.changes_of_isIgnored h
    rw [apply_of_isSupported hsupported, hnothing, assign_empty]

/-- Behind a G1 a G80 takes the mode back and leaves the motion asked for, also across a word
without a meaning. -/
example :
    let q : Proposal ℚ := applyEach ⟨.none, .straightTraverse, .replicate 0, {}⟩
      [⟨'G', 1⟩, ⟨'T', -2⟩, ⟨'G', 80⟩]
    q.changes.motionMode = some .cancel ∧ q.changes.nextAction = some .motion ∧
      q.changes.tool = none := by
  decide +kernel

end Proposal

end NumericControl
