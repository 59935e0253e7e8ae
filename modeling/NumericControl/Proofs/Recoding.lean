import Mathlib.Data.List.Forall2
import Mathlib.Logic.Equiv.Defs
import NumericControl.Proofs.LineWords
import NumericControl.Proofs.Transformation

/-!
# Blocks written otherwise

The same block can be written in more than one way: with its axes named otherwise, or with
its lengths told in another unit.  If each word is written otherwise then the proposal, and
the calls of the plan, are what they were, written otherwise; that much does not depend on
the machine.  So a machine under a transformation does with the words of the new writing what
the machine does with those of the old one, if the transformation takes each call to the one
of the new writing, and each axis reads as the new writing says.

Only three things in a block are written otherwise: which axis a value belongs to, which
plane arcs lie in, and what stands for a length.

## Main definitions

* `PerAxis.permuted`, `Plane.permuted` — axes and planes under a permutation of the axes.
* `Recoding` — a way of writing blocks otherwise.
* `Changes.recoded`, `Proposal.recoded`, `Call.recoded` — what is gathered from words, and
  what is asked of a machine, in the new writing.
* `Word.Recodes` — a word is another one in the new writing.
* `Transformation.Recodes` — a transformation goes with a way of writing.

## Main results

* `Proposal.plan_recoded` — **the plan in the new writing**.
* `Proposal.foldlM_apply_recoded` — words of the new writing make the proposal of it.
* `Transformation.runBlocks` — **blocks of the new writing do the same**.
-/

namespace NumericControl

variable {α β : Type}

/-! ### Permutations of the axes -/

namespace PerAxis

/-- The value of each axis given to the one that it is permuted to. -/
def permuted (π : Equiv.Perm Axis) (v : PerAxis α) : PerAxis α :=
  .ofFn fun axis => v.get (π.symm axis)

@[simp] theorem get_permuted (π : Equiv.Perm Axis) (v : PerAxis α) (axis : Axis) :
    (v.permuted π).get axis = v.get (π.symm axis) :=
  get_ofFn _ _

@[simp] theorem permuted_refl (v : PerAxis α) : v.permuted (Equiv.refl Axis) = v :=
  rfl

@[simp] theorem permuted_replicate (π : Equiv.Perm Axis) (a : α) :
    (replicate a).permuted π = replicate a :=
  ext_get fun axis => by rw [get_permuted, get_replicate, get_replicate]

theorem permuted_set (π : Equiv.Perm Axis) (v : PerAxis α) (axis : Axis) (a : α) :
    (v.set axis a).permuted π = (v.permuted π).set (π axis) a :=
  ext_get fun other => by
    simp only [get_permuted, get_set, Equiv.symm_apply_eq]

end PerAxis

/-- The axis that is normal to a plane. -/
def Plane.normal : Plane → Axis
  | .xy => .z
  | .xz => .y
  | .yz => .x

/-- The plane that is normal to an axis. -/
def Axis.plane : Axis → Plane
  | .x => .yz
  | .y => .xz
  | .z => .xy

@[simp] theorem Axis.normal_plane (axis : Axis) : axis.plane.normal = axis := by
  cases axis <;> rfl

@[simp] theorem Plane.plane_normal (plane : Plane) : plane.normal.plane = plane := by
  cases plane <;> rfl

/-- The plane of the axes that those of a plane are permuted to. -/
def Plane.permuted (π : Equiv.Perm Axis) (plane : Plane) : Plane :=
  (π plane.normal).plane

@[simp] theorem Plane.permuted_refl (plane : Plane) : plane.permuted (Equiv.refl Axis) = plane :=
  plane.plane_normal

/-! ### Writing blocks otherwise -/

/-- A way of writing blocks otherwise: the axes are permuted, and something else stands for a
length.  No length is no length in either writing. -/
structure Recoding (α : Type) [Number α] where
  axes : Equiv.Perm Axis
  length : α → α
  length_zero : length Number.zero = Number.zero

variable [Number α] (g : Recoding α)

/-- A point in the new writing. -/
def Recoding.onPoint (v : PerAxis α) : PerAxis α :=
  (v.map g.length).permuted g.axes

/-- What words assign, in the new writing. -/
def Changes.recoded (c : Changes α) : Changes α :=
  { c with
    target := (c.target.map (Option.map g.length)).permuted g.axes
    offset := (c.offset.map (Option.map g.length)).permuted g.axes
    radius := c.radius.map g.length
    feedRate := c.feedRate.map g.length
    plane := c.plane.map (Plane.permuted g.axes) }

/-- A proposal in the new writing. -/
def Proposal.recoded (p : Proposal α) : Proposal α :=
  { p with target := g.onPoint p.target, changes := p.changes.recoded g }

/-- A call in the new writing. -/
def Call.recoded : Call α → Call α
  | .feedRate rate => .feedRate (g.length rate)
  | .plane active => .plane (active.permuted g.axes)
  | .originOffsets point => .originOffsets (g.onPoint point)
  | .traverse target => .traverse (g.onPoint target)
  | .feed target => .feed (g.onPoint target)
  | .arc target offset radius mode =>
    .arc (g.onPoint target) (g.onPoint offset) (g.length radius) mode
  | c => c

namespace Proposal

variable (p : Proposal α)

theorem preparation_recoded (c : Changes α) :
    preparation (c.recoded g) = (preparation c).map (Call.recoded g) := by
  simp only [preparation, Changes.recoded, List.map_append, Option.toList_map, List.map_map,
    apply_ite (List.map (Call.recoded g))]
  rfl

theorem frame_recoded (c : Changes α) :
    frame (c.recoded g) = (frame c).map (Call.recoded g) := by
  simp only [frame, Changes.recoded, List.map_append, Option.toList_map, List.map_map]
  rfl

theorem pause_recoded : (p.recoded g).pause = p.pause.map (Call.recoded g) := by
  unfold pause
  rw [apply_ite (List.map (Call.recoded g))]
  rfl

/-- The offset of a centre in the new writing, also where none is given. -/
theorem offset_recoded :
    (p.changes.recoded g).offset.map (·.getD Number.zero) =
      g.onPoint (p.changes.offset.map (·.getD Number.zero)) := by
  refine PerAxis.ext_get fun axis => ?_
  simp only [Changes.recoded, Recoding.onPoint, PerAxis.get_map, PerAxis.get_permuted]
  cases p.changes.offset.get (g.axes.symm axis) with
  | none => exact g.length_zero.symm
  | some value => rfl

theorem radius_recoded :
    (p.changes.recoded g).radius.getD Number.zero =
      g.length (p.changes.radius.getD Number.zero) := by
  simp only [Changes.recoded]
  cases p.changes.radius with
  | none => exact g.length_zero.symm
  | some radius => rfl

theorem move_recoded : (p.recoded g).move = p.move.map (Call.recoded g) := by
  have harc (mode : MotionMode) :
      Call.arc (p.recoded g).target ((p.recoded g).changes.offset.map (·.getD Number.zero))
          ((p.recoded g).changes.radius.getD Number.zero) mode =
        (Call.arc p.target (p.changes.offset.map (·.getD Number.zero))
          (p.changes.radius.getD Number.zero) mode).recoded g :=
    congrArg₂ (Call.arc (g.onPoint p.target) · · mode) (p.offset_recoded g) (p.radius_recoded g)
  have hmode : (p.recoded g).motionMode = p.motionMode := rfl
  simp only [move, hmode, harc]
  cases p.motionMode <;> rfl

theorem operation_recoded : (p.recoded g).operation = p.operation.map (Call.recoded g) := by
  have haction : (p.recoded g).nextAction = p.nextAction := rfl
  simp only [operation, haction, move_recoded]
  cases p.nextAction <;> rfl

/-- **The plan in the new writing**: the same calls in the same order, each written
otherwise. -/
theorem plan_recoded : (p.recoded g).plan = p.plan.map (Call.recoded g) := by
  have hchanges : (p.recoded g).changes = p.changes.recoded g := rfl
  rw [plan, plan, settings, settings, hchanges, preparation_recoded, pause_recoded, frame_recoded,
    operation_recoded, List.map_append, List.map_append, List.map_append]

/-! ### Words -/

theorem over_recoded (c base : Changes α) :
    (c.over base).recoded g = (c.recoded g).over (base.recoded g) := by
  have hpoint (v w : PerAxis (Option α)) :
      ((PerAxis.zipWith Option.or v w).map (Option.map g.length)).permuted g.axes =
        .zipWith Option.or ((v.map (Option.map g.length)).permuted g.axes)
          ((w.map (Option.map g.length)).permuted g.axes) :=
    PerAxis.ext_get fun axis => by
      simp only [PerAxis.get_permuted, PerAxis.get_map, PerAxis.get_zipWith, Option.map_or]
  simp only [Changes.recoded, Changes.over, hpoint, Option.map_or]

theorem assign_recoded (c : Changes α) :
    (p.assign c).recoded g = (p.recoded g).assign (c.recoded g) := by
  have htarget : g.onPoint (.zipWith Option.getD c.target p.target) =
      .zipWith Option.getD (c.recoded g).target (g.onPoint p.target) := by
    refine PerAxis.ext_get fun axis => ?_
    simp only [Recoding.onPoint, Changes.recoded, PerAxis.get_permuted, PerAxis.get_map,
      PerAxis.get_zipWith]
    cases c.target.get (g.axes.symm axis) <;> rfl
  simp only [recoded, assign, htarget, over_recoded]
  rfl

end Proposal

/-- A word is another one in the new writing: it has a meaning if the other has, and then it
assigns what the other does, written otherwise.  Without a meaning it is the other one. -/
structure Word.Recodes (w w' : Word α) : Prop where
  isSupported : w'.isSupported = w.isSupported
  changes : w'.changes = w.changes.recoded g
  eq_of_not_isSupported : w.isSupported = false → w' = w

/-- Of words with a meaning only the assignments have to be looked at. -/
theorem Word.Recodes.of_isSupported {g : Recoding α} {w w' : Word α} (hw : w.isSupported = true)
    (hw' : w'.isSupported = true) (hchanges : w'.changes = w.changes.recoded g) :
    w.Recodes g w' where
  isSupported := hw'.trans hw.symm
  changes := hchanges
  eq_of_not_isSupported h := absurd (hw.symm.trans h) (by simp)

namespace Proposal

variable {g} {p : Proposal α}

/-- A word of the new writing makes what the word makes, and it is at fault if the word is. -/
theorem apply_recoded {w w' : Word α} (h : w.Recodes g w') :
    (p.recoded g).apply w' = (p.apply w).map (recoded g) := by
  rw [apply, apply, applied?_eq, applied?_eq, h.isSupported, h.changes]
  cases hw : w.isSupported with
  | true =>
    rw [if_pos rfl, if_pos rfl, ← assign_recoded]
    rfl
  | false =>
    rw [h.eq_of_not_isSupported hw]
    rfl

/-- **Words of the new writing make the proposal of it**, or are at fault where the words
are. -/
theorem foldlM_apply_recoded {onWord : Word α → Word α} {ws : List (Word α)}
    (hwords : ∀ w ∈ ws, w.Recodes g (onWord w)) :
    (ws.map onWord).foldlM apply (p.recoded g) = (ws.foldlM apply p).map (recoded g) := by
  induction ws generalizing p with
  | nil => rfl
  | cons w ws ih =>
    obtain ⟨hw, hwords⟩ := List.forall_mem_cons.mp hwords
    rw [List.map_cons, List.foldlM_cons, List.foldlM_cons, apply_recoded hw]
    cases p.apply w with
    | error fault => rfl
    | ok p => exact ih hwords

end Proposal

/-! ### Machines -/

/-- A transformation goes with a way of writing: calls become those of the new writing, and
the axes read in the new writing. -/
structure Transformation.Recodes (T : Transformation α β) (g : Recoding α) : Prop where
  onCall : T.onCall = Call.recoded g
  ofMachine : ∀ {m}, T.Covers m →
    Proposal.ofMachine (T.onMachine m) = (Proposal.ofMachine m).recoded g

namespace Transformation

variable {g} {T : Transformation α β} {s : Session (Simulator α)} {onWord : Word α → Word α}

/-- A block of the new writing does the same. -/
theorem runWords (hT : T.Recodes g) (hs : T.Covers (Machine.beginBlock s.machine))
    {ws : List (Word α)} (hwords : ∀ w ∈ ws, w.Recodes g (onWord w))
    (hadmits : ∀ p, s.gathered ws = .ok p → ∀ c ∈ p.plan, T.Admits c) :
    T.Matches (s.runWords ws) ((s.map T.onMachine).runWords (ws.map onWord)) ∧
      T.Covers (s.runWords ws).session.machine := by
  have hgathered : (s.map T.onMachine).gathered (ws.map onWord) =
      (s.gathered ws).map (Proposal.recoded g) := by
    have hseed : Proposal.ofMachine (Machine.beginBlock (T.onMachine s.machine)) =
        (Proposal.ofMachine (Machine.beginBlock s.machine)).recoded g := by
      rw [T.beginBlock, hT.ofMachine hs]
    exact (congrArg ((ws.map onWord).foldlM Proposal.apply) hseed).trans
      (Proposal.foldlM_apply_recoded hwords)
  rw [Session.runWords, Session.runWords, hgathered]
  cases hp : s.gathered ws with
  | error fault => exact settle_error hs fault
  | ok p =>
    refine settle hs (hadmits p hp) ?_ rfl
    rw [hT.onCall]
    exact p.plan_recoded g

/-- **Blocks of the new writing do the same**, one after another. -/
theorem runBlocks (hT : T.Recodes g) (hs : T.Covers (Machine.beginBlock s.machine))
    {blocks : List (List (Word α))} (hwords : ∀ ws ∈ blocks, ∀ w ∈ ws, w.Recodes g (onWord w))
    (hadmits : ∀ ws ∈ blocks, ∀ (s : Session (Simulator α)) (p : Proposal α),
      s.gathered ws = .ok p → ∀ c ∈ p.plan, T.Admits c) :
    List.Forall₂ T.Matches (s.runBlocks blocks)
      ((s.map T.onMachine).runBlocks (blocks.map (List.map onWord))) := by
  induction blocks generalizing s with
  | nil => exact .nil
  | cons ws blocks ih =>
    obtain ⟨hblock, hwords⟩ := List.forall_mem_cons.mp hwords
    obtain ⟨hblockAdmits, hadmits⟩ := List.forall_mem_cons.mp hadmits
    obtain ⟨hmatches, hcovers⟩ := runWords hT hs hblock (hblockAdmits s)
    rw [List.map_cons, Session.runBlocks, Session.runBlocks, hmatches.session]
    refine .cons ⟨hmatches.session, hmatches.result, hmatches.made⟩ ?_
    exact ih (T.covers_beginBlock hcovers) hwords hadmits

end Transformation

end NumericControl
