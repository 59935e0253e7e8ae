import NumericControl.Block.Plan
import NumericControl.Proofs.Requests

/-!
# Execution follows the plan

A block is executed field by field, and each step may be the last.  The plan is one
list, made from the block alone.  Here the two are shown to be the same on every
machine, and the plan is described by what is in it and by its order.

## Main definitions

* `Call.step` — the place of a call in the order of execution.
* `Call.isOperation` — whether a call is one of those of which a block has at most one.
* `Proposal.AsksFor` — what a block asks for, field by field.

## Main results

* `Proposal.execute_eq_run` — the steps of a block perform its plan.
* `Proposal.mem_plan_iff`, `Proposal.pairwise_step_plan` — what is in a plan, and in
  which order.
* `Proposal.execute_follows_plan` — the whole of it, on an arbitrary machine.
-/

namespace NumericControl

/-- The place of a call in the order of execution. -/
def Call.step {α : Type} : Call α → Nat
  | .inverseFeedRate _ => 1
  | .feedRate _ => 2
  | .spindleSpeed _ => 3
  | .selectTool _ => 4
  | .changeTool => 5
  | .spindle _ => 6
  | .dwell _ => 7
  | .plane _ => 8
  | .units _ => 9
  | .distanceMode _ => 10
  | .home => 11
  | .originOffsets _ => 12
  | .traverse _ | .feed _ | .arc .. => 13

/-- Whether a call is a dwell, a homing, a change of the origin or a motion. -/
def Call.isOperation {α : Type} : Call α → Bool
  | .dwell _ | .home | .originOffsets _ | .traverse _ | .feed _ | .arc .. => true
  | _ => false

/-! ### Steps and lists of calls -/

namespace Dispatch

variable {σ α β : Type} [Machine σ α]

theorem runOn_call (c : Call α) (m : σ) : runOn (call c) m = Machine.perform m c := by
  rcases h : Machine.perform m c with ⟨m', _ | fault⟩ <;>
    simp [runOn, call, h, StateT.run, ExceptT.run, ExceptT.mk]

omit [Machine σ α] in
/-- Steps go on where the steps before them ended, unless these ended with a fault. -/
theorem runOn_bind (d e : Dispatch σ α Unit) (m : σ) :
    runOn (do d; e) m =
      match runOn d m with
      | (m, none) => runOn e m
      | (m, some fault) => (m, some fault) := by
  simp only [runOn, ExceptT.run_bind, StateT.run_bind]
  rcases StateT.run (ExceptT.run d) m with ⟨_ | _, m'⟩ <;> rfl

/-- Asking for the calls of a list one after another performs the list. -/
theorem runOn_forM_call (calls : List (Call α)) (m : σ) :
    runOn (forM calls call) m = Machine.run m calls := by
  induction calls generalizing m with
  | nil => rfl
  | cons c calls ih =>
    rw [List.forM_cons, runOn_bind, runOn_call, Machine.run]
    rcases Machine.perform m c with ⟨m', _ | fault⟩
    · exact ih m'
    · rfl

theorem callWhen_eq_forM (condition : Prop) [Decidable condition] (c : Call α) :
    (callWhen condition c : Dispatch σ α Unit) = forM (if condition then [c] else []) call := by
  unfold callWhen
  split <;> simp

theorem callWith_eq_forM (make : β → Call α) (value : Option β) :
    (callWith make value : Dispatch σ α Unit) = forM (value.map make).toList call := by
  cases value <;> simp [callWith]

end Dispatch

namespace Proposal

/-! ### Parts of a plan -/

section Parts

variable {α : Type}

theorem map_step_with_sublist {β : Type} {make : β → Call α} {k : Nat}
    (hk : ∀ b, (make b).step = k) (value : Option β) :
    ((value.map make).toList.map Call.step).Sublist [k] := by
  cases value <;> simp [hk]

theorem map_step_when_sublist (condition : Prop) [Decidable condition] (c : Call α) :
    ((if condition then [c] else []).map Call.step).Sublist [c.step] := by
  split <;> simp

theorem filter_isOperation_preparation (c : Changes α) :
    (preparation c).filter Call.isOperation = [] := by
  rw [List.filter_eq_nil_iff]
  intro call hcall
  simp only [preparation, List.mem_append, Option.mem_toList, Option.map_eq_some_iff,
    List.mem_ite_nil_right, List.mem_singleton] at hcall
  rcases hcall with
    ((((⟨_, -, rfl⟩ | ⟨_, -, rfl⟩) | ⟨_, -, rfl⟩) | ⟨_, -, rfl⟩) | ⟨-, rfl⟩) | ⟨_, -, rfl⟩ <;>
    simp [Call.isOperation]

theorem filter_isOperation_frame (c : Changes α) : (frame c).filter Call.isOperation = [] := by
  rw [List.filter_eq_nil_iff]
  intro call hcall
  simp only [frame, List.mem_append, Option.mem_toList, Option.map_eq_some_iff] at hcall
  rcases hcall with (⟨_, -, rfl⟩ | ⟨_, -, rfl⟩) | ⟨_, -, rfl⟩ <;> simp [Call.isOperation]

end Parts

/-! ### The plan on a machine -/

variable {σ α : Type} [Number α] [Machine σ α]

theorem dispatchMotion_eq_forM (p : Proposal α) :
    (p.dispatchMotion : Dispatch σ α Unit) = forM p.move Dispatch.call := by
  unfold dispatchMotion move
  cases p.motionMode <;> simp

/-- The operation of a plan, step by step: its three conditions exclude each other. -/
theorem operation_eq_append (p : Proposal α) :
    p.operation =
      (if p.nextAction = .goHome then [.home] else [])
        ++ (if p.nextAction = .offsetCoordinates then [.originOffsets p.target] else [])
        ++ (if p.nextAction = .motion then p.move else []) := by
  unfold operation
  cases p.nextAction <;> simp

/-- The steps of a block ask for the calls of its plan. -/
theorem dispatch_eq_forM_plan (p : Proposal α) :
    (p.dispatch : Dispatch σ α Unit) = forM p.plan Dispatch.call := by
  have hmotion : (if p.nextAction = .motion then p.dispatchMotion else pure () :
      Dispatch σ α Unit) = forM (if p.nextAction = .motion then p.move else []) Dispatch.call := by
    split
    · exact dispatchMotion_eq_forM p
    · simp
  rw [plan, operation_eq_append]
  -- each step is the loop over at most one call, and loops one after another are one loop
  simp only [dispatch, hmotion, Dispatch.callWhen_eq_forM, Dispatch.callWith_eq_forM, settings,
    preparation, pause, frame, List.forM_append, bind_assoc]

/-- **The steps of a block perform its plan**, on every machine. -/
theorem execute_eq_run (p : Proposal α) (m : σ) : p.execute m = Machine.run m p.plan := by
  rw [execute, dispatch_eq_forM_plan, Dispatch.runOn_forM_call]

/-! ### What is in a plan -/

/-- What a block asks for.  A setting is asked for exactly if its field is set, and
the operation is chosen by the next action. -/
def AsksFor (p : Proposal α) : Call α → Prop
  | .inverseFeedRate enabled => p.changes.inverseFeedRate = some enabled
  | .feedRate rate => p.changes.feedRate = some rate
  | .spindleSpeed speed => p.changes.spindleSpeed = some speed
  | .selectTool tool => p.changes.tool = some tool
  | .changeTool => p.changes.changeTool = some true
  | .spindle mode => p.changes.spindleMode = some mode
  | .dwell seconds =>
    p.nextAction = .dwell ∧ seconds = p.changes.dwellTime.getD Number.zero
  | .plane plane => p.changes.plane = some plane
  | .units units => p.changes.units = some units
  | .distanceMode mode => p.changes.distanceMode = some mode
  | .home => p.nextAction = .goHome
  | .originOffsets point => p.nextAction = .offsetCoordinates ∧ point = p.target
  | .traverse target =>
    p.nextAction = .motion ∧ p.motionMode = .straightTraverse ∧ target = p.target
  | .feed target => p.nextAction = .motion ∧ p.motionMode = .straightFeed ∧ target = p.target
  | .arc target offset radius mode =>
    p.nextAction = .motion ∧ p.motionMode = mode ∧ mode.isArc ∧ target = p.target ∧
      offset = p.changes.offset.map (·.getD Number.zero) ∧
      radius = p.changes.radius.getD Number.zero

theorem mem_move_iff (p : Proposal α) (c : Call α) :
    c ∈ p.move ↔
      p.motionMode = .straightTraverse ∧ c = .traverse p.target ∨
        p.motionMode = .straightFeed ∧ c = .feed p.target ∨
          p.motionMode.isArc ∧ c = .arc p.target (p.changes.offset.map (·.getD Number.zero))
            (p.changes.radius.getD Number.zero) p.motionMode := by
  unfold move
  cases p.motionMode <;> simp [MotionMode.isArc]

/-- A plan holds the calls that its block asks for. -/
theorem mem_plan_iff (p : Proposal α) (c : Call α) : c ∈ p.plan ↔ p.AsksFor c := by
  rw [plan, operation_eq_append]
  cases c with
  | arc target offset radius mode =>
    simp only [settings, preparation, pause, frame, AsksFor, List.mem_append, Option.mem_toList,
      Option.map_eq_some_iff, List.mem_ite_nil_right, mem_move_iff,
      List.mem_singleton, Call.arc.injEq, reduceCtorEq, and_false, exists_false, false_or]
    constructor
    · rintro ⟨hmotion, harc, ht, ho, hr, hm⟩
      exact ⟨hmotion, hm.symm, hm ▸ harc, ht, ho, hr⟩
    · rintro ⟨hmotion, hm, harc, ht, ho, hr⟩
      exact ⟨hmotion, hm ▸ harc, ht, ho, hr, hm.symm⟩
  | _ => simp [settings, preparation, pause, frame, AsksFor, mem_move_iff]

/-! ### The order of a plan -/

theorem map_step_move_sublist (p : Proposal α) : (p.move.map Call.step).Sublist [13] := by
  unfold move
  cases p.motionMode <;> simp [Call.step]

/-- The places of the calls of a plan are among all places, in their order. -/
theorem map_step_plan_sublist (p : Proposal α) :
    (p.plan.map Call.step).Sublist (List.range' 1 13) := by
  have hmotion : ((if p.nextAction = .motion then p.move else []).map Call.step).Sublist [13] := by
    split
    · exact map_step_move_sublist p
    · simp
  have hplan : (p.plan.map Call.step).Sublist
      ([1] ++ [2] ++ [3] ++ [4] ++ [5] ++ [6] ++ [7] ++ ([8] ++ [9] ++ [10])
        ++ ([11] ++ [12] ++ [13])) := by
    rw [plan, operation_eq_append]
    simp only [settings, preparation, pause, frame, List.map_append]
    refine .append (.append (.append ?_ (map_step_when_sublist _ _)) ?_)
      (.append (.append (map_step_when_sublist _ _) (map_step_when_sublist _ _)) hmotion)
    · refine .append (.append (.append (.append (.append ?_ ?_) ?_) ?_)
        (map_step_when_sublist _ _)) ?_ <;> exact map_step_with_sublist (by intro b; rfl) _
    · refine .append (.append ?_ ?_) ?_ <;> exact map_step_with_sublist (by intro b; rfl) _
  exact hplan

/-- The calls of a plan stand in the order of execution, no place taken twice. -/
theorem pairwise_step_plan (p : Proposal α) :
    (p.plan.map Call.step).Pairwise (· < ·) :=
  List.Pairwise.sublist (map_step_plan_sublist p) List.pairwise_lt_range'

/-- The next action chooses the operation, so a plan has at most one. -/
theorem length_filter_isOperation_plan_le (p : Proposal α) :
    (p.plan.filter Call.isOperation).length ≤ 1 := by
  -- a pause and an operation exclude each other
  have hparts : (p.pause ++ p.operation).length ≤ 1 := by
    unfold pause operation move
    cases p.nextAction <;> cases p.motionMode <;> simp
  simp only [plan, settings, List.filter_append, filter_isOperation_preparation,
    filter_isOperation_frame, List.nil_append, List.append_nil]
  rw [← List.filter_append]
  exact Nat.le_trans (List.length_filter_le _ _) hparts

/-! ### Execution -/

/-- **Execution follows the plan, up to the first refusal.**

Whatever the machine, there is a first part of the plan such that a machine which
keeps record is asked for exactly these calls, the machine is left as they leave it,
and either they are the whole plan and none was refused, or the last of them alone
was refused and its fault is the result.  The plan holds what the block asks for, in
the order of execution, with no place taken twice and at most one operation. -/
theorem execute_follows_plan (p : Proposal α) (m : σ) :
    p.execute m = Machine.run m p.plan ∧
    (∃ made rest, p.plan = made ++ rest ∧
      p.execute (⟨m, []⟩ : Traced σ α)
        = (⟨(p.execute m).1, made.map .call⟩, (p.execute m).2) ∧
      (p.execute m).1 = Machine.after m made ∧
      match (p.execute m).2 with
      | none => rest = [] ∧ Machine.AcceptsAll m made
      | some fault => ∃ accepted last, made = accepted ++ [last] ∧
        Machine.AcceptsAll m accepted ∧
        (Machine.perform (Machine.after m accepted) last).2 = some fault) ∧
    (p.plan.map Call.step).Pairwise (· < ·) ∧
    (∀ c, c ∈ p.plan ↔ p.AsksFor c) ∧
    (p.plan.filter Call.isOperation).length ≤ 1 := by
  refine ⟨execute_eq_run p m, ?_, pairwise_step_plan p, mem_plan_iff p,
    length_filter_isOperation_plan_le p⟩
  obtain ⟨rest, hrest⟩ := Machine.made_isPrefix m p.plan
  refine ⟨Machine.made m p.plan, rest, hrest.symm, ?_, ?_, ?_⟩
  · rw [execute_eq_run, execute_eq_run, Machine.run_traced, List.nil_append]
  · rw [execute_eq_run, Machine.fst_run]
  · rw [execute_eq_run]
    cases h : (Machine.run m p.plan).2 with
    | none =>
      have hacc := (Machine.snd_run_eq_none_iff m p.plan).mp h
      rw [Machine.made_eq_self hacc] at hrest ⊢
      exact ⟨List.append_cancel_left (hrest.trans (List.append_nil _).symm), hacc⟩
    | some fault => exact Machine.exists_made_of_fault h

end Proposal

end NumericControl
