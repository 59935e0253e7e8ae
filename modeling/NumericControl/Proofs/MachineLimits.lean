import Mathlib.Data.List.Induction
import NumericControl.Proofs.FeedLimit

/-!
# The limits of the machine

A limit is looked at where a value is handed over, and used elsewhere: a tool is looked at
when it is selected and put into the spindle by another call, a feed rate when it is set
and needed when a move is made at it.  So that a tool in the spindle or a rate in force is
one that the machine has, and that an arc is one in a mode of arcs, holds because no call
writes the values of another without their guards.  A call that is refused writes nothing.

A feed rate may be zero, which stands for none, and is converted to millimetres a minute.
The product of a rate and the millimetres in a unit is rounded; it is at least zero even
where the rate is a zero with a sign.

## Main definitions

* `State.Obeys` — what a machine keeps is within its limits.
* `Call.writesBounded` — a call writes a value that is bounded.

## Main results

* `State.obeys_initial` — a machine starts within its limits.
* `Simulator.obeys_respond`, `Simulator.obeys_respondAll` — a request keeps it so, and so
  do many.
* `Simulator.activeTool_respondAll` — where the tool in the spindle comes from.
* `Simulator.limits_hold` — **the limits hold in every state that a machine gets to**.
-/

namespace NumericControl

/-- What a machine keeps is within its limits. -/
structure State.Obeys (s : State Binary64) (limits : Limits Binary64) : Prop where
  spindleSpeed_nonneg : Number.le Number.zero s.spindleSpeed = true
  spindleSpeed_le : Number.le s.spindleSpeed limits.maxSpindleSpeed = true
  feedRate_nonneg : Number.le Number.zero s.feedRate = true
  selectedTool_le : s.selectedTool ≤ limits.toolCount
  activeTool_le : s.activeTool ≤ limits.toolCount

theorem State.Obeys.congr {s s' : State Binary64} {limits : Limits Binary64} (h : s.Obeys limits)
    (hsame : s'.spindleSpeed = s.spindleSpeed ∧ s'.feedRate = s.feedRate ∧
      s'.selectedTool = s.selectedTool ∧ s'.activeTool = s.activeTool) : s'.Obeys limits := by
  obtain ⟨hspindle, hfeed, hselected, hactive⟩ := hsame
  exact {
    spindleSpeed_nonneg := by rw [hspindle]; exact h.spindleSpeed_nonneg
    spindleSpeed_le := by rw [hspindle]; exact h.spindleSpeed_le
    feedRate_nonneg := by rw [hfeed]; exact h.feedRate_nonneg
    selectedTool_le := by rw [hselected]; exact h.selectedTool_le
    activeTool_le := by rw [hactive]; exact h.activeTool_le }

/-- A machine that has done nothing is within all limits that make sense. -/
theorem State.obeys_initial {limits : Limits Binary64} (hcheck : limits.check = none) :
    State.Obeys .initial limits := by
  obtain ⟨-, hfinite, hpositive⟩ := Limits.of_check hcheck
  have hspindle : Number.lt limits.maxSpindleSpeed Number.zero = false :=
    (Bool.or_eq_false_iff.mp hpositive).1
  have hzero : Number.le (Number.zero : Binary64) Number.zero = true := by decide +kernel
  exact {
    spindleSpeed_nonneg := hzero
    spindleSpeed_le := Binary64.le_of_not_lt (by decide +kernel)
      (Binary64.isNaN_of_isFinite hfinite) hspindle
    feedRate_nonneg := hzero
    selectedTool_le := UInt32.zero_le
    activeTool_le := UInt32.zero_le }

/-- Whether a call writes a value that is bounded. -/
def Call.writesBounded {α : Type} : Call α → Bool
  | .feedRate _ | .spindleSpeed _ | .selectTool _ | .changeTool => true
  | _ => false

namespace Simulator

/-! ### Guards -/

section

variable {α : Type} [Number α] {m : Simulator α}

/-- What a machine knows of a spindle speed that it accepts. -/
theorem of_accepted_spindleSpeed {speed : α}
    (h : (Machine.perform m (.spindleSpeed speed)).2 = none) :
    isUnusable speed = false ∧ Number.lt m.limits.maxSpindleSpeed speed = false := by
  rw [snd_perform, refusal?] at h
  split at h
  · exact absurd h (by simp)
  · next hguard => simpa using hguard

/-- What a machine knows of a tool that it lets be selected. -/
theorem of_accepted_selectTool {tool : UInt32}
    (h : (Machine.perform m (.selectTool tool)).2 = none) : tool ≤ m.limits.toolCount := by
  rw [snd_perform, refusal?] at h
  split at h
  · exact absurd h (by simp)
  · next hguard => exact UInt32.not_lt.mp hguard

/-- A machine that accepts a move at feed rate has one. -/
theorem lacksFeedRate_of_accepted {c : Call α} (hfeed : c.isFeed = true)
    (h : (Machine.perform m c).2 = none) : m.lacksFeedRate = false := by
  cases hlacks : m.lacksFeedRate with
  | false => rfl
  | true =>
    rw [snd_perform] at h
    cases c with
    | feed target => simp [refusal?, hlacks] at h
    | arc target offset radius mode =>
      -- the mode is looked at before the rate, and refused as well
      cases hmode : mode.isArc <;> simp [refusal?, hmode, hlacks] at h
    | _ => exact absurd hfeed (by simp [Call.isFeed])

/-- A call for an arc is written as a move in its mode, which is one of arcs, or not at all. -/
theorem journal_arc {target offset : PerAxis α} {radius : α} {mode : MotionMode}
    (h : (Machine.perform m (.arc target offset radius mode)).1.journal ≠ m.journal) :
    (mode = .cwArc ∨ mode = .ccwArc) ∧
      (Machine.perform m (.arc target offset radius mode)).1.journal =
        m.journal.push (.motion mode (m.toMachine target)) := by
  cases hc : (Machine.perform m (.arc target offset radius mode)).2 with
  | some fault => exact absurd (congrArg journal (fst_perform_of_refused hc)) h
  | none =>
    have harc := isArc_of_accepted hc
    refine ⟨?_, congrArg journal (fst_perform_of_accepted hc)⟩
    cases mode with
    | cwArc => exact .inl rfl
    | ccwArc => exact .inr rfl
    | _ => exact absurd harc (by simp [MotionMode.isArc])

/-- A call that writes none of the bounded values leaves all of them. -/
theorem bounded_accepted (m : Simulator α) {c : Call α} (hc : c.writesBounded = false) :
    (m.accepted c).state.spindleSpeed = m.state.spindleSpeed ∧
      (m.accepted c).state.feedRate = m.state.feedRate ∧
      (m.accepted c).state.selectedTool = m.state.selectedTool ∧
      (m.accepted c).state.activeTool = m.state.activeTool := by
  cases c with
  | feedRate | spindleSpeed | selectTool | changeTool =>
    exact absurd hc (by simp [Call.writesBounded])
  | _ => exact ⟨rfl, rfl, rfl, rfl⟩

end

/-! ### Bounds -/

section

variable {m : Simulator Binary64}

/-- A rate that is accepted is kept as one of at least zero. -/
theorem storedFeedRate_nonneg {rate : Binary64}
    (h : (Machine.perform m (.feedRate rate)).2 = none) :
    Number.le Number.zero (m.storedFeedRate rate) = true := by
  obtain ⟨hfinite, hnonneg⟩ := of_isUnusable_false (of_accepted_feedRate h).1
  rw [storedFeedRate]
  split
  · exact hnonneg
  · have hzero : (Number.zero : Binary64).scaled = 0 := by decide +kernel
    have hnan : (Number.zero : Binary64).isNaN = false := by decide +kernel
    have hrate := (Binary64.le_iff hnan (Binary64.isNaN_of_isFinite hfinite)).mp hnonneg
    have hscale : 0 ≤ m.scale.scaled := by
      rw [scale]
      cases m.state.units <;> decide +kernel
    change Number.le Number.zero (rate.mul m.scale) = true
    rw [Binary64.le_iff hnan (Binary64.isNaN_mul hfinite m.isFinite_scale), hzero]
    exact Binary64.scaled_mul_nonneg hfinite m.isFinite_scale (hzero ▸ hrate) hscale

/-- A spindle speed that is accepted is between zero and a limit that makes sense. -/
theorem spindleSpeed_bounds (hcheck : m.limits.check = none) {speed : Binary64}
    (h : (Machine.perform m (.spindleSpeed speed)).2 = none) :
    Number.le Number.zero speed = true ∧ Number.le speed m.limits.maxSpindleSpeed = true := by
  obtain ⟨husable, hlimit⟩ := of_accepted_spindleSpeed h
  obtain ⟨hfinite, hnonneg⟩ := of_isUnusable_false husable
  have hmax := (Limits.of_check hcheck).2.1
  exact ⟨hnonneg, Binary64.le_of_not_lt (Binary64.isNaN_of_isFinite hfinite)
    (Binary64.isNaN_of_isFinite hmax) hlimit⟩

/-- **A request keeps a machine within its limits.** -/
theorem obeys_respond (hcheck : m.limits.check = none) (h : m.state.Obeys m.limits)
    (r : Request Binary64) :
    (Machine.respond m r).state.Obeys (Machine.respond m r).limits := by
  rw [limits_respond]
  cases r with
  | beginBlock => exact h
  | call c =>
    change (Machine.perform m c).1.state.Obeys m.limits
    cases hc : (Machine.perform m c).2 with
    | some fault =>
      rw [fst_perform_of_refused hc]
      exact h
    | none =>
      rw [fst_perform_of_accepted hc]
      -- four calls write a value that is bounded, each of them its own
      cases c with
      | feedRate rate => exact { h with feedRate_nonneg := storedFeedRate_nonneg hc }
      | spindleSpeed speed =>
        obtain ⟨hnonneg, hle⟩ := spindleSpeed_bounds hcheck hc
        exact { h with spindleSpeed_nonneg := hnonneg, spindleSpeed_le := hle }
      | selectTool tool => exact { h with selectedTool_le := of_accepted_selectTool hc }
      | changeTool => exact { h with activeTool_le := h.selectedTool_le }
      | _ => exact h.congr (m.bounded_accepted rfl)

theorem obeys_respondAll (hcheck : m.limits.check = none) (h : m.state.Obeys m.limits)
    (requests : List (Request Binary64)) :
    (Machine.respondAll m requests).state.Obeys m.limits := by
  induction requests generalizing m with
  | nil => exact h
  | cons r requests ih =>
    have hlimits := m.limits_respond r
    have hobeys := ih (by rw [hlimits, hcheck]) (obeys_respond hcheck h r)
    rwa [hlimits] at hobeys

end

/-! ### The tool in the spindle -/

section

variable {α : Type} [Number α]

/-- Only a change of tools puts a tool into the spindle. -/
theorem activeTool_respond (m : Simulator α) {r : Request α} (hr : r ≠ .call .changeTool) :
    (Machine.respond m r).state.activeTool = m.state.activeTool := by
  cases r with
  | beginBlock => rfl
  | call c =>
    change (Machine.perform m c).1.state.activeTool = m.state.activeTool
    cases hc : (Machine.perform m c).2 with
    | some fault => rw [fst_perform_of_refused hc]
    | none =>
      rw [fst_perform_of_accepted hc]
      cases c with
      | changeTool => exact absurd rfl hr
      | _ => rfl

/-- The tool in the spindle is the one that was there first, or the one that was selected
when tools were changed last. -/
theorem activeTool_respondAll (m : Simulator α) (requests : List (Request α)) :
    (.call .changeTool ∉ requests ∧
        (Machine.respondAll m requests).state.activeTool = m.state.activeTool) ∨
      ∃ before behind, requests = before ++ .call .changeTool :: behind ∧
        .call .changeTool ∉ behind ∧
        (Machine.respondAll m requests).state.activeTool =
          (Machine.respondAll m before).state.selectedTool := by
  -- from the end, where the last change stands
  induction requests using List.reverseRecOn with
  | nil => exact .inl ⟨by simp, rfl⟩
  | append_singleton requests r ih =>
    have hlast : Machine.respondAll m (requests ++ [r]) =
        Machine.respond (Machine.respondAll m requests) r := List.foldl_append ..
    by_cases hr : r = .call .changeTool
    · subst hr
      exact .inr ⟨requests, [], rfl, by simp, by rw [hlast]; rfl⟩
    · have hsame := (Machine.respondAll m requests).activeTool_respond hr
      rw [hlast, hsame]
      rcases ih with ⟨hno, htool⟩ | ⟨before, behind, rfl, hno, htool⟩
      · exact .inl ⟨by simp [hno, Ne.symm hr], htool⟩
      · exact .inr ⟨before, behind ++ [r], by simp, by simp [hno, Ne.symm hr], htool⟩

end

/-- **The limits hold in every state that a machine gets to.**

A machine starts with limits that make sense and within them, and is asked for anything, in
any order, whether it accepts or not.  Then the spindle turns at a speed from zero to the
limit, the feed rate is at least zero, and the tools selected and in the spindle are ones
that the machine has.  The tool in the spindle is the one that was there first, or the one
that was selected when tools were changed last.  A feed, straight or on an arc, is accepted
only at a rate above zero, and a call for an arc is written to the journal only in a mode
of arcs. -/
theorem limits_hold {limits : Limits Binary64} {state : State Binary64}
    (hcheck : limits.check = none) (hinit : state.Obeys limits)
    (requests : List (Request Binary64)) :
    let start := ofState limits state
    let m := Machine.respondAll start requests
    m.state.Obeys limits ∧
      ((.call .changeTool ∉ requests ∧ m.state.activeTool = state.activeTool) ∨
        ∃ before behind, requests = before ++ .call .changeTool :: behind ∧
          .call .changeTool ∉ behind ∧
          m.state.activeTool = (Machine.respondAll start before).state.selectedTool) ∧
      (∀ c : Call Binary64, c.isFeed = true → (Machine.perform m c).2 = none →
        Number.lt Number.zero m.state.feedRate = true) ∧
      ∀ target offset radius mode,
        (Machine.perform m (.arc target offset radius mode)).1.journal ≠ m.journal →
          (mode = .cwArc ∨ mode = .ccwArc) ∧
            (Machine.perform m (.arc target offset radius mode)).1.journal =
              m.journal.push (.motion mode (m.toMachine target)) := by
  intro start m
  have hobeys : m.state.Obeys limits := obeys_respondAll (m := start) hcheck hinit requests
  refine ⟨hobeys, start.activeTool_respondAll requests, ?_, fun _ _ _ _ h => journal_arc h⟩
  intro c hfeed haccepted
  exact Binary64.lt_of_le_of_not_le hobeys.feedRate_nonneg
    (lacksFeedRate_of_accepted hfeed haccepted)

/-- A tool that the machine lacks, another one that is put into the spindle before a third
one is selected, and a spindle speed and a feed rate, of which the first is too high. -/
def toolsAndRates : List (Request Binary64) :=
  [.call (.selectTool 25), .call (.selectTool 3), .call .changeTool, .call (.selectTool 5),
    .call (.spindleSpeed (Number.ofDecimal (.ofNat 30000))),
    .call (.feedRate (Number.ofDecimal (.ofNat 500)))]

/-- A machine that refuses a tool and a speed has the tool in the spindle that was selected
before the change, and feeds. -/
theorem limits_hold_behind_refusals :
    let m := Machine.respondAll (ofState .standard .initial) toolsAndRates
    (Limits.standard : Limits Binary64).check = none ∧ State.Obeys .initial .standard ∧
      m.state.Obeys .standard ∧ m.state.activeTool = 3 ∧
      (∃ before behind, toolsAndRates = before ++ .call .changeTool :: behind ∧
        m.state.activeTool =
          (Machine.respondAll (ofState .standard (.initial : State Binary64))
            before).state.selectedTool) ∧
      (Machine.perform m unitFeed).2 = none ∧
      Number.lt Number.zero m.state.feedRate = true := by
  have hcheck : (Limits.standard : Limits Binary64).check = none := by decide +kernel
  have hinit : State.Obeys .initial .standard := State.obeys_initial hcheck
  have haccepted : (Machine.perform (Machine.respondAll
      (ofState .standard (.initial : State Binary64)) toolsAndRates) unitFeed).2 = none := by
    decide +kernel
  obtain ⟨hobeys, htool, hfeed, -⟩ := limits_hold hcheck hinit toolsAndRates
  refine ⟨hcheck, hinit, hobeys, by decide +kernel, ?_, haccepted, hfeed unitFeed rfl haccepted⟩
  rcases htool with ⟨hno, -⟩ | ⟨before, behind, hsplit, -, htool⟩
  · exact absurd hno (by simp [toolsAndRates])
  · exact ⟨before, behind, hsplit, htool⟩

end Simulator

end NumericControl
