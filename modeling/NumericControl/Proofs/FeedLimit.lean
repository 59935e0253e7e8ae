import NumericControl.Proofs.Journal
import NumericControl.Settings

/-!
# The feed limit

The limit on feed rates is looked at when a rate is handed over as a speed, after it is
converted to millimetres a minute.  An inverse time is stored as it is, and there is no
limit to it.  A switch between the two is a call of its own, and leaves the number that
is stored.  So a number that was handed over as an inverse time is taken for a speed once
the machine is switched back, and the next feed runs at it, however large it is.  Apart
from such a number the limit holds along every sequence of calls.

Where the number in force came from cannot be told from a state of the machine, and is
noted beside it.

## Main definitions

* `Call.isFeed` — a call is a move at feed rate.
* `Simulator.rateIsInverse` — the last rate accepted was handed over as an inverse time.
* `Simulator.Within` — the rate in force is within the limit, if it is noted as a speed.

## Main results

* `Simulator.within_respond`, `Simulator.within_respondAll` — a request keeps it so, and so
  do many.
* `Simulator.feed_within_limit` — **no feed runs above the limit at a rate that was handed
  over as a speed**.
* `Simulator.feed_always_within_limit_false` — a feed above the limit.
-/

namespace NumericControl

/-- Whether a call is a move at feed rate. -/
def Call.isFeed {α : Type} : Call α → Bool
  | .feed _ | .arc .. => true
  | _ => false

/-! ### Rates -/

/-- Limits that make sense are finite, and above zero. -/
theorem Limits.of_check {limits : Limits Binary64} (h : limits.check = none) :
    (limits.maxFeedRate.isFinite = true ∧ Number.le limits.maxFeedRate Number.zero = false) ∧
      limits.maxSpindleSpeed.isFinite = true ∧
        Number.le limits.maxSpindleSpeed Number.zero = false := by
  cases hfeed : isUsableLimit limits.maxFeedRate with
  | false => simp [Limits.check, hfeed] at h
  | true =>
    cases hspindle : isUsableLimit limits.maxSpindleSpeed with
    | false => simp [Limits.check, hfeed, hspindle] at h
    | true => simpa [isUsableLimit] using And.intro hfeed hspindle

namespace Simulator

/-- What a machine knows of a rate that it accepts: the number is usable, and if it is a
speed, then not above the limit. -/
theorem of_accepted_feedRate {α : Type} [Number α] {m : Simulator α} {rate : α}
    (h : (Machine.perform m (.feedRate rate)).2 = none) :
    isUnusable rate = false ∧
      (m.state.inverseFeedRate = false →
        Number.lt m.limits.maxFeedRate (m.storedFeedRate rate) = false) := by
  rw [snd_perform, refusal?] at h
  split at h
  · exact absurd h (by simp)
  · next husable =>
    refine ⟨by simpa using husable, fun hspeed => ?_⟩
    split at h
    · exact absurd h (by simp)
    · next hlimit => simpa [hspeed] using hlimit

/-- A value that is usable is finite, and at least zero. -/
theorem of_isUnusable_false {value : Binary64} (h : isUnusable value = false) :
    value.isFinite = true ∧ Number.le Number.zero value = true := by
  rw [isUnusable, Bool.or_eq_false_iff, Bool.not_eq_false'] at h
  obtain ⟨hfinite, hnonneg⟩ := h
  exact ⟨hfinite, Binary64.le_of_not_lt (by decide +kernel) (Binary64.isNaN_of_isFinite hfinite)
    hnonneg⟩

theorem isFinite_scale (m : Simulator Binary64) : m.scale.isFinite = true := by
  rw [scale]
  cases m.state.units <;> decide +kernel

/-- Only the F word writes the feed rate. -/
theorem feedRate_accepted {α : Type} [Number α] (m : Simulator α) {c : Call α}
    (hc : ∀ rate, c ≠ .feedRate rate) : (m.accepted c).state.feedRate = m.state.feedRate := by
  cases c with
  | feedRate rate => exact absurd rfl (hc rate)
  | _ => rfl

/-- A speed that is accepted is not above a limit that makes sense. -/
theorem storedFeedRate_le {m : Simulator Binary64} {rate : Binary64}
    (hcheck : m.limits.check = none) (h : (Machine.perform m (.feedRate rate)).2 = none)
    (hspeed : m.state.inverseFeedRate = false) :
    Number.le (m.storedFeedRate rate) m.limits.maxFeedRate = true := by
  obtain ⟨husable, hlimit⟩ := of_accepted_feedRate h
  have hmax := (Limits.of_check hcheck).1.1
  have hrate := (of_isUnusable_false husable).1
  have hstored : m.storedFeedRate rate = rate.mul m.scale := by
    rw [storedFeedRate, if_neg (by simp [hspeed])]
    rfl
  have hnan : (m.storedFeedRate rate).isNaN = false := by
    rw [hstored]
    exact Binary64.isNaN_mul hrate m.isFinite_scale
  have hlt : m.limits.maxFeedRate.lt (m.storedFeedRate rate) = false := hlimit hspeed
  exact Binary64.le_of_not_lt hnan (Binary64.isNaN_of_isFinite hmax) hlt

/-! ### Where the rate in force came from -/

section

variable {α : Type} [Number α]

/-- The note behind a request, whether the last rate accepted was handed over as an
inverse time. -/
def noteBehind (m : Simulator α) (inverse : Bool) : Request α → Bool
  | .call (.feedRate rate) =>
    match (Machine.perform m (.feedRate rate)).2 with
    | none => m.state.inverseFeedRate
    | some _ => inverse
  | _ => inverse

/-- The note behind some requests, from the one before them. -/
def rateIsInverse (m : Simulator α) (inverse : Bool) : List (Request α) → Bool
  | [] => inverse
  | r :: requests => rateIsInverse (Machine.respond m r) (m.noteBehind inverse r) requests

theorem limits_respond (m : Simulator α) (r : Request α) :
    (Machine.respond m r).limits = m.limits := by
  cases r with
  | beginBlock => rfl
  | call c =>
    change (Machine.perform m c).1.limits = m.limits
    cases h : (Machine.perform m c).2 with
    | none =>
      rw [fst_perform_of_accepted h]
      rfl
    | some fault => rw [fst_perform_of_refused h]

end

/-! ### The limit -/

variable {m : Simulator Binary64} {inverse : Bool}

/-- The rate in force is within the limit, if it is noted as a speed. -/
def Within (m : Simulator Binary64) (inverse : Bool) : Prop :=
  inverse = false → Number.le m.state.feedRate m.limits.maxFeedRate = true

/-- **A request keeps a speed within the limit.** -/
theorem within_respond (hcheck : m.limits.check = none) (h : m.Within inverse)
    (r : Request Binary64) : (Machine.respond m r).Within (m.noteBehind inverse r) := by
  cases r with
  | beginBlock => exact h
  | call c =>
    intro hnote
    rw [limits_respond]
    change Number.le (Machine.perform m c).1.state.feedRate _ = true
    cases hc : (Machine.perform m c).2 with
    | none =>
      rw [fst_perform_of_accepted hc]
      cases c with
      | feedRate rate =>
        -- the only call that writes a rate, and the note says that it is a speed
        simp only [noteBehind, hc] at hnote
        exact storedFeedRate_le hcheck hc hnote
      | _ =>
        rw [m.feedRate_accepted (by simp)]
        exact h hnote
    | some fault =>
      rw [fst_perform_of_refused hc]
      cases c with
      | feedRate rate =>
        simp only [noteBehind, hc] at hnote
        exact h hnote
      | _ => exact h hnote

theorem within_respondAll (hcheck : m.limits.check = none) (h : m.Within inverse)
    (requests : List (Request Binary64)) :
    (Machine.respondAll m requests).Within (m.rateIsInverse inverse requests) ∧
      (Machine.respondAll m requests).limits = m.limits := by
  induction requests generalizing m inverse with
  | nil => exact ⟨h, rfl⟩
  | cons r requests ih =>
    have hlimits := m.limits_respond r
    have hcheck' : (Machine.respond m r).limits.check = none := by rw [hlimits, hcheck]
    obtain ⟨hwithin, hsame⟩ := ih hcheck' (within_respond hcheck h r)
    exact ⟨hwithin, hsame.trans hlimits⟩

/-- A move leaves the feed rate. -/
theorem feedRate_of_isFeed (m : Simulator Binary64) {c : Call Binary64} (hc : c.isFeed = true) :
    (Machine.perform m c).1.state.feedRate = m.state.feedRate := by
  cases h : (Machine.perform m c).2 with
  | none =>
    rw [fst_perform_of_accepted h]
    refine m.feedRate_accepted ?_
    rintro rate rfl
    exact absurd hc (by simp [Call.isFeed])
  | some fault => rw [fst_perform_of_refused h]

/-- **No feed runs above the limit at a rate that was handed over as a speed.**

A machine starts with limits that make sense and a feed rate within them, and is asked for
anything, in any order, whether it accepts or not.  If it then accepts a feed, straight or
on an arc, while feed rates are speeds, the rate in force is at most the limit, unless the
last rate that it accepted was handed over as an inverse time. -/
theorem feed_within_limit {limits : Limits Binary64} {state : State Binary64}
    (hcheck : limits.check = none) (hinit : Number.le state.feedRate limits.maxFeedRate = true)
    (requests : List (Request Binary64)) :
    let m := Machine.respondAll (ofState limits state) requests
    ∀ c : Call Binary64, c.isFeed = true → (Machine.perform m c).2 = none →
      m.state.inverseFeedRate = false →
      rateIsInverse (ofState limits state) false requests = false →
        Number.le (Machine.perform m c).1.state.feedRate limits.maxFeedRate = true := by
  intro m c hfeed _ _ hspeed
  obtain ⟨hwithin, hlimits⟩ :=
    within_respondAll (m := ofState limits state) hcheck (fun _ => hinit) requests
  have hle := hwithin hspeed
  rw [hlimits] at hle
  rw [feedRate_of_isFeed m hfeed]
  exact hle

/-- An inverse time far beyond the limit, a switch back to speeds, and a speed. -/
def speedAfterInverseTime : List (Request Binary64) :=
  [.call (.inverseFeedRate true), .call (.feedRate (Number.ofDecimal (.ofNat 20000))),
    .call (.inverseFeedRate false), .call (.feedRate (Number.ofDecimal (.ofNat 500)))]

/-- A feed to one millimetre on each axis. -/
def unitFeed : Call Binary64 :=
  .feed (.replicate (Number.ofDecimal (.ofNat 1)))

/-- A speed replaces a number that was handed over as an inverse time, and a feed runs
within the limit. -/
theorem feed_within_limit_after_inverse_time :
    let m := Machine.respondAll (ofState .standard .initial) speedAfterInverseTime
    (Machine.perform m unitFeed).2 = none ∧ m.state.inverseFeedRate = false ∧
      rateIsInverse (ofState .standard .initial) false speedAfterInverseTime = false ∧
      Number.le (Machine.perform m unitFeed).1.state.feedRate
        (Limits.standard.maxFeedRate : Binary64) = true := by
  have haccepted : (Machine.perform (Machine.respondAll
      (ofState .standard (.initial : State Binary64)) speedAfterInverseTime) unitFeed).2
        = none := by decide +kernel
  have hmode : (Machine.respondAll (ofState .standard (.initial : State Binary64))
      speedAfterInverseTime).state.inverseFeedRate = false := by decide +kernel
  have hspeed : rateIsInverse (ofState .standard .initial) false speedAfterInverseTime = false := by
    decide +kernel
  refine ⟨haccepted, hmode, hspeed, ?_⟩
  exact feed_within_limit (by decide +kernel) (by decide +kernel) speedAfterInverseTime unitFeed
    rfl haccepted hmode hspeed

/-- A number that was handed over as an inverse time is in force as a speed once the
machine is switched back, and a feed above the limit is accepted. -/
theorem feed_always_within_limit_false :
    ¬ ∀ (limits : Limits Binary64) (state : State Binary64) (requests : List (Request Binary64))
      (c : Call Binary64),
      limits.check = none → Number.le state.feedRate limits.maxFeedRate = true →
      let m := Machine.respondAll (ofState limits state) requests
      c.isFeed = true → (Machine.perform m c).2 = none → m.state.inverseFeedRate = false →
        Number.le (Machine.perform m c).1.state.feedRate limits.maxFeedRate = true := by
  intro h
  have hle := h .standard .initial
    [.call (.inverseFeedRate true), .call (.feedRate (Number.ofDecimal (.ofNat 20000))),
      .call (.inverseFeedRate false)]
    (.feed (.replicate (Number.ofDecimal (.ofNat 1)))) (by decide +kernel) (by decide +kernel)
    rfl (by decide +kernel) (by decide +kernel)
  exact absurd hle (by decide +kernel)

end Simulator

end NumericControl
